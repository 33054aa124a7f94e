import I4A.Routing.LongestPrefix
import I4A.Routing.Subnet

/-! # The address plan

A node's network is a block with at least three bits left for its boards; a
board's subnet lies inside it and meets no other board's.
-/

namespace I4A

namespace Network

/-- The mask test of a lookup. -/
def Contains (network : Network) (ip : BitVec 32) : Prop := ip &&& network.mask = network.addr

instance (network : Network) (ip : BitVec 32) : Decidable (network.Contains ip) :=
  inferInstanceAs (Decidable (_ = _))

/-- An address of both. -/
def Overlaps (network other : Network) : Prop :=
  ∃ ip, network.Contains ip ∧ other.Contains ip

/-- A block with a prefix of at most 28 bits: `get_node_subnet` shifts by less than 32. -/
structure Plan (network : Network) (k q : Nat) : Prop where
  short : k ≤ 28
  number : q < 2 ^ k
  eq : network = ofBlock k q

theorem contains_ofBlock {k q : Nat} (hk : k ≤ 32) (hq : q < 2 ^ k) (ip : BitVec 32) :
    (ofBlock k q).Contains ip ↔ Prefix.block k ip = q := Prefix.and_mask_eq_base hk hq ip

namespace Plan

variable {network : Network} {k q : Nat} {o o' : Orientation} {ip : BitVec 32}

theorem subnet_number (h : network.Plan k q) (o : Orientation) : 8 * q + o.val < 2 ^ (k + 3) := by
  have hq := h.number
  have ho := o.val_le
  simp only [Orientation.nDevices] at ho
  rw [Nat.pow_add]
  omega

theorem subnet_eq (h : network.Plan k q) (o : Orientation) :
    getNodeSubnet network o = ofBlock (k + 3) (8 * q + o.val) := by
  rw [h.eq]
  exact getNodeSubnet_ofBlock h.short h.number o

theorem subnet_contains (h : network.Plan k q) :
    (getNodeSubnet network o).Contains ip ↔ Prefix.block (k + 3) ip = 8 * q + o.val := by
  have hk := h.short
  rw [h.subnet_eq o]
  exact contains_ofBlock (by omega) (h.subnet_number o) ip

theorem contains_of_subnet (h : network.Plan k q)
    (hip : (getNodeSubnet network o).Contains ip) : network.Contains ip := by
  have hk := h.short
  have ho : o.val < 8 := by
    have := o.val_le
    simp only [Orientation.nDevices] at this
    omega
  rw [h.subnet_contains] at hip
  rw [h.eq, contains_ofBlock (by omega) h.number,
    Prefix.block_of_longer (show k ≤ k + 3 by omega) (by omega), hip]
  have hexp : k + 3 - k = 3 := by omega
  rw [hexp]
  omega

theorem eq_of_subnets (h : network.Plan k q) (hip : (getNodeSubnet network o).Contains ip)
    (hip' : (getNodeSubnet network o').Contains ip) : o = o' := by
  rw [h.subnet_contains] at hip hip'
  apply Orientation.val_injective
  omega

theorem subnet (h : network.Plan k q) (o : Orientation)
    (short : maskSize (getNodeSubnet network o).mask ≤ 28) :
    (getNodeSubnet network o).Plan (k + 3) (8 * q + o.val) := by
  have hk := h.short
  rw [h.subnet_eq o, ofBlock_mask, maskSize_mask (by omega)] at short
  exact ⟨short, h.subnet_number o, h.subnet_eq o⟩

theorem exists_mem_subnet (h : network.Plan k q) (o : Orientation) :
    ∃ ip, (getNodeSubnet network o).Contains ip := by
  have hk := h.short
  exact ⟨_, h.subnet_contains.mpr (Prefix.block_base (by omega) (h.subnet_number o))⟩

theorem contains_self (h : network.Plan k q) : network.Contains network.addr := by
  have hk := h.short
  rw [h.eq, contains_ofBlock (by omega) h.number]
  exact Prefix.block_base (by omega) h.number

end Plan

theorem plan_of_proper {network : Network} (proper : ProperNetwork network.addr network.mask)
    (short : maskSize network.mask ≤ 28) : ∃ k q, network.Plan k q := by
  obtain ⟨k, hk, hmask, haddr⟩ := proper
  rw [hmask, maskSize_mask hk] at short
  refine ⟨k, Prefix.block k network.addr, short, Prefix.block_lt k hk _, ?_⟩
  have hbase : network.addr = Prefix.base 32 k (Prefix.block k network.addr) := by
    rw [hmask] at haddr
    exact Prefix.eq_base_of_and_mask haddr
  cases network
  simp only [ofBlock, Network.mk.injEq]
  exact ⟨hbase, hmask⟩

end Network

end I4A
