import I4A.Core.Prefix
import I4A.Routing.Types

/-! # Subnets of a node

`mask_size`, `get_node_subnet` and `find_free_spot` of `utils.c`, and the
arithmetic of the address plan: on a contiguous prefix of length at most 28
every board gets the block of the next three bits that its orientation names.
-/

namespace I4A

/-- The loop of `mask_size`; thirty-two shifts empty any word. -/
def maskSizeLoop : Nat → BitVec 32 → Nat → Nat
  | 0, _, c => c
  | fuel + 1, n, c => if n = 0 then c else maskSizeLoop fuel (n <<< 1) (c + 1)

/-- `mask_size`. -/
def maskSize (n : BitVec 32) : Nat := maskSizeLoop 32 n 0

/-- `get_node_subnet`. The C shifts are only defined while `prefix_len` is at most 31; past
that the definition below has no meaning for the firmware, and no result about addresses
uses it there. -/
def getNodeSubnet (nodeNetwork : Network) (orientation : Orientation) : Network :=
  let assignedBlock := BitVec.ofNat 32 orientation.val
  let prefixLen := maskSize nodeNetwork.mask + 3
  let newMask := ((1#32 <<< prefixLen) - 1) <<< (32 - prefixLen)
  { addr := nodeNetwork.addr ||| (assignedBlock <<< (32 - maskSize newMask))
    mask := newMask }

/-- `find_free_spot`: the index of the first network with address zero. -/
def findFreeSpot (networks : HagNetworks) : Option Nat :=
  networks.toList.findIdx? (·.addr = 0)

/-! ## The address plan -/

theorem maskSize_mask {k : Nat} (hk : k ≤ 32) : maskSize (Prefix.mask 32 k) = k := by
  have all : ∀ k : Fin 33, maskSize (Prefix.mask 32 k) = k := by decide
  exact all ⟨k, by omega⟩

private theorem newMask_eq {p : Nat} (hp : p ≤ 31) :
    ((1#32 <<< p) - 1) <<< (32 - p) = Prefix.mask 32 p := by
  have all : ∀ p : Fin 32, ((1#32 <<< p.val) - 1) <<< (32 - p.val) = Prefix.mask 32 p.val := by
    decide
  exact all ⟨p, by omega⟩

theorem maskSizeLoop_le (fuel : Nat) (n : BitVec 32) (c : Nat) :
    maskSizeLoop fuel n c ≤ c + fuel := by
  induction fuel generalizing n c with
  | zero => exact Nat.le_refl c
  | succ fuel ih =>
      rw [maskSizeLoop]
      split
      · omega
      · have := ih (n <<< 1) (c + 1)
        omega

theorem getNodeSubnet_ne_zero (network : Network) (o : Orientation) :
    getNodeSubnet network o ≠ Network.zero := by
  intro h
  have hsize : maskSize network.mask ≤ 32 := by
    have := maskSizeLoop_le 32 network.mask 0
    unfold maskSize
    omega
  have all : ∀ k : Fin 33,
      ((1#32 <<< (k.val + 3)) - 1) <<< (32 - (k.val + 3)) ≠ (0 : BitVec 32) := by decide
  exact all ⟨maskSize network.mask, by omega⟩ (congrArg Network.mask h)

theorem getNodeSubnet_addr_ne_zero {network : Network} (h : network.addr ≠ 0) (o : Orientation) :
    (getNodeSubnet network o).addr ≠ 0 := by
  intro hzero
  simp only [getNodeSubnet, BitVec.ofNat_eq_ofNat, BitVec.or_eq_zero_iff] at hzero
  exact h hzero.1

/-- The network that owns block `q` of length `k`. -/
def Network.ofBlock (k q : Nat) : Network := ⟨Prefix.base 32 k q, Prefix.mask 32 k⟩

@[simp] theorem Network.ofBlock_mask (k q : Nat) : (ofBlock k q).mask = Prefix.mask 32 k := rfl

@[simp] theorem Network.ofBlock_addr (k q : Nat) : (ofBlock k q).addr = Prefix.base 32 k q := rfl

/-- A board's subnet is the child block its orientation names. -/
theorem getNodeSubnet_ofBlock {k q : Nat} (hk : k ≤ 28) (hq : q < 2 ^ k) (o : Orientation) :
    getNodeSubnet (Network.ofBlock k q) o = Network.ofBlock (k + 3) (8 * q + o.val) := by
  have ho : o.val < 8 := by
    have := o.val_le
    simp only [Orientation.nDevices] at this
    omega
  have hmask : ((1#32 <<< (k + 3)) - 1) <<< (32 - (k + 3)) = Prefix.mask 32 (k + 3) :=
    newMask_eq (by omega)
  have hsplit : 2 ^ (32 - k) = 8 * 2 ^ (32 - (k + 3)) := by
    rw [show 32 - k = 3 + (32 - (k + 3)) by omega, Nat.pow_add]
  have hroom : o.val * 2 ^ (32 - (k + 3)) < 2 ^ (32 - k) := by
    rw [hsplit]
    exact Nat.mul_lt_mul_of_pos_right ho (Nat.two_pow_pos _)
  have hpow : 2 ^ (32 - k) ≤ 2 ^ 32 := Nat.pow_le_pow_right (by decide) (by omega)
  have hq' : 8 * q + o.val < 2 ^ (k + 3) := by
    rw [Nat.pow_add]
    omega
  simp only [getNodeSubnet, Network.ofBlock_mask, maskSize_mask (show k ≤ 32 by omega), hmask,
    maskSize_mask (show k + 3 ≤ 32 by omega)]
  simp only [Network.ofBlock, Network.mk.injEq, and_true]
  apply BitVec.eq_of_toNat_eq
  have hblock : (BitVec.ofNat 32 o.val).toNat = o.val := by
    rw [BitVec.toNat_ofNat]
    exact Nat.mod_eq_of_lt (by omega)
  rw [BitVec.toNat_or, Prefix.base_toNat (by omega) hq, Prefix.base_toNat (by omega) hq',
    BitVec.toNat_shiftLeft, hblock, Nat.shiftLeft_eq, Nat.mod_eq_of_lt (by omega),
    ← Nat.shiftLeft_eq q, ← Nat.shiftLeft_add_eq_or_of_lt hroom, Nat.shiftLeft_eq, hsplit]
  ring

end I4A
