import I4A.Routing.AddressPlan

/-! # Access points of a node

`node_set_as_ap`. A forwarder opens a link of four addresses at the start of its
device network, the root's center board one at the end of the node's network. The
five subnets of a node leave both ends of its network free.
-/

namespace I4A

/-- What `node_set_as_ap` passes to `node_set_network_settings` and to
`device_set_network_ap`. -/
structure ApSettings where
  settings : Network
  networkCidr : BitVec 32
  networkGateway : BitVec 32
  networkMask : BitVec 32
  deriving DecidableEq, Repr

/-- `ap_subnet` and `ap_mask` after `ap_set_network`. -/
def ApSettings.apNetwork (ap : ApSettings) : Network :=
  ⟨ap.networkCidr &&& ap.networkMask, ap.networkMask⟩

/-- `last_net30`. -/
def lastNet30 (network : Network) : BitVec 32 :=
  ((network.addr ||| ~~~network.mask) - 3) &&& 0xFFFFFFFC

/-- `node_set_as_ap` of the board with this `node_device_orientation`. -/
def nodeSetAsAp (orientation : Orientation) (isCenterRoot : Bool) (network : Network) :
    ApSettings :=
  if orientation = .center then
    if isCenterRoot then
      { settings := network
        networkCidr := lastNet30 network + 1
        networkGateway := lastNet30 network + 2
        networkMask := 0xFFFFFFFC }
    else
      { settings := network
        networkCidr := network.addr + 1
        networkGateway := network.addr + 1
        networkMask := network.mask }
  else
    { settings := network
      networkCidr := network.addr + 1
      networkGateway := network.addr + 2
      networkMask := 0xFFFFFFFC }

/-! ## Links of four addresses -/

theorem mask30 : (0xFFFFFFFC : BitVec 32) = Prefix.mask 32 30 := by decide

theorem link_of_second {r : Nat} (hr : r < 2 ^ 30) :
    (Prefix.base 32 30 r + 1) &&& 0xFFFFFFFC = Prefix.base 32 30 r := by
  rw [mask30, Prefix.and_mask_eq_base (by decide) hr, Prefix.block, BitVec.toNat_add,
    Prefix.base_toNat (by decide) hr, show (1 : BitVec 32).toNat = 1 from rfl]
  omega

theorem base_eq_link {k q : Nat} (hk : k ≤ 30) (hq : q < 2 ^ k) :
    q * 2 ^ (30 - k) < 2 ^ 30 ∧ Prefix.base 32 k q = Prefix.base 32 30 (q * 2 ^ (30 - k)) := by
  have hsplit : 2 ^ (32 - k) = 2 ^ (30 - k) * 2 ^ (32 - 30) := by
    rw [← Nat.pow_add]
    congr 1
    omega
  have hroom : q * 2 ^ (30 - k) < 2 ^ 30 := by
    rw [show 30 = k + (30 - k) by omega, Nat.pow_add, show k + (30 - k) - k = 30 - k by omega]
    exact Nat.mul_lt_mul_of_pos_right hq (Nat.two_pow_pos _)
  constructor
  · exact hroom
  · rw [Prefix.base, Prefix.base, hsplit, Nat.mul_assoc]

/-- The last link of a block. -/
theorem lastNet30_ofBlock {k q : Nat} (hk : k ≤ 30) (hq : q < 2 ^ k) :
    q * 2 ^ (30 - k) + (2 ^ (30 - k) - 1) < 2 ^ 30 ∧
      lastNet30 (Network.ofBlock k q) =
        Prefix.base 32 30 (q * 2 ^ (30 - k) + (2 ^ (30 - k) - 1)) := by
  have hpos : 0 < 2 ^ (30 - k) := Nat.two_pow_pos _
  have hsplit : 2 ^ (32 - k) = 2 ^ (30 - k) * 4 := by
    rw [show 32 - k = (30 - k) + 2 by omega, Nat.pow_add]
  have hroom : (q + 1) * 2 ^ (30 - k) ≤ 2 ^ 30 := by
    have hle : (q + 1) * 2 ^ (30 - k) ≤ 2 ^ k * 2 ^ (30 - k) := Nat.mul_le_mul_right _ hq
    rwa [← Nat.pow_add, show k + (30 - k) = 30 by omega] at hle
  rw [Nat.add_mul, Nat.one_mul] at hroom
  constructor
  · omega
  · have hlast := Prefix.or_not_mask_toNat (show k ≤ 32 by omega) hq
    rw [hsplit, ← Nat.mul_assoc] at hlast
    rw [lastNet30, mask30, Prefix.and_mask_eq_base (by decide) (by omega), Prefix.block,
      BitVec.toNat_sub, Network.ofBlock_addr, Network.ofBlock_mask, hlast,
      show (3 : BitVec 32).toNat = 3 from rfl]
    omega

theorem lastNet30_last {k q : Nat} (hk : k ≤ 30) (hq : q < 2 ^ k) :
    lastNet30 (Network.ofBlock k q) + 3 = Prefix.base 32 k q ||| ~~~Prefix.mask 32 k := by
  obtain ⟨hroom, hlink⟩ := lastNet30_ofBlock hk hq
  have hpos : 0 < 2 ^ (30 - k) := Nat.two_pow_pos _
  have hsplit : 2 ^ (32 - k) = 2 ^ (30 - k) * 4 := by
    rw [show 32 - k = (30 - k) + 2 by omega, Nat.pow_add]
  have hlast := Prefix.or_not_mask_toNat (show k ≤ 32 by omega) hq
  rw [hsplit, ← Nat.mul_assoc] at hlast
  apply BitVec.eq_of_toNat_eq
  rw [hlast, hlink, BitVec.toNat_add, Prefix.base_toNat (by decide) hroom,
    show (3 : BitVec 32).toNat = 3 from rfl]
  omega

/-! ## The two links of a network -/

/-- The first four addresses. -/
def firstLink (network : Network) : Network := ⟨network.addr, 0xFFFFFFFC⟩

/-- The last four. -/
def lastLink (network : Network) : Network := ⟨lastNet30 network, 0xFFFFFFFC⟩

section Links

variable {k q : Nat} (hk : k ≤ 30) (hq : q < 2 ^ k)
include hk hq

theorem firstLink_ofBlock :
    firstLink (Network.ofBlock k q) = Network.ofBlock 30 (q * 2 ^ (30 - k)) := by
  rw [firstLink, Network.ofBlock, Network.ofBlock, mask30, (base_eq_link hk hq).2]

theorem lastLink_ofBlock :
    lastLink (Network.ofBlock k q) =
      Network.ofBlock 30 (q * 2 ^ (30 - k) + (2 ^ (30 - k) - 1)) := by
  rw [lastLink, (lastNet30_ofBlock hk hq).2, Network.ofBlock, mask30]

theorem firstLink_contains (ip : BitVec 32) :
    (firstLink (Network.ofBlock k q)).Contains ip ↔
      Prefix.block 30 ip = q * 2 ^ (30 - k) := by
  rw [firstLink_ofBlock hk hq]
  exact Network.contains_ofBlock (by decide) (base_eq_link hk hq).1 ip

theorem lastLink_contains (ip : BitVec 32) :
    (lastLink (Network.ofBlock k q)).Contains ip ↔
      Prefix.block 30 ip = q * 2 ^ (30 - k) + (2 ^ (30 - k) - 1) := by
  rw [lastLink_ofBlock hk hq]
  exact Network.contains_ofBlock (by decide) (lastNet30_ofBlock hk hq).1 ip

theorem nodeSetAsAp_forwarder {o : Orientation} (ho : o ≠ .center) (isCenterRoot : Bool) :
    (nodeSetAsAp o isCenterRoot (Network.ofBlock k q)).apNetwork =
      firstLink (Network.ofBlock k q) := by
  obtain ⟨hr, hbase⟩ := base_eq_link hk hq
  rw [nodeSetAsAp, if_neg ho, ApSettings.apNetwork, firstLink, Network.ofBlock_addr, hbase,
    link_of_second hr]

theorem nodeSetAsAp_root :
    (nodeSetAsAp .center true (Network.ofBlock k q)).apNetwork =
      lastLink (Network.ofBlock k q) := by
  obtain ⟨hr, hlast⟩ := lastNet30_ofBlock hk hq
  rw [nodeSetAsAp, if_pos rfl, if_pos rfl, ApSettings.apNetwork, lastLink, hlast,
    link_of_second hr]

end Links

/-! ## The partition -/

namespace Network

/-- Every address of `other` is one of `network`. -/
def Inside (other network : Network) : Prop := ∀ ip, other.Contains ip → network.Contains ip

/-- The five subnets and the two links share a network without meeting. -/
structure Partition (network : Network) (k : Nat) : Prop where
  mask : ∀ o, (getNodeSubnet network o).mask = Prefix.mask 32 (k + 3)
  noHostBits : ∀ o, (getNodeSubnet network o).addr &&& (getNodeSubnet network o).mask =
    (getNodeSubnet network o).addr
  inside : ∀ o, (getNodeSubnet network o).Inside network
  disjoint : ∀ o o', o ≠ o' → ¬ (getNodeSubnet network o).Overlaps (getNodeSubnet network o')
  first : (firstLink network).Inside network ∧
    ∀ o, ¬ (getNodeSubnet network o).Overlaps (firstLink network)
  last : (lastLink network).Inside network ∧
    ∀ o, ¬ (getNodeSubnet network o).Overlaps (lastLink network)

variable {network : Network} {k q : Nat}

theorem block_of_link (hk : k ≤ 30) (ip : BitVec 32) :
    Prefix.block k ip = Prefix.block 30 ip / 2 ^ (30 - k) :=
  Prefix.block_of_longer hk (by decide) ip

theorem Plan.link_inside (h : network.Plan k q) {link r : Nat} (hr : r < 2 ^ (30 - k))
    (hlink : link = q * 2 ^ (30 - k) + r) {other : Network}
    (hother : ∀ ip, other.Contains ip ↔ Prefix.block 30 ip = link) : other.Inside network := by
  have hk := h.short
  intro ip hip
  rw [hother] at hip
  rw [h.eq, contains_ofBlock (by omega) h.number, block_of_link (by omega), hip, hlink]
  exact Nat.div_eq_of_lt_le (by omega) (by rw [Nat.add_mul]; omega)

theorem Plan.link_apart (h : network.Plan k q) (hk : k ≤ 27) {link b r : Nat}
    (hb : b = 0 ∨ 5 < b) (hr : r < 2 ^ (27 - k))
    (hlink : link = (8 * q + b) * 2 ^ (27 - k) + r) {other : Network}
    (hother : ∀ ip, other.Contains ip ↔ Prefix.block 30 ip = link) (o : Orientation) :
    ¬ (getNodeSubnet network o).Overlaps other := by
  rintro ⟨ip, hsubnet, hip⟩
  rw [hother] at hip
  rw [h.subnet_contains, block_of_link (by omega), hip, hlink,
    show 30 - (k + 3) = 27 - k by omega] at hsubnet
  have hquot : ((8 * q + b) * 2 ^ (27 - k) + r) / 2 ^ (27 - k) = 8 * q + b :=
    Nat.div_eq_of_lt_le (by omega) (by rw [Nat.add_mul (8 * q + b) 1]; omega)
  have hpos := o.val_pos
  have hle := o.val_le
  simp only [Orientation.nDevices] at hle
  omega

theorem Plan.partition (h : network.Plan k q) (hk : k ≤ 27) : network.Partition k := by
  have hk30 : k ≤ 30 := by omega
  have hpos : 0 < 2 ^ (27 - k) := Nat.two_pow_pos _
  -- a network is eight blocks of links: the first link is in block 0, the last in block 7
  have hwidth : 2 ^ (30 - k) = 8 * 2 ^ (27 - k) := by
    rw [show 30 - k = 3 + (27 - k) by omega, Nat.pow_add]
  have hfirst : ∀ ip, (firstLink network).Contains ip ↔
      Prefix.block 30 ip = q * 2 ^ (30 - k) := by
    rw [h.eq]
    exact firstLink_contains hk30 h.number
  have hlast : ∀ ip, (lastLink network).Contains ip ↔
      Prefix.block 30 ip = q * 2 ^ (30 - k) + (2 ^ (30 - k) - 1) := by
    rw [h.eq]
    exact lastLink_contains hk30 h.number
  constructor
  · intro o
    rw [h.subnet_eq o, ofBlock_mask]
  · intro o
    rw [h.subnet_eq o]
    exact Prefix.and_mask_self _ _ (by omega) (h.subnet_number o)
  · intro o ip hip
    exact h.contains_of_subnet hip
  · rintro o o' hne ⟨ip, hip, hip'⟩
    exact hne (h.eq_of_subnets hip hip')
  · constructor
    · exact h.link_inside (Nat.two_pow_pos _) (Nat.add_zero _).symm hfirst
    · apply h.link_apart hk (.inl rfl) hpos _ hfirst
      rw [hwidth, Nat.add_zero, Nat.add_zero]
      ring
  · constructor
    · exact h.link_inside (by omega) rfl hlast
    · apply h.link_apart hk (.inr (by decide : 5 < 7)) (Nat.sub_lt hpos Nat.one_pos) _ hlast
      rw [hwidth, Nat.add_mul]
      have hseven : q * (8 * 2 ^ (27 - k)) = 8 * q * 2 ^ (27 - k) := by ring
      omega

end Network

/-- The address plan of a node: five subnets with three bits more, and the links at both ends
of the network, and none of them meet. -/
theorem nodeNetwork_partition (network : Network) (k : Nat) (hk : k ≤ 27)
    (hmask : network.mask = Prefix.mask 32 k)
    (haddr : network.addr &&& network.mask = network.addr) :
    network.Partition k ∧
      (∀ o isCenterRoot, o ≠ .center →
        (nodeSetAsAp o isCenterRoot network).apNetwork = firstLink network) ∧
      (nodeSetAsAp .center true network).apNetwork = lastLink network ∧
      lastNet30 network + 3 = network.addr ||| ~~~network.mask := by
  obtain ⟨k', q, plan⟩ := Network.plan_of_proper ⟨k, by omega, hmask, haddr⟩
    (by rw [hmask, maskSize_mask (by omega)]; omega)
  obtain rfl : k' = k := by
    rw [plan.eq] at hmask
    exact Prefix.mask_injective (by have := plan.short; omega) (by omega) hmask
  have hk30 : k' ≤ 30 := by omega
  have hq := plan.number
  refine ⟨plan.partition hk, ?_, ?_, ?_⟩
  · intro o isCenterRoot ho
    rw [plan.eq]
    exact nodeSetAsAp_forwarder hk30 hq ho isCenterRoot
  · rw [plan.eq]
    exact nodeSetAsAp_root hk30 hq
  · rw [plan.eq]
    exact lastNet30_last hk30 hq

/-- A network with room for eight links. -/
theorem nodeNetwork_partition_smallest :
    (⟨0x0A249240, 0xFFFFFFE0⟩ : Network).Partition 27 :=
  (nodeNetwork_partition ⟨0x0A249240, 0xFFFFFFE0⟩ 27 (by decide) (by decide) (by decide)).1

end I4A
