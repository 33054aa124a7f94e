import I4A.Mesh.Model
import I4A.Node.AccessPoint

/-! # How deep provisioning goes

Each node's network is a board's subnet of the node above it, three bits longer.
Nothing counts the bits that are left.
-/

namespace I4A

/-- `prefix_len` of `get_node_subnet`; the shifts by it and by `32 - prefix_len` are only
defined up to 31. -/
def prefixLen (nodeNetwork : Network) : Nat := maskSize nodeNetwork.mask + 3

/-- A forwarder of the node with this network, as a provisioning handler leaves it. -/
inductive BoardOf (network : Network) (o : Orientation) : RtForwarderState → Prop where
  | handshake {state : RtForwarderState} {event : RtPeerHandshake}
      (fresh : state.globalState = .withoutNetwork) (provided : event.providedNetwork = network) :
      BoardOf network o (Forwarder.Peer.onHandshake o state event).1
  | provision {state : RtForwarderState} {event : RtSiblProvision}
      (fresh : state.globalState ≠ .withNetwork) (provided : event.network = network) :
      BoardOf network o (Forwarder.Sibling.onProvision o state event).1

/-- The networks along a chain of provisioning, the deepest node first. A node takes the
network that the forwarder above provides in its handshake. -/
inductive ProvisioningChain : List Network → Prop where
  | root : ProvisioningChain [rootNetwork]
  | join {network : Network} {above : List Network} {o : Orientation} {state : RtForwarderState}
      (chain : ProvisioningChain (network :: above)) (forwarder : o ≠ .center)
      (board : BoardOf network o state) :
      ProvisioningChain ((Forwarder.Peer.handshakeOf state).providedNetwork :: network :: above)

/-- The call that takes a device network from the node's network does what it is for. -/
structure DeviceFits (nodeNetwork deviceNetwork : Network) : Prop where
  shift : prefixLen nodeNetwork ≤ 31
  inside : deviceNetwork.Inside nodeNetwork
  strict : ∃ ip, nodeNetwork.Contains ip ∧ ¬ deviceNetwork.Contains ip
  longer : maskSize nodeNetwork.mask < maskSize deviceNetwork.mask

/-- So it does on every board, and a forwarder's access point fits in. -/
structure NodeFits (network : Network) : Prop where
  forwarder : ∀ o state, o ≠ .center → BoardOf network o state →
    DeviceFits state.nodeNetwork state.deviceNetwork ∧
      ∀ isCenterRoot, (nodeSetAsAp o isCenterRoot state.deviceNetwork).apNetwork.Inside
        state.deviceNetwork
  home : DeviceFits network (getNodeSubnet network .center)

/-! ## One node -/

theorem BoardOf.networks {network : Network} {o : Orientation} {state : RtForwarderState}
    (board : BoardOf network o state) :
    state.nodeNetwork = network ∧ state.deviceNetwork = getNodeSubnet network o := by
  cases board with
  | handshake fresh provided =>
      rw [Forwarder.Peer.onHandshake, if_pos fresh]
      exact ⟨provided, congrArg (getNodeSubnet · o) provided⟩
  | provision fresh provided =>
      rw [Forwarder.Sibling.onProvision, if_neg fresh]
      exact ⟨provided, congrArg (getNodeSubnet · o) provided⟩

namespace Network.Plan

variable {network : Network} {k q : Nat}

/-- The other boards' subnets are outside. -/
theorem deviceFits (h : network.Plan k q) (o : Orientation) :
    DeviceFits network (getNodeSubnet network o) := by
  have hk := h.short
  have hmask : maskSize network.mask = k := by
    rw [h.eq, ofBlock_mask, maskSize_mask (by omega)]
  constructor
  · rw [prefixLen, hmask]
    omega
  · intro ip hip
    exact h.contains_of_subnet hip
  · obtain ⟨ip, hip⟩ := h.exists_mem_subnet o.next
    refine ⟨ip, h.contains_of_subnet hip, ?_⟩
    intro hself
    exact o.next_ne (h.eq_of_subnets hip hself)
  · rw [hmask, h.subnet_eq o, ofBlock_mask, maskSize_mask (by omega)]
    omega

theorem nodeFits (h : network.Plan k q) (hk : k ≤ 27) : NodeFits network := by
  constructor
  · intro o state ho board
    obtain ⟨hnode, hdevice⟩ := board.networks
    rw [hnode, hdevice]
    refine ⟨h.deviceFits o, ?_⟩
    intro isCenterRoot ip hip
    have hlong : k + 3 ≤ 30 := by omega
    have hq := h.subnet_number o
    rw [h.subnet_eq o, nodeSetAsAp_forwarder hlong hq ho, firstLink_contains hlong hq] at hip
    rw [h.subnet_eq o, contains_ofBlock (by omega) hq, block_of_link hlong, hip]
    exact Nat.mul_div_cancel _ (Nat.two_pow_pos _)
  · exact h.deviceFits .center

end Network.Plan

theorem NodeFits.short {k q : Nat} (hk : k ≤ 32) (h : NodeFits (Network.ofBlock k q)) :
    k ≤ 28 := by
  have shift := h.home.shift
  rw [prefixLen, Network.ofBlock_mask, maskSize_mask hk] at shift
  omega

/-! ## Chains -/

namespace ProvisioningChain

/-- Down to the eighth node every network is a block with three bits more than the one above. -/
theorem block {networks : List Network} (chain : ProvisioningChain networks) :
    ∀ network above, networks = network :: above → above.length ≤ 7 →
      ∃ q, q < 2 ^ (8 + 3 * above.length) ∧
        network = Network.ofBlock (8 + 3 * above.length) q := by
  induction chain with
  | root =>
      intro network above heq _
      obtain ⟨rfl, rfl⟩ := List.cons.inj heq
      exact ⟨10, by decide, by decide⟩
  | @join parent above o state chain forwarder board ih =>
      intro network rest heq hdepth
      obtain ⟨rfl, rfl⟩ := List.cons.inj heq
      rw [List.length_cons] at hdepth
      obtain ⟨q, hq, hparent⟩ := ih parent above rfl (by omega)
      have plan : parent.Plan (8 + 3 * above.length) q := ⟨by omega, hq, hparent⟩
      have hlength : 8 + 3 * (parent :: above).length = 8 + 3 * above.length + 3 := by
        rw [List.length_cons]
        omega
      rw [hlength]
      refine ⟨8 * q + o.val, plan.subnet_number o, ?_⟩
      rw [← plan.subnet_eq o]
      exact board.networks.2

/-- The node below `above` fits exactly down to the seventh. -/
theorem fits_iff {network : Network} {above : List Network}
    (chain : ProvisioningChain (network :: above)) (hdepth : above.length ≤ 7) :
    NodeFits network ↔ above.length ≤ 6 := by
  obtain ⟨q, hq, rfl⟩ := chain.block network above rfl hdepth
  constructor
  · intro h
    have := h.short (by omega)
    omega
  · intro h
    exact Network.Plan.nodeFits ⟨by omega, hq, rfl⟩ (by omega)

end ProvisioningChain

/-- Delegation works on every node of a chain exactly if there are at most seven. -/
theorem provisioningChain_fits_iff (networks : List Network)
    (chain : ProvisioningChain networks) :
    (∀ network ∈ networks, NodeFits network) ↔ networks.length ≤ 7 := by
  induction chain with
  | root =>
      have hroot := (ProvisioningChain.root.fits_iff (by decide)).mpr (by decide)
      simp only [List.mem_singleton, forall_eq, List.length_singleton]
      exact ⟨fun _ => by decide, fun _ => hroot⟩
  | @join parent above o state chain forwarder board ih =>
      have hnew := (ProvisioningChain.join chain forwarder board).fits_iff
      rw [List.forall_mem_cons, ih]
      show _ ↔ (parent :: above).length + 1 ≤ 7
      constructor
      · rintro ⟨hfits, habove⟩
        have := (hnew habove).mp hfits
        omega
      · intro hlength
        exact ⟨(hnew (by omega)).mpr (by omega), by omega⟩

/-! ## Chains of every length -/

/-- The node below `d` north forwarders. -/
def northNetwork : Nat → Network
  | 0 => rootNetwork
  | d + 1 => getNodeSubnet (northNetwork d) .north

def northAbove : Nat → List Network
  | 0 => []
  | d + 1 => northNetwork d :: northAbove d

theorem northChain (d : Nat) : ProvisioningChain (northNetwork d :: northAbove d) := by
  induction d with
  | zero => exact .root
  | succ d ih =>
      have board : BoardOf (northNetwork d) .north (Forwarder.Peer.onHandshake .north
          createForwarderCore ⟨northNetwork d, northNetwork d, 1⟩).1 :=
        .handshake rfl rfl
      exact .join ih (by decide) board

/-- The third node of a chain. -/
theorem provisioningChain_fits_three : NodeFits (northNetwork 2) :=
  (provisioningChain_fits_iff _ (northChain 2)).mpr (by decide) _ List.mem_cons_self

/-- The eighth node has 10.36.146.72/29. -/
theorem provisioningChain_eighth :
    northNetwork 7 = ⟨0x0A249248, 0xFFFFFFF8⟩ ∧ prefixLen (northNetwork 7) = 32 ∧
      ¬ ∀ networks, ProvisioningChain networks → ∀ network ∈ networks, NodeFits network := by
  refine ⟨by decide, by decide, fun h => ?_⟩
  have fits := h _ (northChain 7) (northNetwork 7) List.mem_cons_self
  rw [(northChain 7).fits_iff (by decide)] at fits
  exact absurd fits (by decide)

end I4A
