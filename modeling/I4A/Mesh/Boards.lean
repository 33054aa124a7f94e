import I4A.Core.Recorder
import I4A.Mesh.Delivery
import I4A.Node.Hooks

/-! # Packets from board to board

The network as its boards see a packet: a board's hook keeps it or passes it to the next board of
the ring, and a board that keeps it sends it over its link. The settings that the hooks of the
center boards test are kept beside the network. The walk of a packet over the boards follows the
walk over the nodes.
-/

namespace I4A

open Relation StateTransition

namespace HookedNode

/-- A home board without a subnet has the settings it started with. -/
def Unset (n : HookedNode) : Prop :=
  n.node.roles .center = .home ⟨false⟩ → n.settings .center = defaultSettings

variable {n n' : HookedNode} {root : Option Network}

theorem Unset.actForwarder (h : n.Unset) {o : Orientation} (ho : o ≠ .center)
    (result : RtRole × List RtAction) : (n.act o result).Unset := by
  intro hrole
  have hkept : (n.act o result).node.roles .center = n.node.roles .center :=
    Node.act_roles_of_ne _ (Ne.symm ho) _
  rw [act_settings_of_ne _ (Ne.symm ho)]
  exact h (hkept ▸ hrole)

theorem Unset.actCenter (h : n.Unset) {result : RtRole × List RtAction}
    (keeps : result.1 = .home ⟨false⟩ → n.node.roles .center = .home ⟨false⟩ ∧
      result.2.foldl RtAction.settings (n.settings .center) = n.settings .center) :
    (n.act .center result).Unset := by
  intro hrole
  have hself : (n.act .center result).node.roles .center = result.1 := Node.act_roles_self _ _ _
  obtain ⟨hold, hsame⟩ := keeps (hself ▸ hrole)
  rw [act_settings_self, hsame]
  exact h hold

theorem dispatchSibl_center {role : RtRole} {ev : RtSiblEvent} {result : RtRole × List RtAction}
    (center : (∃ state, role = .root state) ∨ ∃ state, role = .home state)
    (hd : dispatchSibl .center role ev = some result) (hrole : result.1 = .home ⟨false⟩)
    (settings : Network) :
    role = .home ⟨false⟩ ∧ result.2.foldl RtAction.settings settings = settings := by
  rcases center with ⟨state, rfl⟩ | ⟨⟨prov⟩, rfl⟩
  · cases ev <;> cases hd <;> cases hrole
  · cases prov <;> cases ev <;> cases hd <;> first | exact ⟨rfl, rfl⟩ | cases hrole

theorem dispatchPeer_center {role : RtRole} {ev : RtPeerEvent} {result : RtRole × List RtAction}
    (center : (∃ state, role = .root state) ∨ ∃ state, role = .home state)
    (hd : dispatchPeer .center role ev = some result) (hrole : result.1 = .home ⟨false⟩)
    (settings : Network) :
    role = .home ⟨false⟩ ∧ result.2.foldl RtAction.settings settings = settings := by
  rcases center with ⟨state, rfl⟩ | ⟨⟨prov⟩, rfl⟩
  · cases ev <;> cases hd <;> cases hrole
  · cases prov <;> cases ev <;> cases hd <;> first | exact ⟨rfl, rfl⟩ | cases hrole

theorem Inv.center_kind (inv : n.Inv root) :
    (∃ state, n.node.roles .center = .root state) ∨
      ∃ state, n.node.roles .center = .home state := by
  rcases inv.center with ⟨state, h, -⟩ | ⟨state, h, -⟩
  · exact .inl ⟨state, h⟩
  · exact .inr ⟨state, h⟩

theorem Unset.step (h : n.Unset) (inv : n.Inv root) {l : HookedLabel}
    (hs : hookedMachine.step n l = some n') : n'.Unset := by
  have hstep : n.step l = some n' := hs
  cases l with
  | sibl o =>
      simp only [HookedNode.step, Node.siblResult, Option.map_eq_some_iff] at hstep
      obtain ⟨⟨role, actions, rest⟩, hresult, rfl⟩ := hstep
      have hpop : ({ n with node := n.node.pop o rest } : HookedNode).Unset := h
      cases hin : n.node.inbox o with
      | nil =>
          rw [hin] at hresult
          cases hresult
      | cons ev rest' =>
          rw [hin] at hresult
          simp only [Option.map_eq_some_iff, Prod.mk.injEq] at hresult
          obtain ⟨⟨role', actions'⟩, hd, rfl, rfl, rfl⟩ := hresult
          by_cases ho : o = .center
          · subst ho
            exact hpop.actCenter fun hrole =>
              dispatchSibl_center inv.center_kind hd hrole (n.settings .center)
          · exact hpop.actForwarder ho _
  | peer o ev =>
      simp only [HookedNode.step, Node.peerResult, Option.map_eq_some_iff] at hstep
      obtain ⟨result, hresult, rfl⟩ := hstep
      split at hresult
      · by_cases ho : o = .center
        · subst ho
          exact h.actCenter fun hrole =>
            dispatchPeer_center inv.center_kind hresult hrole (n.settings .center)
        · exact h.actForwarder ho _
      · cases hresult
  | tick dtMs =>
      simp only [HookedNode.step, Option.some.injEq] at hstep
      subst hstep
      refine h.actCenter fun hrole => ?_
      rcases inv.center_kind with ⟨state, hstate⟩ | ⟨state, hstate⟩
      · rw [hstate] at hrole
        cases hrole
      · rw [hstate] at hrole ⊢
        exact ⟨hrole, rfl⟩

end HookedNode

/-! ## The network with its settings -/

namespace Mesh

variable {ι : Type*}

/-- The board that a step lets act, and its calls. -/
def calls (t : Mesh ι) : MeshLabel ι → Option (Port ι × List RtAction)
  | .sibl p => ((t.nodes p.1).siblResult p.2).map fun r => (p, r.2.1)
  | .peer p ev => ((t.nodes p.1).peerResult p.2 ev).map fun r => (p, r.2)
  | .tick i dtMs => some ((i, .center), (rtOnTick (t.role (i, .center)) dtMs).2)
  | .connect _ _ _ => none
  | .disconnect _ _ => none
  | .lose _ _ => none

variable [DecidableEq ι]

/-- The network settings of the boards after a step. -/
def settingsAfter (t : Mesh ι) (l : MeshLabel ι) (settings : Port ι → Network) :
    Port ι → Network :=
  match t.calls l with
  | some (p, actions) =>
      Function.update settings p (actions.foldl RtAction.settings (settings p))
  | none => settings

end Mesh

def hookedMesh (ι : Type*) [DecidableEq ι] : Machine (Mesh ι × (Port ι → Network)) (MeshLabel ι) :=
  (meshMachine ι).recording Mesh.settingsAfter

/-- All boards after `app_main`. -/
def startHooked {ι : Type*} [DecidableEq ι] (root : ι) (network : Network) :
    Mesh ι × (Port ι → Network) :=
  (Mesh.start root network, fun p => if p = (root, .center) then network else defaultSettings)

namespace Mesh

variable {ι : Type*}

/-- Node `i` with the settings of its boards. -/
def hooked (t : Mesh ι) (settings : Port ι → Network) (i : ι) : HookedNode :=
  ⟨t.nodes i, fun o => settings (i, o)⟩

/-- The board to which the hook of board `p`, or its link, takes the packet. -/
def boardHop (t : Mesh ι) (settings : Port ι → Network) (device : Port ι → Device)
    (src dst : BitVec 32) (p : Port ι) : Option (Port ι) :=
  match (t.hooked settings p.1).nodeDoRouting (fun o => device (p.1, o)) src dst p.2 with
  | some .spi => some (p.1, p.2.next)
  | some .wifi => if p.2 = .center then none else t.link p
  | none => none

variable [DecidableEq ι] {root : ι} {network : Network} {s s' : Mesh ι × (Port ι → Network)}

theorem settings_update_self (settings : Port ι → Network) (i : ι) (o : Orientation)
    (network : Network) :
    (fun o' => Function.update settings (i, o) network (i, o')) =
      Function.update (fun o' => settings (i, o')) o network := by
  funext o'
  by_cases ho : o' = o
  · subst ho
    simp
  · have hne : (i, o') ≠ (i, o) := fun h => ho (Prod.mk.inj h).2
    rw [Function.update_of_ne hne, Function.update_of_ne ho]

theorem settings_update_of_ne (settings : Port ι → Network) {i : ι} {p : Port ι} (h : i ≠ p.1)
    (network : Network) :
    (fun o => Function.update settings p network (i, o)) = fun o => settings (i, o) := by
  funext o
  have hne : (i, o) ≠ p := fun heq => h (congrArg Prod.fst heq)
  rw [Function.update_of_ne hne]

theorem hooked_act (t : Mesh ι) {u : Mesh ι} (settings : Port ι → Network) (p : Port ι) (n : Node)
    (result : RtRole × List RtAction)
    (hnodes : u.nodes = Function.update t.nodes p.1 (n.act p.2 result)) (i : ι) :
    u.hooked (Function.update settings p (result.2.foldl RtAction.settings (settings p))) i =
      if i = p.1 then
        ({ node := n, settings := fun o => settings (i, o) } : HookedNode).act p.2 result
      else t.hooked settings i := by
  obtain ⟨j, o⟩ := p
  by_cases hij : i = j
  · subst hij
    rw [if_pos rfl, Mesh.hooked, hnodes, settings_update_self, Function.update_self]
    rfl
  · rw [if_neg hij, Mesh.hooked, hnodes, settings_update_of_ne _ hij, Function.update_of_ne hij]
    rfl

/-- A step of the network is a step of a hooked node or leaves it alone. -/
theorem hooked_step {l : MeshLabel ι} (hs : (hookedMesh ι).step s l = some s') (i : ι) :
    s'.1.hooked s'.2 i = s.1.hooked s.2 i ∨
      ∃ l', hookedMachine.step (s.1.hooked s.2 i) l' = some (s'.1.hooked s'.2 i) := by
  obtain ⟨t, settings⟩ := s
  obtain ⟨u, settings'⟩ := s'
  obtain ⟨hstep, hsettings⟩ := Machine.recording_step.mp hs
  change t.step l = some u at hstep
  change settings' = t.settingsAfter l settings at hsettings
  subst hsettings
  cases l with
  | connect p q connection =>
      obtain ⟨-, -, -, rfl⟩ := step_connect hstep
      exact .inl rfl
  | disconnect p connection =>
      obtain ⟨q, -, rfl⟩ := step_disconnect hstep
      exact .inl rfl
  | lose p ev =>
      obtain ⟨-, -, rfl⟩ := step_lose hstep
      exact .inl rfl
  | sibl p =>
      obtain ⟨ev, rest, result, hin, hd, rfl⟩ := step_sibl hstep
      have hresult : (t.nodes p.1).siblResult p.2 = some (result.1, result.2, rest) := by
        change (t.nodes p.1).inbox p.2 = ev :: rest at hin
        change dispatchSibl p.2 ((t.nodes p.1).roles p.2) ev = some result at hd
        simp [Node.siblResult, hin, hd]
      have hcalls : t.calls (.sibl p) = some (p, result.2) := by simp [calls, hresult]
      have hhooked := hooked_act t settings p ((t.nodes p.1).pop p.2 rest) result
        (u := (t.record p.1 ((t.role p).startsWith ev)).act p
          (((t.nodes p.1).pop p.2 rest).act p.2 result) result.2)
        (by simp [act]) i
      simp only [settingsAfter, hcalls]
      rw [hhooked]
      by_cases hi : i = p.1
      · subst hi
        refine .inr ⟨.sibl p.2, ?_⟩
        rw [if_pos rfl]
        change (((t.nodes p.1).siblResult p.2).map _) = _
        rw [hresult]
        rfl
      · rw [if_neg hi]
        exact .inl rfl
  | peer p ev =>
      obtain ⟨-, hin, result, hd, rfl⟩ := step_peer hstep
      have hresult : (t.nodes p.1).peerResult p.2 ev = some result := by
        change (t.nodes p.1).inbox p.2 = [] at hin
        change dispatchPeer p.2 ((t.nodes p.1).roles p.2) ev = some result at hd
        simp [Node.peerResult, hin, hd]
      have hcalls : t.calls (.peer p ev) = some (p, result.2) := by simp [calls, hresult]
      have hhooked := hooked_act t settings p (t.nodes p.1) result
        (u := ((t.take p ev).record p.1 ((t.role p).provisionedBy ev)).act p
          ((t.nodes p.1).act p.2 result) result.2)
        (by simp [act, Mesh.take]) i
      simp only [settingsAfter, hcalls]
      rw [hhooked]
      by_cases hi : i = p.1
      · subst hi
        refine .inr ⟨.peer p.2 ev, ?_⟩
        rw [if_pos rfl]
        change (((t.nodes p.1).peerResult p.2 ev).map _) = _
        rw [hresult]
        rfl
      · rw [if_neg hi]
        exact .inl rfl
  | tick j dtMs =>
      cases hstep
      have hhooked := hooked_act t settings (j, .center) (t.nodes j)
        (rtOnTick (t.role (j, .center)) dtMs)
        (u := t.act (j, .center) ((t.nodes j).act .center (rtOnTick (t.role (j, .center)) dtMs))
          (rtOnTick (t.role (j, .center)) dtMs).2) rfl i
      simp only [settingsAfter, calls]
      rw [hhooked]
      by_cases hi : i = j
      · subst hi
        refine .inr ⟨.tick dtMs, ?_⟩
        rw [if_pos rfl]
        rfl
      · rw [if_neg hi]
        exact .inl rfl

/-- The invariants of node `i` with its settings. -/
structure HookedInv (root : ι) (network : Network) (i : ι) (s : Mesh ι × (Port ι → Network)) :
    Prop where
  inv : (s.1.hooked s.2 i).Inv (if i = root then some network else none)
  unset : (s.1.hooked s.2 i).Unset

theorem HookedInv.start (root : ι) (network : Network) (i : ι) :
    HookedInv root network i (startHooked root network) := by
  by_cases hi : i = root
  · subst hi
    have hstart : (startHooked i network).1.hooked (startHooked i network).2 i =
        HookedNode.startRoot network := by
      rw [Mesh.hooked, HookedNode.startRoot, HookedNode.mk.injEq]
      refine ⟨start_nodes_root i network, funext fun o => ?_⟩
      cases o <;> simp [startHooked]
    constructor
    · rw [hstart, if_pos rfl]
      exact HookedNode.startRoot_inv network
    · rw [hstart]
      exact fun h => by cases h
  · have hstart : (startHooked root network).1.hooked (startHooked root network).2 i =
        HookedNode.startHome := by
      rw [Mesh.hooked, HookedNode.startHome, HookedNode.mk.injEq]
      refine ⟨start_nodes_of_ne network hi, funext fun o => ?_⟩
      simp [startHooked, hi]
    constructor
    · rw [hstart, if_neg hi]
      exact HookedNode.startHome_inv
    · rw [hstart]
      exact fun _ => rfl

theorem HookedInv.step {i : ι} (h : HookedInv root network i s) {l : MeshLabel ι}
    (hs : (hookedMesh ι).step s l = some s') : HookedInv root network i s' := by
  rcases hooked_step hs i with hsame | ⟨l', hl'⟩
  · constructor
    · rw [hsame]
      exact h.inv
    · rw [hsame]
      exact h.unset
  · exact ⟨h.inv.step hl', h.unset.step h.inv hl'⟩

/-- Every node of a reachable network has the invariants of a hooked node. -/
theorem HookedInv.run {guard : Mesh ι × (Port ι → Network) → MeshLabel ι → Prop}
    (run : (hookedMesh ι).Executes guard (startHooked root network) s) (i : ι) :
    HookedInv root network i s :=
  run.invariant (HookedInv.start root network i) fun _ _ _ h _ hs => h.step hs

/-! ## The decisions of a node -/

/-- No board has a link with the address. -/
def NoLink (s : Mesh ι × (Port ι → Network)) (device : Port ι → Device) (dst : BitVec 32) : Prop :=
  ∀ i, ¬ (s.1.hooked s.2 i).InLink (fun o => device (i, o)) dst

section Decisions

variable {device : Port ι → Device} {dst : BitVec 32} {i j d : ι}

theorem home_settings (tree : Tree root network s.1) (hooked : HookedInv root network i s)
    (hhome : s.1.role (i, .center) = .home ⟨true⟩) :
    ∃ N, s.1.network i = some N ∧ s.2 (i, .center) = getNodeSubnet N .center := by
  obtain ⟨N, hN, hmem⟩ := tree.routes.home i hhome
  refine ⟨N, hN, ?_⟩
  rcases hooked.inv.entries _ hmem with ⟨o, hne, ho⟩ | ⟨-, heq⟩
  · exact absurd (Orientation.output_injective ho).symm hne
  · obtain ⟨haddr, hmask, -⟩ := RtRoutingEntry.mk.inj heq
    exact (congr (congrArg Network.mk haddr) hmask).symm

theorem ne_zero_of_home (tree : Tree root network s.1) (short : s.1.ShortPrefixes)
    (proper : ProperNetwork network.addr network.mask) (hhome : s.1.AtHome dst d) : dst ≠ 0 := by
  obtain ⟨-, N, hN, hdst⟩ := hhome
  obtain ⟨k, q, hplan⟩ := tree.prov.plan short proper hN
  rintro rfl
  have hblock := hplan.subnet_contains.mp hdst
  simp [Prefix.block, Orientation.val] at hblock

/-- The center board of a node that has another node for the address passes it on. -/
theorem center_passes (src : BitVec 32) (tree : Tree root network s.1) (short : s.1.ShortPrefixes)
    (proper : ProperNetwork network.addr network.mask) (hooked : HookedInv root network i s)
    (nolink : NoLink s device dst) (hhome : s.1.AtHome dst d) (hhop : s.1.hop dst i = some j) :
    (s.1.hooked s.2 i).nodeDoRouting (fun o => device (i, o)) src dst .center ≠ some .wifi := by
  have hroute : s.1.route dst i ≠ Orientation.center.output := by
    intro hcenter
    rw [hop_center hcenter] at hhop
    cases hhop
  rcases hooked.inv.center with ⟨state, hrole, hroot⟩ | ⟨⟨prov⟩, hrole, -⟩
  · -- the root: the address is in the network that the tree hands out
    have hi : i = root := by
      by_contra hne
      rw [if_neg hne] at hroot
      cases hroot
    subst hi
    rw [if_pos rfl] at hroot
    have hsettings : s.2 (i, .center) = network := (Option.some.inj hroot).symm
    have hgateway := tree.uplinks.ends i (.inl rfl)
    have hcovered : ∃ e ∈ s.1.routes i, e.covers dst = true := by
      by_contra hnone
      exact hroute ((route_default (by simpa using hnone)).trans hgateway)
    obtain ⟨e, he, hcov⟩ := hcovered
    have started : s.1.network i ≠ none := by
      obtain ⟨-, N, hN, -⟩ := hhome
      exact tree.prov.rootStarted (p := (d, .center)) (by simp [hN])
    obtain ⟨N, hN, hin⟩ := tree.mem_block short proper started he hcov
    obtain rfl := tree.prov.rootNetwork N hN
    have hpass : (s.2 (i, .center)).Contains dst := hsettings ▸ hin
    rw [HookedNode.nodeDoRouting_root (nolink i) hrole]
    simp [Mesh.hooked, hpass]
  · rw [HookedNode.nodeDoRouting_home hrole]
    have hout : ¬ (s.2 (i, .center)).Contains dst := by
      intro hin
      cases prov with
      | true =>
          obtain ⟨N, hN, hsettings⟩ := home_settings tree hooked hrole
          exact hroute (tree.route_home ⟨hrole, N, hN, hsettings ▸ hin⟩)
      | false =>
          have hsettings : s.2 (i, .center) = defaultSettings := hooked.unset hrole
          rw [hsettings] at hin
          refine ne_zero_of_home tree short proper hhome ?_
          have hzero : dst &&& BitVec.allOnes 32 = 0 := hin
          rwa [BitVec.and_allOnes] at hzero
    simp [Mesh.hooked, hout]

theorem center_keeps (device : Port ι → Device) (src : BitVec 32)
    (tree : Tree root network s.1) (hooked : HookedInv root network d s)
    (hhome : s.1.AtHome dst d) :
    (s.1.hooked s.2 d).nodeDoRouting (fun o => device (d, o)) src dst .center = some .wifi := by
  obtain ⟨hrole, N, hN, hdst⟩ := hhome
  obtain ⟨N', hN', hsettings⟩ := home_settings tree hooked hrole
  rw [hN] at hN'
  cases hN'
  rw [HookedNode.nodeDoRouting_home hrole]
  simp [Mesh.hooked, hsettings, hdst]

end Decisions

/-! ## The walk over the boards -/

section Walk

variable {device : Port ι → Device} {dst : BitVec 32} {i j d : ι}

omit [DecidableEq ι] in
/-- Round the ring to the board that keeps the packet. -/
theorem boardHop_leaves {t : Mesh ι} {settings : Port ι → Network} {src : BitVec 32}
    {decisions : Nat} {entry o : Orientation}
    (h : leavesAt ((t.hooked settings i).nodeDoRouting (fun o => device (i, o)) src dst)
      decisions entry = some o) :
    Reaches (t.boardHop settings device src dst) (i, entry) (i, o) ∧
      (t.hooked settings i).nodeDoRouting (fun o => device (i, o)) src dst o = some .wifi := by
  induction decisions generalizing entry with
  | zero => cases h
  | succ decisions ih =>
      rw [leavesAt] at h
      split at h
      · next hwifi =>
        cases h
        exact ⟨.refl, hwifi⟩
      · next hspi =>
        obtain ⟨hreach, hwifi⟩ := ih h
        refine ⟨.head ?_ hreach, hwifi⟩
        simp [boardHop, hspi]
      · cases h

/-- A node whose center board passes the address on sends it to the node of its next hop, from
whichever board it comes in. -/
theorem boardHop_hop (hooked : HookedInv root network i s) (nolink : NoLink s device dst)
    {src : BitVec 32}
    (hpasses : (s.1.hooked s.2 i).nodeDoRouting (fun o => device (i, o)) src dst .center ≠
      some .wifi)
    (hhop : s.1.hop dst i = some j) (entry : Orientation) :
    ∃ b, Reaches (s.1.boardHop s.2 device src dst) (i, entry) (j, b) := by
  have hroute : s.1.route dst i ≠ Orientation.center.output := by
    intro hcenter
    rw [hop_center hcenter] at hhop
    cases hhop
  have hleaves : (s.1.hooked s.2 i).Leaves (fun o => device (i, o)) src dst :=
    (hooked.inv.leaves_iff (nolink i)).mpr (iff_of_false hpasses hroute)
  obtain ⟨o, hat, ho⟩ := hleaves entry
  have hcenter : o ≠ .center := by
    rintro rfl
    exact hroute ho
  obtain ⟨hreach, hwifi⟩ := boardHop_leaves hat
  have hroute' : s.1.route dst i = o.output := ho
  -- the link of the board that keeps the packet
  cases hlink : s.1.link (i, o) with
  | none =>
      have hnone : s.1.hop dst i = none := by
        unfold hop
        rw [hroute', Orientation.ofOutput_output]
        cases o <;> simp [hlink]
      rw [hnone] at hhop
      cases hhop
  | some q =>
      have hq := hop_link hcenter hroute' hlink
      rw [hhop] at hq
      cases hq
      refine ⟨q.2, hreach.tail ?_⟩
      simp [boardHop, hwifi, hcenter, hlink]

theorem boardHop_center (hooked : HookedInv root network i s) (nolink : NoLink s device dst)
    {src : BitVec 32}
    (hkeeps : (s.1.hooked s.2 i).nodeDoRouting (fun o => device (i, o)) src dst .center =
      some .wifi)
    (hroute : s.1.route dst i = Orientation.center.output) (entry : Orientation) :
    Reaches (s.1.boardHop s.2 device src dst) (i, entry) (i, .center) := by
  have hleaves : (s.1.hooked s.2 i).Leaves (fun o => device (i, o)) src dst :=
    (hooked.inv.leaves_iff (nolink i)).mpr (iff_of_true hkeeps hroute)
  obtain ⟨o, hat, ho⟩ := hleaves entry
  obtain rfl : o = .center := Orientation.output_injective (ho.symm.trans hroute)
  exact (boardHop_leaves hat).1

/-- The walk over the boards follows the walk over the nodes to its end at a center board. -/
theorem boardHop_follows (hooked : ∀ i, HookedInv root network i s)
    (nolink : NoLink s device dst) {src : BitVec 32}
    (passes : ∀ i j, s.1.hop dst i = some j →
      (s.1.hooked s.2 i).nodeDoRouting (fun o => device (i, o)) src dst .center ≠ some .wifi)
    (keeps : (s.1.hooked s.2 d).nodeDoRouting (fun o => device (d, o)) src dst .center =
      some .wifi)
    (hroute : s.1.route dst d = Orientation.center.output) (hreach : Reaches (s.1.hop dst) i d)
    (entry : Orientation) :
    Reaches (s.1.boardHop s.2 device src dst) (i, entry) (d, .center) := by
  induction hreach using ReflTransGen.head_induction_on generalizing entry with
  | refl => exact boardHop_center (hooked d) nolink keeps hroute entry
  | head hhop _ ih =>
      obtain ⟨b, hb⟩ := boardHop_hop (hooked _) nolink (passes _ _ hhop) hhop entry
      exact hb.trans (ih b)

omit [DecidableEq ι] in
theorem boardHop_only {t : Mesh ι} {settings : Port ι → Network} {src : BitVec 32} {p : Port ι}
    (hreach : Reaches (t.boardHop settings device src dst) p (d, .center))
    (keeps : (t.hooked settings d).nodeDoRouting (fun o => device (d, o)) src dst .center =
      some .wifi) (q : Port ι) (hq : Reaches (t.boardHop settings device src dst) p q)
    (hnone : t.boardHop settings device src dst q = none) : q = (d, .center) := by
  have hlast : t.boardHop settings device src dst (d, .center) = none := by
    simp [boardHop, keeps]
  have hend : (d, Orientation.center) ∈ eval (t.boardHop settings device src dst) p :=
    mem_eval.mpr ⟨hreach, hlast⟩
  exact Part.mem_unique (mem_eval.mpr ⟨hq, hnone⟩) hend

end Walk

end Mesh

/-! ## Delivery -/

/-- In a finished tree, an address of a home subnet that is no address of a link is delivered from
every board of every provisioned node: board by board the hooks and the links take it to the center
board of the node with the subnet, which sends it to the house, and it is kept nowhere else. -/
theorem mesh_boardsDeliver {ι : Type*} [DecidableEq ι] {root : ι} {network : Network}
    {s : Mesh ι × (Port ι → Network)} (proper : ProperNetwork network.addr network.mask)
    (run : (hookedMesh ι).Executes (fun s l => s.1.grows root l = true)
      (startHooked root network) s)
    (short : s.1.ShortPrefixes) (settled : s.1.pending = []) {device : Port ι → Device}
    {src dst : BitVec 32} (nolink : Mesh.NoLink s device dst) {d a : ι}
    (home : s.1.AtHome dst d) (ha : s.1.network a ≠ none) (entry : Orientation) :
    Reaches (s.1.boardHop s.2 device src dst) (a, entry) (d, .center) ∧
      (s.1.hooked s.2 d).nodeDoRouting (fun o => device (d, o)) src dst .center = some .wifi ∧
      ∀ p, Reaches (s.1.boardHop s.2 device src dst) (a, entry) p →
        s.1.boardHop s.2 device src dst p = none → p = (d, .center) := by
  have hrun : (meshMachine ι).Executes (fun t l => t.grows root l = true)
      (Mesh.start root network) s.1 :=
    Machine.Executes.forget (M := meshMachine ι) (s := startHooked root network) run
  have tree := Mesh.Tree.run proper hrun short
  have hooked := Mesh.HookedInv.run run
  have hkeeps := Mesh.center_keeps device src tree (hooked d) home
  have hreach := Mesh.boardHop_follows hooked nolink
    (fun i j hhop => Mesh.center_passes src tree short proper (hooked i) nolink home hhop) hkeeps
    (tree.route_home home) (tree.delivers short proper settled home ha).reaches entry
  exact ⟨hreach, hkeeps, Mesh.boardHop_only hreach hkeeps⟩

/-- The root's node of the pair. -/
def pairRoot : Fin 2 := ⟨0, Nat.zero_lt_two⟩

theorem growPairHooked_runs :
    ((hookedMesh (Fin 2)).runWith (fun s l => s.1.grows pairRoot l)
      (startHooked pairRoot rootNetwork) growPair).isSome = true := by decide

def grownPairHooked : Mesh (Fin 2) × (Port (Fin 2) → Network) :=
  ((hookedMesh (Fin 2)).runWith (fun s l => s.1.grows pairRoot l)
    (startHooked pairRoot rootNetwork) growPair).get growPairHooked_runs

theorem grownPairHooked_run :
    (hookedMesh (Fin 2)).Executes (fun s l => s.1.grows pairRoot l = true)
      (startHooked pairRoot rootNetwork) grownPairHooked :=
  Machine.executes_of_runWith (Option.some_get growPairHooked_runs).symm

theorem grownPairHooked_short : grownPairHooked.1.ShortPrefixes := by
  have hall : ∀ i,
      (grownPairHooked.1.network i).all (fun network => maskSize network.mask ≤ 28) = true := by
    decide
  intro i network hi
  have hsome := hall i
  rw [hi] at hsome
  simpa using hsome

/-- The links of the two nodes. -/
def pairDevices (p : Port (Fin 2)) : Device :=
  ⟨.accessPoint, ⟨if p = (pairRoot, .north) then 0x0a200000 else 0x0afffffc, 0xfffffffc⟩,
    Network.zero⟩

/-- From the root's west board to the house of node 1. -/
theorem mesh_boardsDeliver_pair :
    Reaches (grownPairHooked.1.boardHop grownPairHooked.2 pairDevices 0x08080808 0x0a340001)
        (0, .west) (1, .center) ∧
      (grownPairHooked.1.hooked grownPairHooked.2 1).nodeDoRouting (fun o => pairDevices (1, o))
        0x08080808 0x0a340001 .center = some .wifi ∧
      ∀ p, Reaches (grownPairHooked.1.boardHop grownPairHooked.2 pairDevices 0x08080808 0x0a340001)
          (0, .west) p →
        grownPairHooked.1.boardHop grownPairHooked.2 pairDevices 0x08080808 0x0a340001 p = none →
          p = (1, .center) :=
  mesh_boardsDeliver rootNetwork_proper grownPairHooked_run grownPairHooked_short (by decide)
    (by
      rintro i ⟨o, -, hlink⟩
      revert hlink
      revert i
      cases o <;> decide)
    ⟨by decide, ⟨0x0a200000, 0xffe00000⟩, by decide, by decide⟩ (by decide) .west

/-! ## The way out -/

namespace Mesh

variable {ι : Type*} [DecidableEq ι] {root : ι} {network : Network}
  {s : Mesh ι × (Port ι → Network)} {device : Port ι → Device} {dst : BitVec 32} {i j : ι}

theorem not_covered_outside (tree : Tree root network s.1) (short : s.1.ShortPrefixes)
    (proper : ProperNetwork network.addr network.mask) (hout : ¬ network.Contains dst)
    (hi : s.1.network i ≠ none) : ¬ ∃ N, s.1.network i = some N ∧ N.Contains dst := by
  have started : s.1.network root ≠ none := tree.prov.rootStarted (p := (i, .center)) hi
  intro hmem
  have hblock : dst ∈ (tree.delegates short proper started).block i := hmem
  have habove : (tree.delegates short proper started).Above root i := Delegation.root_above hi
  obtain ⟨N, hN, hin⟩ := Delegation.block_mono habove hblock
  obtain rfl := tree.prov.rootNetwork N hN
  exact hout hin

theorem no_entry_outside (tree : Tree root network s.1) (short : s.1.ShortPrefixes)
    (proper : ProperNetwork network.addr network.mask) (hout : ¬ network.Contains dst) (i : ι) :
    ∀ e ∈ s.1.routes i, ¬ e.covers dst = true := by
  intro e he hcov
  obtain ⟨M, o, hM, -⟩ := tree.entry_eq he
  have hi : s.1.network i ≠ none := by simp [hM]
  have started : s.1.network root ≠ none := tree.prov.rootStarted (p := (i, .center)) hi
  exact not_covered_outside tree short proper hout hi (tree.mem_block short proper started he hcov)

/-- By the default gateways to the root. -/
theorem climbs (tree : Tree root network s.1)
    (hnone : ∀ i, ∀ e ∈ s.1.routes i, ¬ e.covers dst = true) (hi : s.1.network i ≠ none) :
    Reaches (s.1.hop dst) i root := by
  induction hr : s.1.rank i using Nat.strong_induction_on generalizing i with
  | _ r ih =>
      by_cases hroot : i = root
      · rw [hroot]
        exact .refl
      · obtain ⟨p, hserved, hhop⟩ := tree.hop_up (hnone i) hroot hi
        obtain ⟨N, hN⟩ := Option.ne_none_iff_exists'.mp hi
        obtain ⟨M, hM, -, hlt⟩ := tree.subnet hserved hN
        have hparent := ih (s.1.rank p.1) (by rw [← hr]; exact hlt) (by simp [hM]) rfl
        exact .head hhop hparent

/-- No home board keeps a packet that leaves the network. -/
theorem home_passes_outside (src : BitVec 32) (tree : Tree root network s.1)
    (short : s.1.ShortPrefixes) (proper : ProperNetwork network.addr network.mask)
    (hooked : HookedInv root network i s) (hout : ¬ network.Contains dst) (hzero : dst ≠ 0)
    (hhop : s.1.hop dst i = some j) :
    (s.1.hooked s.2 i).nodeDoRouting (fun o => device (i, o)) src dst .center ≠ some .wifi := by
  have hnone := no_entry_outside tree short proper hout i
  rcases hooked.inv.center with ⟨state, hrole, hroot⟩ | ⟨⟨prov⟩, hrole, -⟩
  · have hi : i = root := by
      by_contra hne
      rw [if_neg hne] at hroot
      cases hroot
    rw [tree.hop_end hnone (.inl hi)] at hhop
    cases hhop
  · rw [HookedNode.nodeDoRouting_home hrole]
    have hpass : ¬ (s.2 (i, .center)).Contains dst := by
      intro hin
      cases prov with
      | true =>
          obtain ⟨N, hN, hsettings⟩ := home_settings tree hooked hrole
          obtain ⟨k, q, hplan⟩ := tree.prov.plan short proper hN
          have hnet : N.Contains dst := hplan.contains_of_subnet (hsettings ▸ hin)
          exact not_covered_outside tree short proper hout (by simp [hN]) ⟨N, hN, hnet⟩
      | false =>
          have hsettings : s.2 (i, .center) = defaultSettings := hooked.unset hrole
          rw [hsettings] at hin
          have heq : dst &&& BitVec.allOnes 32 = 0 := hin
          rw [BitVec.and_allOnes] at heq
          exact hzero heq
    simp [Mesh.hooked, hpass]

theorem root_keeps_outside (src : BitVec 32) (hooked : HookedInv root network root s)
    (nolink : NoLink s device dst) (hout : ¬ network.Contains dst) :
    (s.1.hooked s.2 root).nodeDoRouting (fun o => device (root, o)) src dst .center =
      some .wifi := by
  have hcenter := hooked.inv.center
  rw [if_pos rfl] at hcenter
  rcases hcenter with ⟨state, hrole, hsettings⟩ | ⟨-, -, hhome, -⟩
  · have hpass : ¬ ((s.1.hooked s.2 root).settings .center).Contains dst := by
      rwa [← Option.some.inj hsettings]
    rw [HookedNode.nodeDoRouting_root (nolink root) hrole, if_neg hpass]
  · cases hhome

end Mesh

/-- In a growing tree at any time, an address outside the root's network that is no address of a
link finds the uplink from every board of every provisioned node: the hooks and the links take it to
the center board of the root, which gives it to its WiFi interface, an access point, and it is kept
nowhere else. -/
theorem mesh_boardsEgress {ι : Type*} [DecidableEq ι] {root : ι} {network : Network}
    {s : Mesh ι × (Port ι → Network)} (proper : ProperNetwork network.addr network.mask)
    (run : (hookedMesh ι).Executes (fun s l => s.1.grows root l = true)
      (startHooked root network) s)
    (short : s.1.ShortPrefixes) {device : Port ι → Device} {src dst : BitVec 32}
    (nolink : Mesh.NoLink s device dst) (outside : ¬ network.Contains dst) (zero : dst ≠ 0) {a : ι}
    (ha : s.1.network a ≠ none) (entry : Orientation) :
    Reaches (s.1.boardHop s.2 device src dst) (a, entry) (root, .center) ∧
      (s.1.hooked s.2 root).nodeDoRouting (fun o => device (root, o)) src dst .center =
        some .wifi ∧
      ∀ p, Reaches (s.1.boardHop s.2 device src dst) (a, entry) p →
        s.1.boardHop s.2 device src dst p = none → p = (root, .center) := by
  have hrun : (meshMachine ι).Executes (fun t l => t.grows root l = true)
      (Mesh.start root network) s.1 :=
    Machine.Executes.forget (M := meshMachine ι) (s := startHooked root network) run
  have tree := Mesh.Tree.run proper hrun short
  have hooked := Mesh.HookedInv.run run
  have hnone := Mesh.no_entry_outside tree short proper outside
  have hkeeps := Mesh.root_keeps_outside src (hooked root) nolink outside
  have hroute : s.1.route dst root = Orientation.center.output :=
    (Mesh.route_default (hnone root)).trans (tree.uplinks.ends root (.inl rfl))
  have hreach := Mesh.boardHop_follows hooked nolink
    (fun i j hhop => Mesh.home_passes_outside src tree short proper (hooked i) outside zero hhop)
    hkeeps hroute (Mesh.climbs tree hnone ha) entry
  exact ⟨hreach, hkeeps, Mesh.boardHop_only hreach hkeeps⟩

/-- From node 1's north board to the root's uplink. -/
theorem mesh_boardsEgress_pair :
    Reaches (grownPairHooked.1.boardHop grownPairHooked.2 pairDevices 0x0a340001 0x08080808)
        (1, .north) (pairRoot, .center) ∧
      (grownPairHooked.1.hooked grownPairHooked.2 pairRoot).nodeDoRouting
        (fun o => pairDevices (pairRoot, o)) 0x0a340001 0x08080808 .center = some .wifi ∧
      ∀ p, Reaches (grownPairHooked.1.boardHop grownPairHooked.2 pairDevices 0x0a340001 0x08080808)
          (1, .north) p →
        grownPairHooked.1.boardHop grownPairHooked.2 pairDevices 0x0a340001 0x08080808 p = none →
          p = (pairRoot, .center) :=
  mesh_boardsEgress rootNetwork_proper grownPairHooked_run grownPairHooked_short
    (by
      rintro i ⟨o, -, hlink⟩
      revert hlink
      revert i
      cases o <;> decide)
    (by decide) (by decide) (by decide) .north

end I4A
