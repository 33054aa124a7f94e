import I4A.Mesh.Model

/-! # Distance one

Three handlers take `dtr == 1` for "I am root". Whether a board outside the
root's node gets there is decided where the distance is stored: by a
provisioning handshake, which copies the provider's distance and broadcasts it
in 16 bits, and by an accepted gateway response.
-/

namespace I4A

open Forwarder

/-- A forwarder that acts on the event has distance 1 afterwards. -/
def RtSiblEvent.placesAtOne : RtSiblEvent → Bool
  | .updateDtr event => event.dtr = 1
  | .provision event => event.dtr = 1
  | .newGatewayWinner event => event.dtr + 1 = 1
  | _ => false

/-- The peer event leaves its board at distance 1, or its broadcast does so to the siblings. -/
def Forwarder.Peer.placesAtOne (state : RtForwarderState) : RtPeerEvent → Bool
  | .handshake event =>
      state.globalState = .withoutNetwork ∧
        (event.dtr = 1 ∨ (event.dtr + 1).setWidth 16 = (1 : BitVec 16))
  | .newGatewayResponse event =>
      ¬ (state.dtr ≠ 0 ∧ state.dtr ≤ event.dtr) ∧
        (event.dtr + 1 = 1 ∨ event.dtr + 1 + 1 = 1)
  | _ => false

/-- Outside the root's node, the step places nobody at distance 1. -/
def Mesh.keepsDistance {ι : Type*} [DecidableEq ι] (root : ι) (t : Mesh ι) :
    MeshLabel ι → Bool
  | .peer p ev =>
      match t.role p with
      | .forwarder state => p.1 = root || !Peer.placesAtOne state ev
      | _ => true
  | _ => true

/-- A node other than the root's, none of whose forwarders has distance 1 or is about to. -/
structure Node.Away (n : Node) : Prop where
  home : ∃ state, n.roles .center = .home state
  forwarder : ∀ o, o ≠ .center → ∃ state, n.roles o = .forwarder state ∧ state.dtr ≠ 1
  stored : ∀ o, ∀ ev ∈ n.inbox o, ev.placesAtOne = false

/-! ## One event -/

private theorem zero_ne_one_dtr : (0 : BitVec 32) ≠ 1 := by decide

theorem Forwarder.hear_away {self : Orientation} {state : RtForwarderState} {ev : RtSiblEvent}
    (hdtr : state.dtr ≠ 1) (hev : ev.placesAtOne = false) : (hear self state ev).dtr ≠ 1 := by
  cases ev with
  | updateDtr event =>
      rw [hear_updateDtr]
      split
      · exact hdtr
      · simpa [RtSiblEvent.placesAtOne] using hev
  | provision event =>
      by_cases hwith : state.globalState = .withNetwork
      · rw [hear_provision_withNetwork hwith]
        exact hdtr
      · rw [hear, Sibling.onProvision, if_neg hwith]
        have hone : event.dtr ≠ 1 := by simpa [RtSiblEvent.placesAtOne] using hev
        intro hwide
        change event.dtr.setWidth 32 = 1 at hwide
        apply hone
        bv_omega
  | sendNewGatewayRequest event =>
      rcases hear_sendNewGatewayRequest self state event with h | h
      · rw [h]
        exact hdtr
      · rw [h]
        exact zero_ne_one_dtr
  | newGatewayWinner event =>
      rw [hear_newGatewayWinner, if_neg hdtr]
      simpa [RtSiblEvent.placesAtOne] using hev
  | _ => exact hdtr

/-- A forwarder after a peer event, and what its siblings will hear. -/
theorem Forwarder.peer_away {self : Orientation} {state : RtForwarderState} {ev : RtPeerEvent}
    {role : RtRole} {actions : List RtAction}
    (hd : dispatchPeer self (.forwarder state) ev = some (role, actions))
    (hdtr : state.dtr ≠ 1) (hev : Peer.placesAtOne state ev = false) :
    (∃ state', role = .forwarder state' ∧ state'.dtr ≠ 1) ∧
      ∀ e ∈ siblEvents actions, e.placesAtOne = false := by
  cases ev with
  | handshake event =>
      cases hd
      by_cases hwithout : state.globalState = .withoutNetwork
      · simp only [Peer.placesAtOne, hwithout, true_and, decide_eq_false_iff_not, not_or] at hev
        rw [Peer.onHandshake_fresh hwithout]
        refine ⟨⟨_, rfl, hev.1⟩, fun e he => ?_⟩
        simp only [siblEvents_cons, siblEvents_nil, RtAction.siblEvent, Option.toList_none,
          Option.toList_some, List.nil_append, List.append_nil, List.mem_singleton] at he
        subst he
        exact decide_eq_false hev.2
      · rw [Peer.onHandshake_known hwithout]
        exact ⟨⟨_, rfl, hdtr⟩, by simp [RtAction.siblEvent]⟩
  | updateDtr event =>
      cases hd
      simp only [Peer.onUpdateDtr]
      by_cases hzero : event.dtr = 0
      · rw [if_pos hzero]
        exact ⟨⟨_, rfl, hdtr⟩, by simp⟩
      · rw [if_neg hzero]
        have hone : event.dtr + 1 ≠ 1 := by bv_omega
        split
        · refine ⟨⟨_, rfl, hone⟩, fun e he => ?_⟩
          simp only [siblEvents_cons, siblEvents_nil, RtAction.siblEvent, Option.toList_none,
            Option.toList_some, List.nil_append, List.append_nil, List.mem_singleton] at he
          subst he
          exact decide_eq_false hone
        · exact ⟨⟨_, rfl, hdtr⟩, by simp⟩
  | newGatewayRequest event =>
      cases hd
      simp only [Peer.onNewGatewayRequest, Peer.requestRoutes_eq]
      split
      · next hone => exact absurd hone hdtr
      · split
        · refine ⟨⟨_, rfl, hdtr⟩, ?_⟩
          split <;> simp
        · refine ⟨⟨_, rfl, zero_ne_one_dtr⟩, ?_⟩
          split <;> simp [RtAction.siblEvent, RtSiblEvent.placesAtOne]
  | newGatewayResponse event =>
      cases hd
      simp only [Peer.onNewGatewayResponse]
      by_cases hworse : state.dtr ≠ 0 ∧ state.dtr ≤ event.dtr
      · rw [if_pos hworse]
        exact ⟨⟨_, rfl, hdtr⟩, by simp⟩
      · rw [if_neg hworse]
        simp only [Peer.placesAtOne, hworse, not_false_iff, true_and, decide_eq_false_iff_not,
          not_or] at hev
        refine ⟨⟨_, rfl, hev.1⟩, fun e he => ?_⟩
        simp only [siblEvents_cons, siblEvents_nil, RtAction.siblEvent, Option.toList_none,
          Option.toList_some, List.nil_append, List.append_nil, List.mem_singleton] at he
        subst he
        exact decide_eq_false hev.2
  | connected connection =>
      cases hd
      exact ⟨⟨_, rfl, hdtr⟩, by simp [Peer.onPeerConnected, RtAction.siblEvent]⟩
  | lost connection =>
      cases hd
      simp only [Peer.onPeerLost]
      split
      · exact ⟨⟨_, rfl, zero_ne_one_dtr⟩, by simp [RtAction.siblEvent, RtSiblEvent.placesAtOne]⟩
      · exact ⟨⟨_, rfl, hdtr⟩, by simp [RtAction.siblEvent]⟩
  | unknown id => cases hd

/-! ## One node -/

namespace Node

variable {n u : Node} {o : Orientation}

theorem start_away : (start homeRoles).Away where
  home := ⟨createHomeCore, rfl⟩
  forwarder o ho := by
    refine ⟨createForwarderCore, ?_, by decide⟩
    cases o <;> first | rfl | exact absurd rfl ho
  stored o ev hev := by
    obtain rfl : ev = .onStart := by simpa [start] using hev
    rfl

theorem Away.kind (h : n.Away) (o : Orientation) :
    (∃ state, n.roles o = .home state) ∨
      ∃ state, n.roles o = .forwarder state ∧ state.dtr ≠ 1 := by
  by_cases ho : o = .center
  · subst ho
    exact .inl h.home
  · exact .inr (h.forwarder o ho)

/-- One board moves, the others store what it broadcast. -/
theorem Away.act (h : n.Away) {role : RtRole} {actions : List RtAction}
    (hrole : (∃ state, n.roles o = .home state ∧ ∃ state', role = .home state') ∨
      (o ≠ .center ∧ ∃ state, role = .forwarder state ∧ state.dtr ≠ 1))
    (hstored : ∀ e ∈ siblEvents actions, e.placesAtOne = false) :
    (n.act o (role, actions)).Away := by
  have hroles : ∀ o', o' ≠ o → (n.act o (role, actions)).roles o' = n.roles o' :=
    fun o' ho' => act_roles_of_ne _ ho' _
  refine ⟨?_, fun o' ho' => ?_, fun o' ev hev => ?_⟩
  · by_cases ho : .center = o
    · subst ho
      rw [act_roles_self]
      rcases hrole with ⟨-, -, state', rfl⟩ | ⟨hne, -⟩
      · exact ⟨state', rfl⟩
      · exact absurd rfl hne
    · rw [hroles _ ho]
      exact h.home
  · by_cases ho : o' = o
    · subst ho
      rw [act_roles_self]
      rcases hrole with ⟨state, hstate, -⟩ | ⟨-, hnew⟩
      · obtain ⟨old, hold, -⟩ := h.forwarder o' ho'
        rw [hstate] at hold
        cases hold
      · exact hnew
    · rw [hroles _ ho]
      exact h.forwarder o' ho'
  · by_cases ho : o' = o
    · subst ho
      rw [act_inbox_self] at hev
      exact h.stored o' ev hev
    · rw [act_inbox_of_ne _ ho, List.mem_append] at hev
      exact hev.elim (h.stored o' ev) (hstored ev)

theorem Away.sibl (h : n.Away) (hs : n.step (.sibl o) = some u) : u.Away := by
  obtain ⟨ev, rest, role, actions, hin, hd, rfl⟩ := step_sibl hs
  have hpop : (n.pop o rest).Away :=
    ⟨h.home, h.forwarder, fun o' e he => h.stored o' e (mem_of_mem_pop hin he)⟩
  have hkind : (∃ state, n.roles o = .home state) ∨ ∃ state, n.roles o = .forwarder state :=
    (h.kind o).imp_right fun ⟨state, hstate, _⟩ => ⟨state, hstate⟩
  refine hpop.act ?_ (by rw [(sibl_silent hkind hd).1]; simp)
  have hrole := hear_kind hd
  by_cases ho : o = .center
  · subst ho
    obtain ⟨state, hstate⟩ := h.home
    obtain ⟨state', hstate'⟩ := hearRole_home .center state ev
    exact .inl ⟨state, hstate, state', by rw [hrole, hstate, hstate']⟩
  · obtain ⟨state, hstate, hdtr⟩ := h.forwarder o ho
    have hev : ev.placesAtOne = false := h.stored o ev (by rw [hin]; exact List.mem_cons_self)
    exact .inr ⟨ho, _, by rw [hrole, hstate, hearRole_forwarder], hear_away hdtr hev⟩

theorem Away.peer (h : n.Away) {ev : RtPeerEvent} (hs : n.step (.peer o ev) = some u)
    (keeps : ∀ state, n.roles o = .forwarder state → Peer.placesAtOne state ev = false) :
    u.Away := by
  obtain ⟨-, role, actions, hd, rfl⟩ := step_peer hs
  by_cases ho : o = .center
  · subst ho
    obtain ⟨state, hstate⟩ := h.home
    rw [hstate] at hd
    have hquiet : role = .home state ∧ actions = [] := by
      cases ev <;> cases hd <;> exact ⟨rfl, rfl⟩
    obtain ⟨rfl, rfl⟩ := hquiet
    exact h.act (.inl ⟨state, hstate, state, rfl⟩) (by simp)
  · obtain ⟨state, hstate, hdtr⟩ := h.forwarder o ho
    rw [hstate] at hd
    obtain ⟨hnew, hstored⟩ := peer_away hd hdtr (keeps state hstate)
    exact h.act (.inr ⟨ho, hnew⟩) hstored

theorem Away.tick (h : n.Away) (dtMs : BitVec 32) :
    (n.act .center (rtOnTick (n.roles .center) dtMs)).Away := by
  obtain ⟨state, hstate⟩ := h.home
  rw [hstate]
  exact h.act (.inl ⟨state, hstate, state, rfl⟩) (by simp)

end Node

/-! ## Runs of the network -/

section Runs

variable {ι : Type*} [DecidableEq ι] {root : ι} {t u : Mesh ι}

theorem Mesh.away_step {l : MeshLabel ι} (h : ∀ i, i ≠ root → (t.nodes i).Away)
    (keeps : t.keepsDistance root l = true) (hs : (meshMachine ι).step t l = some u)
    (i : ι) (hi : i ≠ root) : (u.nodes i).Away := by
  rcases Mesh.step_nodes hs i with hsame | ⟨o, -, hsibl⟩ | ⟨o, ev, rfl, hpeer⟩ | ⟨dtMs, -, htick⟩
  · rw [hsame]
    exact h i hi
  · exact (h i hi).sibl hsibl
  · refine (h i hi).peer hpeer fun state hstate => ?_
    have hrole : t.role (i, o) = .forwarder state := hstate
    simpa [Mesh.keepsDistance, hrole, hi] using keeps
  · rw [htick]
    exact (h i hi).tick dtMs

/-- Along runs in which no handshake and no gateway response places a board of another node at
distance 1, a forwarder at distance 1 belongs to the root's node. -/
theorem mesh_distanceOne {network : Network}
    (run : (meshMachine ι).Executes (fun t l => t.keepsDistance root l = true)
      (Mesh.start root network) t)
    {p : Port ι} {state : RtForwarderState} (hrole : t.role p = .forwarder state)
    (hdtr : state.dtr = 1) : p.1 = root := by
  by_contra hp
  have haway : ∀ i, i ≠ root → (t.nodes i).Away := by
    refine run.invariant (fun i hi => ?_) fun s l u inv keeps hs => Mesh.away_step inv keeps hs
    rw [Mesh.start_nodes_of_ne network hi]
    exact Node.start_away
  rcases (haway p.1 hp).kind p.2 with ⟨other, hother⟩ | ⟨other, hother, hne⟩
  · change t.role p = .home other at hother
    rw [hrole] at hother
    cases hother
  · change t.role p = .forwarder other at hother
    rw [hrole] at hother
    cases hother
    exact hne hdtr

end Runs

/-- The root's node, `false`, provisions itself; its north board is linked to the south board
of another node and sends its handshake. -/
def rootHandshake : List (MeshLabel Bool) :=
  [.sibl (false, .center), .sibl (false, .north), .sibl (false, .north),
    .connect (false, .north) (true, .south) Network.zero,
    .peer (false, .north) (.connected Network.zero), .sibl (true, .south)]

/-- What the root's north board sends. -/
def rootHandshakeEvent : RtPeerEvent := .handshake ⟨rootNetwork, ⟨0x0a200000, 0xffe00000⟩, 1⟩

/-- The other node handles it. -/
def childAtOne : List (MeshLabel Bool) :=
  rootHandshake ++ [.peer (true, .south) rootHandshakeEvent]

theorem childAtOne_runs :
    ((meshMachine Bool).run (Mesh.start false rootNetwork) childAtOne).isSome = true := by decide

theorem mesh_childAtOne :
    ¬ ∀ t : Mesh Bool, (meshMachine Bool).Reaches (Mesh.start false rootNetwork) t →
      ∀ p state, t.role p = .forwarder state → state.dtr = 1 → p.1 = false := by
  intro h
  have hone := h _ (Machine.reaches_of_run (Option.some_get childAtOne_runs).symm)
    (true, .south) _ rfl rfl
  cases hone

/-- It is lost instead, and the other node's own handshake is handled by the root's. -/
def handshakeLost : List (MeshLabel Bool) :=
  rootHandshake ++
    [.lose (true, .south) rootHandshakeEvent, .peer (true, .south) (.connected Network.zero),
      .peer (false, .north) (.handshake ⟨Network.zero, Network.zero, 0⟩)]

theorem handshakeLost_runs :
    ((meshMachine Bool).runWith (Mesh.keepsDistance false) (Mesh.start false rootNetwork)
      handshakeLost).isSome = true := by decide

/-- The north board of the root's node is at distance 1, and no board of another node. -/
theorem mesh_distanceOne_north :
    let t := ((meshMachine Bool).runWith (Mesh.keepsDistance false)
      (Mesh.start false rootNetwork) handshakeLost).get handshakeLost_runs
    (∃ state, t.role (false, .north) = .forwarder state ∧ state.dtr = 1) ∧
      ∀ p state, t.role p = .forwarder state → state.dtr = 1 → p.1 = false :=
  ⟨⟨_, rfl, rfl⟩, fun _ _ hrole hdtr => mesh_distanceOne
    (Machine.executes_of_runWith (Option.some_get handshakeLost_runs).symm) hrole hdtr⟩

end I4A
