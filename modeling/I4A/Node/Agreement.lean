import I4A.Node.Adoption

/-! # One network for all boards of a node

The boards of a node other than the root's enter the critical section of the routing
module in token order. What a board broadcasts in it is stored by the other four
before the token moves on, and a board handles what it has stored before its own
peer events. The first handshake that provisions a board is therefore the only one.
-/

namespace I4A

open Forwarder

/-! ## Broadcasts -/

/-- The sibling event of an output. -/
def RtOutput.siblEvent : RtOutput → Option RtSiblEvent
  | .sibling event => some event
  | _ => none

/-- The network of the board's access point after an output, and after a call. -/
def RtOutput.accessPoint (ap : Option Network) : RtOutput → Option Network
  | .apMode network => some network
  | _ => ap

def RtAction.accessPoint (ap : Option Network) : RtAction → Option Network
  | .wlEnableApMode network => some network
  | _ => ap

/-- A broadcast of another board of the node arrives. -/
def Routing.hears (board : Routing) : RtOutput → Routing
  | .sharedState table => { board with routingTable := table }
  | .sibling event => (onSiblingMessage board event sizeofRtSiblEvent).1
  | _ => board

theorem performAll_siblEvents (table : RtRoutingTable) (actions : List RtAction) :
    (RtAction.performAll table actions).2.filterMap RtOutput.siblEvent = siblEvents actions := by
  refine performAll_filterMap (fun table action => ?_) table actions
  cases action <;> rfl

theorem performAll_accessPoint (table : RtRoutingTable) (actions : List RtAction)
    (ap : Option Network) :
    (RtAction.performAll table actions).2.foldl RtOutput.accessPoint ap =
      actions.foldl RtAction.accessPoint ap := by
  induction actions generalizing table ap with
  | nil => rfl
  | cons action rest ih =>
      rw [RtAction.performAll_cons, List.foldl_append, ih, List.foldl_cons]
      cases action <;> rfl

theorem hears_role (board : Routing) (outputs : List RtOutput) :
    (outputs.foldl Routing.hears board).role = board.role ∧
      (outputs.foldl Routing.hears board).orientation = board.orientation := by
  induction outputs generalizing board with
  | nil => exact ⟨rfl, rfl⟩
  | cons output rest ih =>
      rw [List.foldl_cons]
      have hfirst : (board.hears output).role = board.role ∧
          (board.hears output).orientation = board.orientation := by
        cases output with
        | sibling event =>
            unfold Routing.hears onSiblingMessage
            dsimp only
            split
            · exact ⟨rfl, rfl⟩
            · split <;> exact ⟨rfl, rfl⟩
        | _ => exact ⟨rfl, rfl⟩
      exact ⟨(ih _).1.trans hfirst.1, (ih _).2.trans hfirst.2⟩

/-- Without overflow every sibling event broadcast is stored, in order. -/
theorem hears_internalQueue (board : Routing) (outputs : List RtOutput)
    (room : (outputs.foldl Routing.hears board).internalQueue.length < maxSiblEventQueued) :
    (outputs.foldl Routing.hears board).internalQueue =
      board.internalQueue ++ outputs.filterMap RtOutput.siblEvent := by
  -- a queue that is full stays full, so none of the events met a full queue
  have hgrows : ∀ (outputs : List RtOutput) (board : Routing), board.internalQueue.length ≤
      (outputs.foldl Routing.hears board).internalQueue.length := by
    intro outputs
    induction outputs with
    | nil => exact fun _ => Nat.le_refl _
    | cons output rest ih =>
        intro board
        refine Nat.le_trans ?_ (ih (board.hears output))
        cases output with
        | sibling event =>
            unfold Routing.hears onSiblingMessage
            dsimp only
            split
            · exact Nat.le_refl _
            · split
              · exact Nat.le_refl _
              · simp
        | _ => exact Nat.le_refl _
  induction outputs generalizing board with
  | nil => simp
  | cons output rest ih =>
      rw [List.foldl_cons] at room ⊢
      rw [ih _ room]
      cases output with
      | sibling event =>
          have hroom : ¬ maxSiblEventQueued ≤ board.internalQueue.length := by
            intro hfull
            have hstuck : board.hears (.sibling event) = board := by
              unfold Routing.hears onSiblingMessage
              dsimp only
              rw [if_pos hfull]
            rw [hstuck] at room
            have := hgrows rest board
            omega
          have hstored : (board.hears (.sibling event)).internalQueue =
              board.internalQueue ++ [event] := by
            unfold Routing.hears onSiblingMessage
            dsimp only
            rw [if_neg hroom, if_neg (fun h => h rfl)]
          rw [hstored]
          simp [RtOutput.siblEvent]
      | _ => rfl

/-! ## The node -/

/-- The role of a board and the networks it has adopted, the latest first, after one more
event. -/
def adopt (self : Orientation) (s : RtRole × List Network) (event : RtEvent) :
    RtRole × List Network :=
  (((dispatch self s.1 event).map (·.1)).getD s.1, (s.1.adopts event).toList ++ s.2)

structure TokenNode where
  boards : Orientation → Routing
  /-- The board that enters the critical section next. -/
  turn : Orientation
  /-- The networks that each board has adopted, the latest first. -/
  adopted : Orientation → List Network
  /-- The network of each board's access point. -/
  accessPoint : Orientation → Option Network

inductive TokenLabel where
  | enter
  | peerMessage (o : Orientation) (event : RtPeerEvent) (len : Nat)
  | peerConnected (o : Orientation) (network : Network)
  | peerLost (o : Orientation) (network : Network)

namespace TokenNode

/-- Five boards that have run `rt_create`, their init function and `rt_on_start`. -/
def start : TokenNode where
  boards := fun o => rtOnStart (if o = .center then rtInitHome o else rtInitForwarder o)
  turn := .north
  adopted := fun _ => []
  accessPoint := fun _ => none

/-- One board changes. -/
def store (n : TokenNode) (o : Orientation) (board : Routing) : TokenNode :=
  { n with boards := Function.update n.boards o board }

/-- The board with the turn runs `on_critical_section`. -/
def enter (n : TokenNode) : TokenNode :=
  let board := n.boards n.turn
  let entered := onCriticalSection board
  { boards := fun o =>
      if o = n.turn then entered.board else entered.outputs.foldl Routing.hears (n.boards o)
    turn := n.turn.next
    adopted := Function.update n.adopted n.turn
      (entered.handled.foldl (adopt n.turn) (board.role, n.adopted n.turn)).2
    accessPoint := Function.update n.accessPoint n.turn
      (entered.outputs.foldl RtOutput.accessPoint (n.accessPoint n.turn)) }

def step (n : TokenNode) : TokenLabel → Option TokenNode
  | .enter => some n.enter
  | .peerMessage o event len => some (n.store o (onPeerMessage (n.boards o) event len).1)
  | .peerConnected o network => some (n.store o (onPeerConnected (n.boards o) network).1)
  | .peerLost o network => some (n.store o (onPeerLost (n.boards o) network).1)

/-- No queue has reached its limit. -/
def roomy (n : TokenNode) : Bool :=
  Orientation.all.all fun o =>
    decide ((n.boards o).internalQueue.length < maxSiblEventQueued) &&
      decide ((n.boards o).externalQueue.length < maxPeerEventQueued)

/-- Whoever has adopted a network has adopted this one, and uses its own part of it. -/
structure Agreed (n : TokenNode) (network : Network) : Prop where
  one : ∀ o, ∀ given ∈ n.adopted o, given = network
  forwarder : ∀ o, o ≠ .center → ∃ state, (n.boards o).role = .forwarder state ∧
    (n.adopted o ≠ [] →
      state.nodeNetwork = network ∧ state.deviceNetwork = getNodeSubnet network o)
  home : ∃ state, (n.boards .center).role = .home state ∧
    n.accessPoint .center =
      if state.isProvisioned then some (getNodeSubnet network .center) else none

end TokenNode

def tokenNode : Machine TokenNode TokenLabel := ⟨TokenNode.step⟩

/-- The step makes no queue reach its limit. -/
def keepsRoom (n : TokenNode) (l : TokenLabel) : Bool := (n.step l).all TokenNode.roomy

/-! ## One event of a critical section -/

/-- What holds of one board: its role, the networks it has adopted and its access point. The
node's network is the one that has been adopted, if any. -/
def Holds (self : Orientation) (net : Option Network) (s : RtRole × List Network)
    (ap : Option Network) : Prop :=
  (∀ given ∈ s.2, net = some given) ∧
    match s.1 with
    | .forwarder state => self ≠ .center ∧ ForwarderHistory.Given self ⟨state, s.2⟩
    | .home state => self = .center ∧
        (state.isProvisioned = false → ap = none) ∧
        (state.isProvisioned = true → ∃ network, net = some network ∧
          ap = some (getNodeSubnet network .center))
    | .root _ => False

/-- The sibling events a board may be told about. -/
def Tells (net : Option Network) (event : RtSiblEvent) : Prop :=
  event.known = true ∧ ∀ payload, event = .provision payload → net = some payload.network

theorem Tells.widen {net net' : Option Network} (wider : net = none ∨ net' = net)
    {event : RtSiblEvent} (h : Tells net event) : Tells net' event := by
  refine ⟨h.1, fun payload heq => ?_⟩
  have hnet := h.2 payload heq
  rcases wider with hnone | rfl
  · rw [hnone] at hnet
    cases hnet
  · exact hnet

theorem adopts_sibl {role : RtRole} {event : RtSiblEvent} {network : Network}
    (h : role.adopts (.sibl event) = some network) :
    ∃ payload, event = .provision payload ∧ payload.network = network := by
  cases role with
  | forwarder state =>
      cases event with
      | provision payload =>
          simp only [RtRole.adopts] at h
          split at h
          · cases h
          · exact ⟨payload, rfl, Option.some.inj h⟩
      | _ => cases h
  | home state =>
      cases event with
      | provision payload =>
          simp only [RtRole.adopts] at h
          split at h
          · cases h
          · exact ⟨payload, rfl, Option.some.inj h⟩
      | _ => cases h
  | root state => cases h

theorem adopts_peer {role : RtRole} {event : RtPeerEvent} {network : Network}
    (h : role.adopts (.peer event) = some network) :
    ∃ state payload, role = .forwarder state ∧ state.globalState = .withoutNetwork ∧
      event = .handshake payload ∧ payload.providedNetwork = network := by
  cases role with
  | forwarder state =>
      cases event with
      | handshake payload =>
          simp only [RtRole.adopts] at h
          split at h
          · next hwithout => exact ⟨state, payload, rfl, hwithout, rfl, Option.some.inj h⟩
          · cases h
      | _ => cases h
  | _ => cases h

theorem adopt_some {self : Orientation} {s : RtRole × List Network} {event : RtEvent}
    {result : RtRole × List RtAction} (hd : dispatch self s.1 event = some result) :
    adopt self s event = (result.1, (s.1.adopts event).toList ++ s.2) := by
  rw [adopt, hd]
  rfl

/-- A sibling event keeps what holds of a board, and the board tells the others nothing. -/
theorem Holds.sibl {self : Orientation} {net : Option Network} {s : RtRole × List Network}
    {ap : Option Network} (h : Holds self net s ap) {event : RtSiblEvent}
    (told : Tells net event) {result : RtRole × List RtAction}
    (hd : dispatchSibl self s.1 event = some result) :
    Holds self net (adopt self s (.sibl event)) (result.2.foldl RtAction.accessPoint ap) ∧
      siblEvents result.2 = [] := by
  obtain ⟨role, given⟩ := s
  obtain ⟨role', actions⟩ := result
  have hdispatch : dispatch self role (.sibl event) = some (role', actions) := hd
  rw [adopt_some hdispatch]
  have hgiven : ∀ network ∈ ((role.adopts (.sibl event)).toList ++ given),
      net = some network := by
    intro network hnetwork
    rw [List.mem_append, Option.mem_toList] at hnetwork
    cases hnetwork with
    | inl hadopts =>
        obtain ⟨payload, hevent, hnet⟩ := adopts_sibl hadopts
        rw [told.2 payload hevent, hnet]
    | inr hbefore => exact h.1 network hbefore
  cases role with
  | root state => exact h.2.elim
  | forwarder state =>
      have hsilent := sibl_silent (.inr ⟨state, rfl⟩) hd
      have hrole : role' = .forwarder (handle self state (.sibl event)) :=
        dispatch_forwarder hdispatch
      refine ⟨⟨hgiven, ?_⟩, hsilent.1⟩
      subst hrole
      exact ⟨h.2.1, h.2.2.step (.sibl event)⟩
  | home state =>
      have hsilent := sibl_silent (.inl ⟨state, rfl⟩) hd
      refine ⟨⟨hgiven, ?_⟩, hsilent.1⟩
      obtain ⟨hself, hclosed, hopen⟩ := h.2
      cases event with
      | provision payload =>
          simp only [dispatchSibl, RtRole.ofHome, Home.onProvision, Option.some.injEq,
            Prod.mk.injEq] at hd
          obtain ⟨rfl, rfl⟩ := hd
          cases hprov : state.isProvisioned with
          | true =>
              simp only [hprov, if_true, List.foldl_nil]
              exact ⟨hself, fun hfalse => (by cases hfalse), fun _ => hopen hprov⟩
          | false =>
              refine ⟨hself, fun hfalse => (by cases hfalse), fun _ => ?_⟩
              exact ⟨payload.network, told.2 payload rfl, by rw [hself]; rfl⟩
      | unknown id => cases hd
      | _ =>
          cases hd
          exact ⟨hself, hclosed, hopen⟩

/-- What a peer event makes a board tell the others has a case in their switch. -/
theorem dispatchPeer_known {self : Orientation} {role : RtRole} {event : RtPeerEvent}
    {result : RtRole × List RtAction} (hd : dispatchPeer self role event = some result) :
    ∀ ev ∈ siblEvents result.2, ev.known = true := by
  cases role with
  | forwarder state =>
      cases event with
      | unknown id => cases hd
      | handshake payload =>
          cases hd
          simp only [RtRole.ofForwarder, Peer.onHandshake]
          split <;> simp [RtAction.siblEvent, RtSiblEvent.known]
      | updateDtr payload =>
          cases hd
          simp only [RtRole.ofForwarder, Peer.onUpdateDtr]
          split
          · simp
          · split <;> simp [RtAction.siblEvent, RtSiblEvent.known]
      | newGatewayRequest payload =>
          cases hd
          have hroutes : siblEvents (Peer.requestRoutes self payload.hagNetworks
              payload.hagNetworks.toList) = [] := by
            rw [Peer.requestRoutes_eq]
            split
            · rfl
            · exact siblEvents_routes _ self
          simp only [RtRole.ofForwarder, Peer.onNewGatewayRequest]
          split
          · simp [hroutes, RtAction.siblEvent, RtSiblEvent.known]
          · split
            · simp [hroutes]
            · simp [hroutes, RtAction.siblEvent, RtSiblEvent.known]
      | newGatewayResponse payload =>
          cases hd
          simp only [RtRole.ofForwarder, Peer.onNewGatewayResponse]
          split <;> simp [RtAction.siblEvent, RtSiblEvent.known]
      | connected connection =>
          cases hd
          simp [RtRole.ofForwarder, Peer.onPeerConnected, RtAction.siblEvent]
      | lost connection =>
          cases hd
          simp only [RtRole.ofForwarder, Peer.onPeerLost]
          split <;> simp [RtAction.siblEvent, RtSiblEvent.known]
  | home state =>
      cases event <;> cases hd <;> simp
  | root state =>
      cases event <;> cases hd <;> simp

/-- A peer event keeps what holds of a board. The only board that it can give a network is a
fresh one, which then tells the others. -/
theorem Holds.peer {self : Orientation} {net : Option Network} {s : RtRole × List Network}
    {ap : Option Network} (h : Holds self net s ap)
    (busy : net ≠ none → s.1.fresh = false) {event : RtPeerEvent}
    {result : RtRole × List RtAction} (hd : dispatchPeer self s.1 event = some result) :
    ∃ net', (net = none ∨ net' = net) ∧
      Holds self net' (adopt self s (.peer event)) (result.2.foldl RtAction.accessPoint ap) ∧
      (∀ ev ∈ siblEvents result.2, Tells net' ev) ∧
      (net' ≠ none → result.1.fresh = false) ∧
      (net' = net ∨ ∃ payload, .provision payload ∈ siblEvents result.2) := by
  obtain ⟨role, given⟩ := s
  obtain ⟨role', actions⟩ := result
  have hdispatch : dispatch self role (.peer event) = some (role', actions) := hd
  rw [adopt_some hdispatch]
  have hknown := dispatchPeer_known hd
  cases hadopts : role.adopts (.peer event) with
  | some network =>
      obtain ⟨state, payload, rfl, hwithout, rfl, rfl⟩ := adopts_peer hadopts
      have hnone : net = none := by
        by_contra hnet
        have hfresh := busy hnet
        simp [RtRole.fresh, hwithout] at hfresh
      have hrole : role' = .forwarder (handle self state (.peer (.handshake payload))) :=
        dispatch_forwarder hdispatch
      have hstep := h.2.2.step (.peer (.handshake payload))
      simp only [ForwarderHistory.step, hadopts] at hstep
      simp only [dispatchPeer, RtRole.ofForwarder, Peer.onHandshake, if_pos hwithout,
        Option.some.injEq, Prod.mk.injEq] at hd
      obtain ⟨hstate, rfl⟩ := hd
      have hempty : given = [] := by
        cases given with
        | nil => rfl
        | cons first rest =>
            have hfirst := h.1 first List.mem_cons_self
            rw [hnone] at hfirst
            cases hfirst
      subst hempty
      refine ⟨some payload.providedNetwork, .inl hnone, ⟨?_, ?_⟩, ?_, ?_, .inr ?_⟩
      · simp
      · subst hrole
        exact ⟨h.2.1, hstep⟩
      · intro ev hev
        refine ⟨hknown ev hev, fun told htold => ?_⟩
        subst htold
        have heq : told = Peer.provisionOf self payload := by
          simpa [RtAction.siblEvent] using hev
        rw [heq]
        rfl
      · intro _
        subst hstate
        rfl
      · exact ⟨Peer.provisionOf self payload, by simp [RtAction.siblEvent]⟩
  | none =>
      have hplain : (∀ payload, .provision payload ∉ siblEvents actions) ∧
          (role'.fresh = true → role.fresh = true) := by
        rcases dispatchPeer_cases hd with
          ⟨state, payload, rfl, rfl, hwithout, -⟩ | ordinary
        · simp [RtRole.adopts, hwithout] at hadopts
        · exact ⟨fun payload hev => (ordinary.answer _ hev).2 payload rfl,
            ordinary.keeps.fresh⟩
      refine ⟨net, .inr rfl, ?_, ?_, ?_, .inl rfl⟩
      · refine ⟨h.1, ?_⟩
        cases role with
        | root state => exact h.2.elim
        | forwarder state =>
            have hrole : role' = .forwarder (handle self state (.peer event)) :=
              dispatch_forwarder hdispatch
            have hstep := h.2.2.step (.peer event)
            simp only [ForwarderHistory.step, hadopts] at hstep
            subst hrole
            exact ⟨h.2.1, hstep⟩
        | home state =>
            cases event with
            | unknown id => cases hd
            | _ =>
                cases hd
                exact h.2
      · exact fun ev hev => ⟨hknown ev hev, fun payload heq =>
          absurd (heq ▸ hev) (hplain.1 payload)⟩
      · intro hnet
        by_contra hfresh
        have hbefore := busy hnet
        rw [hplain.2 (by simpa using hfresh)] at hbefore
        cases hbefore

/-! ## The two loops -/

/-- The first loop handles what the others told. -/
theorem Holds.siblLoop {self : Orientation} {net : Option Network} {role : RtRole}
    {given : List Network} {ap : Option Network} (h : Holds self net (role, given) ap)
    {queue : List RtSiblEvent} (told : ∀ ev ∈ queue, Tells net ev) :
    let pass := dispatchQueue (dispatchSibl self) role queue
    let s := (pass.handled.map RtEvent.sibl).foldl (adopt self) (role, given)
    s.1 = pass.role ∧ Holds self net s (pass.actions.foldl RtAction.accessPoint ap) ∧
      siblEvents pass.actions = [] ∧
      (pass.role.fresh = true →
        role.fresh = true ∧ ∀ payload, .provision payload ∉ pass.handled) := by
  refine dispatchQueue_invariant
    (P := fun role' actions handled =>
      let s := (handled.map RtEvent.sibl).foldl (adopt self) (role, given)
      s.1 = role' ∧ Holds self net s (actions.foldl RtAction.accessPoint ap) ∧
        siblEvents actions = [] ∧
        (role'.fresh = true → role.fresh = true ∧ ∀ payload, .provision payload ∉ handled))
    ⟨rfl, h, rfl, fun hfresh => ⟨hfresh, by simp⟩⟩ ?_
  intro role' actions handled ev role'' actions' hev inv hd
  obtain ⟨hrole, hholds, hsilent, hfresh⟩ := inv
  simp only [List.map_append, List.map_cons, List.map_nil, List.foldl_append, List.foldl_cons,
    List.foldl_nil]
  generalize (handled.map RtEvent.sibl).foldl (adopt self) (role, given) = s at hrole hholds ⊢
  subst hrole
  obtain ⟨hnext, hsilent'⟩ := hholds.sibl (told ev hev) hd
  have hdispatch : dispatch self s.1 (.sibl ev) = some (role'', actions') := hd
  refine ⟨by rw [adopt_some hdispatch], hnext, by rw [siblEvents_append, hsilent, hsilent']; rfl,
    fun hafter => ?_⟩
  have hkeep : s.1.fresh = true := by
    rcases dispatchSibl_cases hd with ⟨state, hs, -, -⟩ | ⟨state, event, -, rfl, -, -⟩ | ordinary
    · have hroot := hholds.2
      rw [hs] at hroot
      exact hroot.elim
    · rw [dispatchSibl_provision_fresh hd] at hafter
      cases hafter
    · exact ordinary.keeps.fresh hafter
  refine ⟨(hfresh hkeep).1, fun payload hmem => ?_⟩
  rw [List.mem_append, List.mem_singleton] at hmem
  cases hmem with
  | inl hbefore => exact (hfresh hkeep).2 payload hbefore
  | inr hlast =>
      subst hlast
      rw [dispatchSibl_provision_fresh hd] at hafter
      cases hafter

/-- The second loop gives the board a network at most once, and only if nobody in the node
had one. -/
theorem Holds.peerLoop {self : Orientation} {net : Option Network} {role : RtRole}
    {given : List Network} {ap : Option Network} (h : Holds self net (role, given) ap)
    (busy : net ≠ none → role.fresh = false) (queue : List RtPeerEvent) :
    let pass := dispatchQueue (dispatchPeer self) role queue
    let s := (pass.handled.map RtEvent.peer).foldl (adopt self) (role, given)
    s.1 = pass.role ∧ ∃ net', (net = none ∨ net' = net) ∧
      Holds self net' s (pass.actions.foldl RtAction.accessPoint ap) ∧
      (∀ ev ∈ siblEvents pass.actions, Tells net' ev) ∧
      (net' ≠ none → pass.role.fresh = false) ∧
      (net' = net ∨ ∃ payload, .provision payload ∈ siblEvents pass.actions) := by
  refine dispatchQueue_invariant
    (P := fun role' actions handled =>
      let s := (handled.map RtEvent.peer).foldl (adopt self) (role, given)
      s.1 = role' ∧ ∃ net', (net = none ∨ net' = net) ∧
        Holds self net' s (actions.foldl RtAction.accessPoint ap) ∧
        (∀ ev ∈ siblEvents actions, Tells net' ev) ∧
        (net' ≠ none → role'.fresh = false) ∧
        (net' = net ∨ ∃ payload, .provision payload ∈ siblEvents actions))
    ⟨rfl, net, .inr rfl, h, by simp, busy, .inl rfl⟩ ?_
  intro role' actions handled ev role'' actions' _ inv hd
  obtain ⟨hrole, net', hwider, hholds, htells, hbusy, htold⟩ := inv
  simp only [List.map_append, List.map_cons, List.map_nil, List.foldl_append, List.foldl_cons,
    List.foldl_nil]
  generalize (handled.map RtEvent.peer).foldl (adopt self) (role, given) = s at hrole hholds ⊢
  subst hrole
  have hdispatch : dispatch self s.1 (.peer ev) = some (role'', actions') := hd
  obtain ⟨net'', hwider', hholds', htells', hbusy', htold'⟩ := hholds.peer hbusy hd
  refine ⟨by rw [adopt_some hdispatch], net'', ?_, hholds', ?_, hbusy', ?_⟩
  · rcases hwider with hnone | rfl
    · exact .inl hnone
    · exact hwider'
  · intro e he
    rw [siblEvents_append, List.mem_append] at he
    cases he with
    | inl hbefore => exact (htells e hbefore).widen hwider'
    | inr hlast => exact htells' e hlast
  · simp only [siblEvents_append, List.mem_append]
    rcases htold' with rfl | ⟨payload, hpayload⟩
    · rcases htold with rfl | ⟨payload, hpayload⟩
      · exact .inl rfl
      · exact .inr ⟨payload, .inl hpayload⟩
    · exact .inr ⟨payload, .inr hpayload⟩

/-- A whole critical section. -/
theorem Holds.criticalSection {self : Orientation} {net : Option Network} {board : Routing}
    {given : List Network} {ap : Option Network} (hself : board.orientation = self)
    (h : Holds self net (board.role, given) ap)
    (told : ∀ ev ∈ board.internalQueue, Tells net ev)
    (busy : net ≠ none → board.role.fresh = true →
      ∃ payload, .provision payload ∈ board.internalQueue) :
    let entered := onCriticalSection board
    let s := entered.handled.foldl (adopt self) (board.role, given)
    s.1 = entered.board.role ∧ ∃ net', (net = none ∨ net' = net) ∧
      Holds self net' s (entered.outputs.foldl RtOutput.accessPoint ap) ∧
      (∀ ev ∈ entered.outputs.filterMap RtOutput.siblEvent, Tells net' ev) ∧
      (net' ≠ none → entered.board.role.fresh = false) ∧
      (net' = net ∨ ∃ payload, .provision payload ∈
        entered.outputs.filterMap RtOutput.siblEvent) ∧
      ∀ ev ∈ entered.board.internalQueue, ev ∈ board.internalQueue := by
  subst hself
  have hknown : board.internalQueue.all RtSiblEvent.known = true := by
    rw [List.all_eq_true]
    exact fun ev hev => (told ev hev).1
  obtain ⟨hhandled, hfinished⟩ := dispatchQueue_handled (dispatchSibl_isSome board.orientation)
    board.role board.internalQueue
  rw [hknown] at hfinished
  rw [List.takeWhile_eq_self_iff.mpr (List.all_eq_true.mp hknown)] at hhandled
  obtain ⟨hrole, hholds, hsilent, hfresh⟩ := h.siblLoop told
  rw [hhandled] at hrole hholds hfresh
  simp only [onCriticalSection, hfinished, if_true, hhandled]
  generalize dispatchQueue (dispatchSibl board.orientation) board.role board.internalQueue = sibl
    at hrole hholds hsilent hfresh ⊢
  have hbusy : net ≠ none → sibl.role.fresh = false := by
    intro hnet
    by_contra hafter
    obtain ⟨hbefore, hnone⟩ := hfresh (by simpa using hafter)
    obtain ⟨payload, hpayload⟩ := busy hnet hbefore
    exact hnone payload hpayload
  rw [List.foldl_append]
  generalize hmiddle : (board.internalQueue.map RtEvent.sibl).foldl (adopt board.orientation)
    (board.role, given) = middle at hrole hholds ⊢
  obtain ⟨role, given'⟩ := middle
  simp only at hrole
  subst hrole
  obtain ⟨hrole', net', hwider, hholds', htells, hbusy', htold⟩ :=
    hholds.peerLoop hbusy board.externalQueue
  simp only [performAll_siblEvents, performAll_accessPoint, siblEvents_append, hsilent,
    List.nil_append, List.foldl_append]
  refine ⟨?_, net', hwider, hholds', htells, ?_, htold, ?_⟩
  · rw [hrole']
    split <;> rfl
  · intro hnet
    split <;> exact hbusy' hnet
  · split
    · simp
    · exact fun ev hev => hev

/-! ## The node -/

namespace TokenNode

/-- The network the node has adopted, with what holds of each board. -/
structure Inv (n : TokenNode) (net : Option Network) : Prop where
  orientation : ∀ o, (n.boards o).orientation = o
  holds : ∀ o, Holds o net ((n.boards o).role, n.adopted o) (n.accessPoint o)
  told : ∀ o, ∀ ev ∈ (n.boards o).internalQueue, Tells net ev
  busy : net ≠ none → ∀ o, (n.boards o).role.fresh = true →
    ∃ payload, .provision payload ∈ (n.boards o).internalQueue

theorem start_inv : start.Inv none where
  orientation o := by cases o <;> rfl
  holds o := by
    cases o with
    | center => exact ⟨by simp [start], rfl, fun _ => rfl, fun h => (nomatch h)⟩
    | _ => exact ⟨by simp [start], by decide, create_given _⟩
  told o ev hev := by
    have hstart : ev = .onStart := by
      revert hev
      cases o <;> simp [start, rtOnStart]
    subst hstart
    exact ⟨rfl, fun payload heq => (nomatch heq)⟩
  busy h := absurd rfl h

end TokenNode

theorem Holds.widen {self : Orientation} {net net' : Option Network}
    (wider : net = none ∨ net' = net) {s : RtRole × List Network} {ap : Option Network}
    (h : Holds self net s ap) : Holds self net' s ap := by
  rcases wider with hnone | rfl
  · subst hnone
    refine ⟨fun given hgiven => (nomatch h.1 given hgiven), ?_⟩
    obtain ⟨role, given⟩ := s
    cases role with
    | forwarder state => exact h.2
    | home state =>
        refine ⟨h.2.1, h.2.2.1, fun hprov => ?_⟩
        obtain ⟨network, hnet, -⟩ := h.2.2.2 hprov
        cases hnet
    | root state => exact h.2
  · exact h

namespace TokenNode

theorem Inv.store {n : TokenNode} {net : Option Network} (inv : n.Inv net) {o : Orientation}
    {board : Routing} (horient : board.orientation = (n.boards o).orientation)
    (hrole : board.role = (n.boards o).role)
    (hqueue : board.internalQueue = (n.boards o).internalQueue) : (n.store o board).Inv net := by
  have hsame : ∀ o', ((n.store o board).boards o').orientation = (n.boards o').orientation ∧
      ((n.store o board).boards o').role = (n.boards o').role ∧
      ((n.store o board).boards o').internalQueue = (n.boards o').internalQueue := by
    intro o'
    by_cases ho : o' = o
    · subst ho
      simp [TokenNode.store, horient, hrole, hqueue]
    · simp [TokenNode.store, ho]
  refine ⟨fun o' => ?_, fun o' => ?_, fun o' => ?_, fun hnet o' => ?_⟩
  · rw [(hsame o').1]
    exact inv.orientation o'
  · rw [(hsame o').2.1]
    exact inv.holds o'
  · rw [(hsame o').2.2]
    exact inv.told o'
  · rw [(hsame o').2.1, (hsame o').2.2]
    exact inv.busy hnet o'

theorem queuePeerMessage_keeps (board : Routing) (event : RtPeerEvent) :
    (queuePeerMessage board event).1.orientation = board.orientation ∧
      (queuePeerMessage board event).1.role = board.role ∧
      (queuePeerMessage board event).1.internalQueue = board.internalQueue := by
  unfold queuePeerMessage
  split <;> exact ⟨rfl, rfl, rfl⟩

theorem Inv.enter {n : TokenNode} {net : Option Network} (inv : n.Inv net)
    (room : n.enter.roomy = true) :
    ∃ net', (net = none ∨ net' = net) ∧ n.enter.Inv net' := by
  obtain ⟨hrole, net', hwider, hholds, htells, hbusy, htold, hqueue⟩ :=
    (inv.holds n.turn).criticalSection (inv.orientation n.turn) (inv.told n.turn)
      fun hnet => inv.busy hnet n.turn
  refine ⟨net', hwider, ?_⟩
  -- the four others store what was broadcast
  have hothers : ∀ o, o ≠ n.turn → (n.enter.boards o).internalQueue =
      (n.boards o).internalQueue ++
        (onCriticalSection (n.boards n.turn)).outputs.filterMap RtOutput.siblEvent := by
    intro o ho
    simp only [roomy, List.all_eq_true, Orientation.mem_all, forall_const, Bool.and_eq_true,
      decide_eq_true_eq] at room
    have hroom := (room o).1
    simp only [TokenNode.enter, if_neg ho] at hroom ⊢
    exact hears_internalQueue _ _ hroom
  have hroles : ∀ o, o ≠ n.turn → (n.enter.boards o).role = (n.boards o).role ∧
      (n.enter.boards o).orientation = (n.boards o).orientation := by
    intro o ho
    simp only [TokenNode.enter, if_neg ho]
    exact hears_role _ _
  have hself : n.enter.boards n.turn = (onCriticalSection (n.boards n.turn)).board :=
    if_pos rfl
  constructor
  · intro o
    by_cases ho : o = n.turn
    · subst ho
      rw [hself, onCriticalSection_orientation]
      exact inv.orientation n.turn
    · rw [(hroles o ho).2]
      exact inv.orientation o
  · intro o
    by_cases ho : o = n.turn
    · subst ho
      rw [hself, ← hrole]
      simpa [TokenNode.enter] using hholds
    · rw [(hroles o ho).1]
      simpa [TokenNode.enter, ho] using (inv.holds o).widen hwider
  · intro o ev hev
    by_cases ho : o = n.turn
    · subst ho
      rw [hself] at hev
      exact (inv.told n.turn ev (hqueue ev hev)).widen hwider
    · rw [hothers o ho, List.mem_append] at hev
      cases hev with
      | inl hbefore => exact (inv.told o ev hbefore).widen hwider
      | inr hnew => exact htells ev hnew
  · intro hnet o hfresh
    by_cases ho : o = n.turn
    · subst ho
      rw [hself, hbusy hnet] at hfresh
      cases hfresh
    · rw [(hroles o ho).1] at hfresh
      simp only [hothers o ho, List.mem_append]
      rcases htold with rfl | ⟨payload, hpayload⟩
      · obtain ⟨payload, hpayload⟩ := inv.busy hnet o hfresh
        exact ⟨payload, .inl hpayload⟩
      · exact ⟨payload, .inr hpayload⟩

theorem Inv.step {n n' : TokenNode} {net : Option Network} (inv : n.Inv net) {l : TokenLabel}
    (room : keepsRoom n l = true) (hs : tokenNode.step n l = some n') :
    ∃ net', (net = none ∨ net' = net) ∧ n'.Inv net' := by
  have hstep : n.step l = some n' := hs
  simp only [keepsRoom, hstep, Option.all_some] at room
  cases l with
  | enter =>
      cases hstep
      exact inv.enter room
  | peerMessage o event len =>
      cases hstep
      obtain ⟨horient, hrole, hqueue⟩ := queuePeerMessage_keeps (n.boards o) event
      refine ⟨net, .inr rfl, ?_⟩
      unfold onPeerMessage
      split
      · exact inv.store rfl rfl rfl
      · exact inv.store horient hrole hqueue
  | peerConnected o network =>
      cases hstep
      obtain ⟨horient, hrole, hqueue⟩ := queuePeerMessage_keeps (n.boards o) (.connected network)
      exact ⟨net, .inr rfl, inv.store horient hrole hqueue⟩
  | peerLost o network =>
      cases hstep
      obtain ⟨horient, hrole, hqueue⟩ := queuePeerMessage_keeps (n.boards o) (.lost network)
      exact ⟨net, .inr rfl, inv.store horient hrole hqueue⟩

/-- Without any network adopted every network will do. -/
theorem Inv.agreed {n : TokenNode} {net : Option Network} (inv : n.Inv net) {network : Network}
    (hnet : net = none ∨ net = some network) : n.Agreed network := by
  constructor
  · intro o given hgiven
    have hadopted := (inv.holds o).1 given hgiven
    rcases hnet with rfl | rfl
    · cases hadopted
    · exact (Option.some.inj hadopted).symm
  · intro o ho
    obtain ⟨hall, hrole⟩ := inv.holds o
    cases hkind : (n.boards o).role with
    | forwarder state =>
        rw [hkind] at hrole
        refine ⟨state, rfl, fun hadopted => ?_⟩
        obtain ⟨given, rest, hcons⟩ := List.exists_cons_of_ne_nil hadopted
        have hgiven : given = network := by
          have hsome := hall given (by simp [hcons])
          rcases hnet with rfl | rfl
          · cases hsome
          · exact (Option.some.inj hsome).symm
        obtain ⟨hnode, hdevice, -⟩ := hrole.2 given (by simp [hcons])
        exact ⟨hnode.trans hgiven, hgiven ▸ hdevice⟩
    | home state =>
        rw [hkind] at hrole
        exact absurd hrole.1 ho
    | root state =>
        rw [hkind] at hrole
        exact hrole.elim
  · obtain ⟨-, hrole⟩ := inv.holds .center
    cases hkind : (n.boards .center).role with
    | forwarder state =>
        rw [hkind] at hrole
        exact absurd rfl hrole.1
    | home state =>
        rw [hkind] at hrole
        refine ⟨state, rfl, ?_⟩
        cases hprov : state.isProvisioned with
        | false => exact hrole.2.1 hprov
        | true =>
            obtain ⟨given, hgiven, hap⟩ := hrole.2.2 hprov
            rcases hnet with rfl | rfl
            · cases hgiven
            · cases hgiven
              exact hap
    | root state =>
        rw [hkind] at hrole
        exact hrole.elim

end TokenNode

/-- In every run without overflow there is one network that all boards have adopted that have
adopted any, and each of them uses its own part of it. -/
theorem node_agreement {n : TokenNode}
    (run : tokenNode.Executes (fun n l => keepsRoom n l = true) .start n) :
    ∃ network, n.Agreed network := by
  have inv : ∃ net, n.Inv net := by
    induction run with
    | refl => exact ⟨none, TokenNode.start_inv⟩
    | tail _ room hs ih =>
        obtain ⟨net, inv⟩ := ih
        obtain ⟨net', -, inv'⟩ := inv.step room hs
        exact ⟨net', inv'⟩
  obtain ⟨net, inv⟩ := inv
  cases net with
  | none => exact ⟨Network.zero, inv.agreed (.inl rfl)⟩
  | some network => exact ⟨network, inv.agreed (.inr rfl)⟩

/-- North handles its handshake first; the one at south comes later and changes nothing. -/
def twoHandshakes : List TokenLabel :=
  [.peerMessage .north (.handshake ⟨⟨0x0a000000#32, 0xff000000#32⟩,
      ⟨0x0a200000#32, 0xffe00000#32⟩, 1⟩) sizeofRtPeerEvent,
    .peerMessage .south (.handshake ⟨⟨0x0a000000#32, 0xff000000#32⟩,
      ⟨0x0a400000#32, 0xffe00000#32⟩, 1⟩) sizeofRtPeerEvent,
    .enter, .enter, .peerLost .north ⟨0x0a000000#32, 0xff000000#32⟩, .enter, .enter, .enter]

theorem twoHandshakes_runs :
    (tokenNode.runWith keepsRoom .start twoHandshakes).isSome = true := by decide

theorem node_agreement_twoHandshakes :
    ∃ network, ((tokenNode.runWith keepsRoom .start twoHandshakes).get
      twoHandshakes_runs).Agreed network :=
  node_agreement (Machine.executes_of_runWith (Option.some_get twoHandshakes_runs).symm)

end I4A
