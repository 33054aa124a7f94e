import I4A.Node.Model
import I4A.Routing.LongestPrefix

/-! # The handshakes of a new link

Two boards are linked: a provider whose node has a network and a joiner whose node has
none. Each is told of the connection by its own wireless task and of the other's
handshake by another one, so the two come to a board's queue in either order.
-/

namespace I4A

inductive Side where
  | provider | joiner
  deriving DecidableEq

def Side.other : Side → Side
  | .provider => .joiner
  | .joiner => .provider

/-- The peer message of an output. -/
def RtOutput.peerMessage : RtOutput → Option RtPeerEvent
  | .peer event => some event
  | _ => none

/-- One end of the link. -/
structure LinkEnd where
  board : Routing
  /-- Messages on their way to this end. -/
  inbound : List RtPeerEvent
  /-- `on_peer_connected` has been called. -/
  connected : Bool
  /-- What the external queue has been given, in order. -/
  arrived : List RtPeerEvent

namespace LinkEnd

/-- A forwarder with empty queues. -/
def ofForwarder (o : Orientation) (state : RtForwarderState) (table : RtRoutingTable) :
    LinkEnd where
  board :=
    { orientation := o, externalQueue := [], internalQueue := [], role := .forwarder state,
      routingTable := table }
  inbound := []
  connected := false
  arrived := []

variable (e : LinkEnd)

/-- The wireless layer reports the connection, once. -/
def connect (network : Network) : Option LinkEnd :=
  if e.connected then none
  else some { e with
    board := (onPeerConnected e.board network).1
    connected := true
    arrived := e.arrived ++ [.connected network] }

/-- The next message arrives. -/
def deliver : Option LinkEnd :=
  match e.inbound with
  | [] => none
  | event :: rest => some { e with
      board := (onPeerMessage e.board event sizeofRtPeerEvent).1
      inbound := rest
      arrived := e.arrived ++ [event] }

/-- All that was to come has been handled. -/
def Done : Prop := e.connected = true ∧ e.inbound = [] ∧ e.board.externalQueue = []

instance : Decidable e.Done := inferInstanceAs (Decidable (_ ∧ _ ∧ _))

/-- The first event that the board was given is the handshake of the other end. -/
def heardFirst : Bool :=
  match e.arrived with
  | .handshake _ :: _ => true
  | _ => false

end LinkEnd

abbrev Exchange := Side → LinkEnd

inductive ExchangeLabel where
  | connect (side : Side) (network : Network)
  | deliver (side : Side)
  /-- The board of this side runs `on_critical_section`. -/
  | enter (side : Side)

namespace Exchange

def enter (t : Exchange) (side : Side) : Exchange :=
  let entered := onCriticalSection (t side).board
  fun s =>
    if s = side then { t s with board := entered.board }
    else { t s with inbound := (t s).inbound ++ entered.outputs.filterMap RtOutput.peerMessage }

def step (t : Exchange) : ExchangeLabel → Option Exchange
  | .connect side network => ((t side).connect network).map (Function.update t side)
  | .deliver side => (t side).deliver.map (Function.update t side)
  | .enter side => some (t.enter side)

end Exchange

def exchangeMachine : Machine Exchange ExchangeLabel := ⟨Exchange.step⟩

/-- The table sends every address of the network to `o` that no other entry covers more
specifically. -/
def Sends (table : RtRoutingTable) (network : Network) (o : Orientation) : Prop :=
  ∀ ip, ip &&& network.mask = network.addr →
    (∀ e ∈ table.used, e.covers ip = true → e.mask ≤ network.mask) →
      routingTableRoute table ip = o.output

/-- What the exchange is for. -/
def Exchange.Joined (t : Exchange) (o : Orientation) (offered : Network) (gateway : UInt8) :
    Prop :=
  ∃ state, (t .joiner).board.role = .forwarder state ∧ state.nodeNetwork = offered ∧
    Sends (t .provider).board.routingTable state.nodeNetwork o ∧
    (t .provider).board.routingTable.defaultGateway = gateway

/-! ## Loops over the external queue -/

section Queue

variable {Event : Type} {dispatch : RtRole → Event → Option (RtRole × List RtAction)}

theorem dispatchQueue_append {role : RtRole} {first : List Event}
    (finished : (dispatchQueue dispatch role first).finished = true) (second : List Event) :
    let pass := dispatchQueue dispatch role first
    let rest := dispatchQueue dispatch pass.role second
    (dispatchQueue dispatch role (first ++ second)).role = rest.role ∧
      (dispatchQueue dispatch role (first ++ second)).actions = pass.actions ++ rest.actions := by
  induction first generalizing role with
  | nil => exact ⟨rfl, rfl⟩
  | cons ev first ih =>
      cases hd : dispatch role ev with
      | none =>
          rw [dispatchQueue_cons_none hd] at finished
          cases finished
      | some result =>
          obtain ⟨role', actions⟩ := result
          simp only [List.cons_append, dispatchQueue_cons_some hd] at finished ⊢
          obtain ⟨hrole, hactions⟩ := ih finished
          exact ⟨hrole, by rw [hactions, List.append_assoc]⟩

end Queue

theorem performAll_peerMessages (table : RtRoutingTable) (actions : List RtAction) :
    (RtAction.performAll table actions).2.filterMap RtOutput.peerMessage =
      peerMessages actions := by
  refine performAll_filterMap (fun table action => ?_) table actions
  cases action <;> rfl

/-- A critical section with known peer events and no sibling event stored. -/
theorem onCriticalSection_peers {board : Routing} (hin : board.internalQueue = [])
    (known : board.externalQueue.all RtPeerEvent.known = true) :
    let pass := dispatchQueue (dispatchPeer board.orientation) board.role board.externalQueue
    (onCriticalSection board).board =
        { board with
          role := pass.role
          routingTable := tableAfter board.routingTable pass.actions
          externalQueue := []
          internalQueue := [] } ∧
      (onCriticalSection board).outputs.filterMap RtOutput.peerMessage =
        peerMessages pass.actions := by
  obtain ⟨-, hfinished⟩ := dispatchQueue_handled (dispatchPeer_isSome board.orientation)
    board.role board.externalQueue
  rw [known] at hfinished
  simp only [onCriticalSection, hin, dispatchQueue_nil, if_true, hfinished, List.nil_append,
    performAll_peerMessages]
  exact ⟨rfl, trivial⟩

/-! ## What has been handled and what is still to come -/

def RtPeerEvent.isConnected : RtPeerEvent → Bool
  | .connected _ => true
  | _ => false

def RtPeerEvent.isHandshake : RtPeerEvent → Bool
  | .handshake _ => true
  | _ => false

/-- A forwarder's loop over these events. -/
def linkPass (o : Orientation) (state : RtForwarderState) (events : List RtPeerEvent) :
    QueuePass RtPeerEvent :=
  dispatchQueue (dispatchPeer o) (.forwarder state) events

/-- Only the two events of a new link. -/
def Opening (events : List RtPeerEvent) : Prop :=
  ∀ ev ∈ events, ev.isConnected = true ∨ ev.isHandshake = true

theorem Opening.known {events : List RtPeerEvent} (h : Opening events) :
    events.all RtPeerEvent.known = true := by
  rw [List.all_eq_true]
  intro ev hev
  rcases h ev hev with hc | hs
  · cases ev <;> first | rfl | cases hc
  · cases ev <;> first | rfl | cases hs

theorem Opening.length {events : List RtPeerEvent} (h : Opening events) :
    events.length =
      events.countP RtPeerEvent.isConnected + (events.filter RtPeerEvent.isHandshake).length := by
  induction events with
  | nil => rfl
  | cons ev rest ih =>
      have hrest := ih fun e he => h e (List.mem_cons_of_mem _ he)
      rcases h ev List.mem_cons_self with hc | hs
      · have hs : ev.isHandshake = false := by cases ev <;> first | rfl | cases hc
        simp only [List.length_cons, List.countP_cons, List.filter_cons, hc, hs, if_true]
        simp only [Bool.false_eq_true, if_false]
        omega
      · have hc : ev.isConnected = false := by cases ev <;> first | rfl | cases hs
        simp only [List.length_cons, List.countP_cons, List.filter_cons, hc, hs, if_true]
        simp only [Bool.false_eq_true, if_false]
        omega

/-- A board answers the connection with a handshake and a handshake with nothing. -/
theorem linkPass_messages (o : Orientation) (state : RtForwarderState)
    {events : List RtPeerEvent} (h : Opening events) :
    (linkPass o state events).finished = true ∧
      (∀ ev ∈ peerMessages (linkPass o state events).actions, ev.isHandshake = true) ∧
      (peerMessages (linkPass o state events).actions).length =
        events.countP RtPeerEvent.isConnected := by
  obtain ⟨hhandled, hfinished⟩ :=
    dispatchQueue_handled (dispatchPeer_isSome o) (.forwarder state) events
  rw [h.known] at hfinished
  rw [List.takeWhile_eq_self_iff.mpr (List.all_eq_true.mp h.known)] at hhandled
  have hpass : (∃ state', (linkPass o state events).role = .forwarder state') ∧
      (∀ ev ∈ peerMessages (linkPass o state events).actions, ev.isHandshake = true) ∧
      (peerMessages (linkPass o state events).actions).length =
        (linkPass o state events).handled.countP RtPeerEvent.isConnected := by
    refine dispatchQueue_invariant
      (P := fun role actions handled => (∃ state', role = .forwarder state') ∧
        (∀ ev ∈ peerMessages actions, ev.isHandshake = true) ∧
        (peerMessages actions).length = handled.countP RtPeerEvent.isConnected)
      ⟨⟨state, rfl⟩, by simp, rfl⟩ ?_
    intro role actions handled ev role' actions' hev inv hd
    obtain ⟨⟨state', rfl⟩, hall, hlen⟩ := inv
    rcases h ev hev with hc | hs
    · cases ev with
      | connected network =>
          cases hd
          refine ⟨⟨_, rfl⟩, ?_, ?_⟩
          · intro e he
            rw [peerMessages_append, List.mem_append] at he
            cases he with
            | inl hbefore => exact hall e hbefore
            | inr hlast =>
                have heq : e = .handshake (Forwarder.Peer.handshakeOf state') := by
                  simpa [RtRole.ofForwarder, Forwarder.Peer.onPeerConnected,
                    RtAction.peerMessage] using hlast
                rw [heq]
                rfl
          · simp [Forwarder.Peer.onPeerConnected, RtAction.peerMessage, hlen,
              RtPeerEvent.isConnected]
      | _ => cases hc
    · cases ev with
      | handshake payload =>
          cases hd
          have hsilent : peerMessages
              (Forwarder.Peer.onHandshake o state' payload).2 = [] := by
            unfold Forwarder.Peer.onHandshake
            split <;> rfl
          refine ⟨⟨_, rfl⟩, ?_, ?_⟩
          · simpa [RtRole.ofForwarder, hsilent] using hall
          · simpa [RtRole.ofForwarder, hsilent, RtPeerEvent.isConnected] using hlen
      | _ => cases hs
  have hsame : (linkPass o state events).handled = events := hhandled
  rw [hsame] at hpass
  exact ⟨hfinished, hpass.2⟩

theorem linkPass_append (o : Orientation) (state : RtForwarderState) {first : List RtPeerEvent}
    (h : Opening first) (second : List RtPeerEvent) :
    (linkPass o state (first ++ second)).role =
        (dispatchQueue (dispatchPeer o) (linkPass o state first).role second).role ∧
      (linkPass o state (first ++ second)).actions = (linkPass o state first).actions ++
        (dispatchQueue (dispatchPeer o) (linkPass o state first).role second).actions :=
  dispatchQueue_append (linkPass_messages o state h).1 second

/-- An end of the link that has handled these events. -/
structure LinkEnd.Served (e : LinkEnd) (o : Orientation) (state : RtForwarderState)
    (table : RtRoutingTable) (handled : List RtPeerEvent) : Prop where
  arrived : e.arrived = handled ++ e.board.externalQueue
  orientation : e.board.orientation = o
  internalQueue : e.board.internalQueue = []
  role : e.board.role = (linkPass o state handled).role
  table : e.board.routingTable = tableAfter table (linkPass o state handled).actions
  opening : Opening e.arrived
  once : e.arrived.countP RtPeerEvent.isConnected = if e.connected then 1 else 0

namespace Exchange

variable (o : Side → Orientation) (state : Side → RtForwarderState)
  (table : Side → RtRoutingTable)

/-- Before the first event. -/
def start : Exchange := fun side => .ofForwarder (o side) (state side) (table side)

/-- What each side has handled; what it sent in answer has arrived or is on its way. -/
structure Inv (t : Exchange) (handled : Side → List RtPeerEvent) : Prop where
  served : ∀ side, (t side).Served (o side) (state side) (table side) (handled side)
  sent : ∀ side, (t side.other).arrived.filter RtPeerEvent.isHandshake ++ (t side.other).inbound =
    peerMessages (linkPass (o side) (state side) (handled side)).actions

theorem start_inv : Inv o state table (start o state table) fun _ => [] where
  served _ := ⟨rfl, rfl, rfl, rfl, rfl, fun _ h => (nomatch h), rfl⟩
  sent _ := rfl

variable {o state table} {t : Exchange} {handled : Side → List RtPeerEvent}

theorem Inv.handled_opening (inv : Inv o state table t handled) (side : Side) :
    Opening (handled side) := by
  intro ev hev
  apply (inv.served side).opening
  rw [(inv.served side).arrived]
  exact List.mem_append_left _ hev

/-- At most one handshake is ever sent to a side, so its queue stays short. -/
theorem Inv.arrived_length (inv : Inv o state table t handled) (side : Side) :
    (t side).arrived.length + (t side).inbound.length ≤ 2 ∧
      ∀ ev ∈ (t side).inbound, ev.isHandshake = true := by
  have hother : side.other.other = side := by cases side <;> rfl
  have hsent := inv.sent side.other
  rw [hother] at hsent
  obtain ⟨-, hall, hlen⟩ := linkPass_messages (o side.other) (state side.other)
    (inv.handled_opening side.other)
  have hmost : (handled side.other).countP RtPeerEvent.isConnected ≤ 1 := by
    have honce := (inv.served side.other).once
    rw [(inv.served side.other).arrived, List.countP_append] at honce
    split at honce <;> omega
  have hself : (t side).arrived.countP RtPeerEvent.isConnected ≤ 1 := by
    rw [(inv.served side).once]
    split <;> omega
  have htotal := congrArg List.length hsent
  rw [List.length_append, hlen] at htotal
  have hlength := (inv.served side).opening.length
  refine ⟨by omega, fun ev hev => hall ev ?_⟩
  rw [← hsent]
  exact List.mem_append_right _ hev

theorem Inv.stores (inv : Inv o state table t handled) (side : Side) (ev : RtPeerEvent) :
    (queuePeerMessage (t side).board ev).1 =
      { (t side).board with externalQueue := (t side).board.externalQueue ++ [ev] } := by
  have hshort := (inv.arrived_length side).1
  rw [(inv.served side).arrived, List.length_append] at hshort
  have hroom : ¬ maxPeerEventQueued ≤ (t side).board.externalQueue.length := by
    unfold maxPeerEventQueued
    omega
  rw [queuePeerMessage, if_neg hroom]

/-- One end is given an event. -/
theorem Inv.give (inv : Inv o state table t handled) {side : Side} {e : LinkEnd}
    {ev : RtPeerEvent}
    (hboard : e.board = { (t side).board with
      externalQueue := (t side).board.externalQueue ++ [ev] })
    (harrived : e.arrived = (t side).arrived ++ [ev])
    (hopening : ev.isConnected = true ∨ ev.isHandshake = true)
    (hcount : ((t side).arrived ++ [ev]).countP RtPeerEvent.isConnected =
      if e.connected then 1 else 0)
    (hsent : ((t side).arrived ++ [ev]).filter RtPeerEvent.isHandshake ++ e.inbound =
      (t side).arrived.filter RtPeerEvent.isHandshake ++ (t side).inbound) :
    Inv o state table (Function.update t side e) handled := by
  constructor
  · intro s
    by_cases hs : s = side
    · subst hs
      rw [Function.update_self]
      have served := inv.served s
      refine ⟨?_, ?_, ?_, ?_, ?_, ?_, ?_⟩
      · rw [harrived, hboard, served.arrived, List.append_assoc]
      · rw [hboard]
        exact served.orientation
      · rw [hboard]
        exact served.internalQueue
      · rw [hboard]
        exact served.role
      · rw [hboard]
        exact served.table
      · intro x hx
        rw [harrived, List.mem_append, List.mem_singleton] at hx
        cases hx with
        | inl hbefore => exact served.opening x hbefore
        | inr hlast => exact hlast ▸ hopening
      · rw [harrived]
        exact hcount
    · rw [Function.update_of_ne hs]
      exact inv.served s
  · intro s
    by_cases hs : s.other = side
    · subst hs
      rw [Function.update_self, harrived, hsent]
      exact inv.sent s
    · rw [Function.update_of_ne hs]
      exact inv.sent s

theorem Inv.enter (inv : Inv o state table t handled) (side : Side) :
    Inv o state table (t.enter side)
      (Function.update handled side (handled side ++ (t side).board.externalQueue)) := by
  have served := inv.served side
  have hqueue : Opening (t side).board.externalQueue := by
    intro ev hev
    apply served.opening
    rw [served.arrived]
    exact List.mem_append_right _ hev
  obtain ⟨hboard, houtputs⟩ := onCriticalSection_peers served.internalQueue hqueue.known
  rw [served.orientation, served.role] at hboard houtputs
  obtain ⟨hrole, hactions⟩ := linkPass_append (o side) (state side) (inv.handled_opening side)
    (t side).board.externalQueue
  constructor
  · intro s
    by_cases hs : s = side
    · subst hs
      rw [Function.update_self]
      simp only [Exchange.enter, if_true]
      refine ⟨?_, ?_, ?_, ?_, ?_, served.opening, served.once⟩
      · rw [hboard, List.append_nil]
        exact served.arrived
      · rw [hboard]
      · rw [hboard]
      · rw [hboard, hrole]
      · rw [hboard, hactions, tableAfter_append, ← served.table]
    · rw [Function.update_of_ne hs]
      simp only [Exchange.enter, if_neg hs]
      exact ⟨(inv.served s).arrived, (inv.served s).orientation, (inv.served s).internalQueue,
        (inv.served s).role, (inv.served s).table, (inv.served s).opening, (inv.served s).once⟩
  · intro s
    by_cases hs : s = side
    · subst hs
      have hne : s.other ≠ s := by cases s <;> decide
      rw [Function.update_self]
      simp only [Exchange.enter, if_neg hne]
      rw [← List.append_assoc, inv.sent s, houtputs, hactions, peerMessages_append]
    · rw [Function.update_of_ne hs]
      have hsame : (t.enter side s.other).arrived = (t s.other).arrived ∧
          (t.enter side s.other).inbound = (t s.other).inbound := by
        have hother : s.other = side := by
          cases s <;> cases side <;> first | rfl | exact absurd rfl hs
        simp [Exchange.enter, hother]
      rw [hsame.1, hsame.2]
      exact inv.sent s

theorem Inv.step (inv : Inv o state table t handled) {l : ExchangeLabel} {t' : Exchange}
    (hs : exchangeMachine.step t l = some t') : ∃ handled', Inv o state table t' handled' := by
  have hstep : t.step l = some t' := hs
  cases l with
  | connect side network =>
      simp only [Exchange.step, LinkEnd.connect, Option.map_eq_some_iff] at hstep
      obtain ⟨e, he, rfl⟩ := hstep
      split at he
      · cases he
      · next hconn =>
        cases he
        have honce := (inv.served side).once
        rw [if_neg hconn] at honce
        exact ⟨handled, inv.give (inv.stores side _) rfl (.inl rfl)
          (by rw [List.countP_append, honce]; rfl) (by simp [RtPeerEvent.isHandshake])⟩
  | deliver side =>
      simp only [Exchange.step, LinkEnd.deliver, Option.map_eq_some_iff] at hstep
      obtain ⟨e, he, rfl⟩ := hstep
      cases hin : (t side).inbound with
      | nil =>
          rw [hin] at he
          cases he
      | cons ev rest =>
          rw [hin] at he
          cases he
          have hshake : ev.isHandshake = true :=
            (inv.arrived_length side).2 ev (by rw [hin]; exact List.mem_cons_self)
          have hconn : ev.isConnected = false := by cases ev <;> first | rfl | cases hshake
          refine ⟨handled, inv.give ?_ rfl (.inr hshake) ?_ ?_⟩
          · simp only [onPeerMessage, sizeofRtPeerEvent, ne_eq, not_true, if_false]
            exact inv.stores side ev
          · rw [List.countP_append, (inv.served side).once]
            simp [hconn]
          · simp [hshake, hin]
  | enter side =>
      cases hstep
      exact ⟨_, inv.enter side⟩

end Exchange

/-! ## The end of the exchange -/

/-- One event of each kind, in either order. -/
theorem Opening.two {events : List RtPeerEvent} (h : Opening events)
    (hconn : events.countP RtPeerEvent.isConnected = 1)
    (hshake : (events.filter RtPeerEvent.isHandshake).length = 1) :
    ∃ network payload, events = [.connected network, .handshake payload] ∨
      events = [.handshake payload, .connected network] := by
  have hlen := h.length
  rw [hconn, hshake] at hlen
  obtain ⟨first, second, rfl⟩ := List.length_eq_two.mp hlen
  rcases h first (by simp) with hf | hf
  · cases first with
    | connected network =>
        cases second with
        | handshake payload => exact ⟨network, payload, .inl rfl⟩
        | _ => simp [RtPeerEvent.isHandshake] at hshake
    | _ => cases hf
  · cases first with
    | handshake payload =>
        cases second with
        | connected network => exact ⟨network, payload, .inr rfl⟩
        | _ => simp [RtPeerEvent.isConnected] at hconn
    | _ => cases hf

theorem filter_isHandshake {events : List RtPeerEvent} {network : Network}
    {payload : RtPeerHandshake} (h : events = [.connected network, .handshake payload] ∨
      events = [.handshake payload, .connected network]) :
    events.filter RtPeerEvent.isHandshake = [.handshake payload] := by
  rcases h with rfl | rfl <;> rfl

/-- The provider sends the same handshake in either order, and adds one route. -/
theorem provider_end (o : Orientation) {state : RtForwarderState}
    (hwith : state.globalState ≠ .withoutNetwork) (table : RtRoutingTable) (network : Network)
    (payload : RtPeerHandshake) {events : List RtPeerEvent}
    (h : events = [.connected network, .handshake payload] ∨
      events = [.handshake payload, .connected network]) :
    peerMessages (linkPass o state events).actions =
        [.handshake (Forwarder.Peer.handshakeOf state)] ∧
      tableAfter table (linkPass o state events).actions =
        routingTableAdd table payload.externalNetwork.addr payload.externalNetwork.mask
          o.output := by
  rcases h with rfl | rfl
  · simp [linkPass, dispatchQueue, dispatchPeer, RtRole.ofForwarder,
      Forwarder.Peer.onPeerConnected, Forwarder.Peer.onHandshake, hwith, RtAction.peerMessage,
      RtAction.perform]
  · simp [linkPass, dispatchQueue, dispatchPeer, RtRole.ofForwarder,
      Forwarder.Peer.onPeerConnected, Forwarder.Peer.onHandshake, hwith, RtAction.peerMessage,
      RtAction.perform]

/-- The joiner tells its network as it is when it handles the connection. -/
theorem joiner_end (o : Orientation) {state : RtForwarderState} (network : Network)
    (payload : RtPeerHandshake) {events : List RtPeerEvent}
    (h : events = [.connected network, .handshake payload] ∨
      events = [.handshake payload, .connected network]) :
    ∃ state' answer, (linkPass o state events).role = .forwarder state' ∧
      peerMessages (linkPass o state events).actions = [.handshake answer] ∧
      state'.nodeNetwork = (if state.globalState = .withoutNetwork then payload.providedNetwork
        else state.nodeNetwork) ∧
      answer.externalNetwork =
        if events = [.handshake payload, .connected network] then state'.nodeNetwork
        else state.nodeNetwork := by
  rcases h with rfl | rfl
  · by_cases hwithout : state.globalState = .withoutNetwork <;>
      simp [linkPass, dispatchQueue, dispatchPeer, RtRole.ofForwarder,
        Forwarder.Peer.onPeerConnected, Forwarder.Peer.onHandshake, hwithout,
        Forwarder.Peer.handshakeOf, RtAction.peerMessage]
  · by_cases hwithout : state.globalState = .withoutNetwork <;>
      simp [linkPass, dispatchQueue, dispatchPeer, RtRole.ofForwarder,
        Forwarder.Peer.onPeerConnected, Forwarder.Peer.onHandshake, hwithout,
        Forwarder.Peer.handshakeOf, RtAction.peerMessage]

theorem sends_add_iff {table : RtRoutingTable} (sorted : table.Sorted) {network : Network}
    (hzero : ¬ (network.addr = 0 ∧ network.mask = 0)) (o : Orientation) :
    Sends (routingTableAdd table network.addr network.mask o.output) network o ↔
      table.HasRoom (network.addr, network.mask) ∨ Sends table network o := by
  by_cases room : table.HasRoom (network.addr, network.mask)
  · refine iff_of_true ?_ (.inl room)
    intro ip hip longest
    have hmem := sorted.mem_add hzero room o.output
    exact (sorted.add _ _ _).route_entry hmem (by simpa [RtRoutingEntry.covers] using hip) longest
  · rw [sorted.add_full hzero room]
    exact ⟨.inr, fun h => h.resolve_left room⟩

theorem sends_default_iff (table : RtRoutingTable) (network : Network) (o : Orientation) :
    (Sends (routingTableAdd table 0 0 o.output) network o ∧
        (routingTableAdd table 0 0 o.output).defaultGateway = table.defaultGateway) ↔
      table.defaultGateway = o.output ∧ Sends table network o := by
  rw [add_default]
  have hsame : table.defaultGateway = o.output →
      { table with defaultGateway := o.output } = table := fun hgate => by rw [← hgate]
  constructor
  · intro h
    have hgate := h.2.symm
    rw [hsame hgate] at h
    exact ⟨hgate, h.1⟩
  · intro h
    rw [hsame h.1]
    exact ⟨h.2, rfl⟩

/-- Both boards have been given both events and have handled them. -/
theorem Exchange.Inv.done {o : Side → Orientation} {state : Side → RtForwarderState}
    {table : Side → RtRoutingTable} {t : Exchange} {handled : Side → List RtPeerEvent}
    (inv : Exchange.Inv o state table t handled) (done : ∀ side, (t side).Done) (side : Side) :
    handled side = (t side).arrived ∧
      (t side.other).arrived.filter RtPeerEvent.isHandshake =
        peerMessages (linkPass (o side) (state side) (handled side)).actions ∧
      ∃ network payload, (t side).arrived = [.connected network, .handshake payload] ∨
        (t side).arrived = [.handshake payload, .connected network] := by
  have handled_eq : ∀ s, handled s = (t s).arrived := by
    intro s
    rw [(inv.served s).arrived, (done s).2.2, List.append_nil]
  have once : ∀ s, (t s).arrived.countP RtPeerEvent.isConnected = 1 := by
    intro s
    rw [(inv.served s).once, (done s).1]
    rfl
  have sent : ∀ s, (t s.other).arrived.filter RtPeerEvent.isHandshake =
      peerMessages (linkPass (o s) (state s) (handled s)).actions := by
    intro s
    have h := inv.sent s
    rwa [(done s.other).2.1, List.append_nil] at h
  refine ⟨handled_eq side, sent side, (inv.served side).opening.two (once side) ?_⟩
  have hother : side.other.other = side := by cases side <;> rfl
  have hsent := sent side.other
  rw [hother] at hsent
  rw [hsent, (linkPass_messages _ _ (inv.handled_opening side.other)).2.2,
    handled_eq side.other]
  exact once side.other

/-- When all four events have been handled, the joiner is in the provider's network and the
provider routes to it, exactly if the joiner could still be provisioned and

* heard of the provider's network before it told of its own, and the provider's table had room
  for the route or sent those addresses that way already, or
* told of its network first, and the provider's gateway and those addresses went that way
  already. -/
theorem exchange_joined_iff {o : Side → Orientation} {state : Side → RtForwarderState}
    {table : Side → RtRoutingTable} (provider : (state .provider).globalState ≠ .withoutNetwork)
    (offered : (state .provider).deviceNetwork =
      getNodeSubnet (state .provider).nodeNetwork (o .provider))
    (joiner : (state .joiner).nodeNetwork = Network.zero)
    (reached : ∃ gateway, ∃ ops : List TableOp,
      table .provider = ops.foldl TableOp.onTable (routingTableInit gateway))
    {t : Exchange} (run : exchangeMachine.Reaches (Exchange.start o state table) t)
    (done : ∀ side, (t side).Done) :
    t.Joined (o .provider) (state .provider).deviceNetwork (table .provider).defaultGateway ↔
      (state .joiner).globalState = .withoutNetwork ∧
        if (t .joiner).heardFirst then
          (table .provider).HasRoom
              ((state .provider).deviceNetwork.addr, (state .provider).deviceNetwork.mask) ∨
            Sends (table .provider) (state .provider).deviceNetwork (o .provider)
        else
          (table .provider).defaultGateway = (o .provider).output ∧
            Sends (table .provider) (state .provider).deviceNetwork (o .provider) := by
  have sorted : (table .provider).Sorted := by
    obtain ⟨gateway, ops, hops⟩ := reached
    rw [hops]
    exact (RtRoutingTable.Sorted.init gateway).run ops
  generalize hD : (state .provider).deviceNetwork = D at offered ⊢
  have hD0 : D ≠ Network.zero := offered ▸ getNodeSubnet_ne_zero _ _
  have hzero : ¬ (D.addr = 0 ∧ D.mask = 0) := mt Network.eq_zero_iff.mpr hD0
  obtain ⟨handled, inv⟩ : ∃ handled, Exchange.Inv o state table t handled := by
    clear done
    induction run with
    | refl => exact ⟨_, Exchange.start_inv o state table⟩
    | tail _ _ hs ih =>
        obtain ⟨handled, inv⟩ := ih
        exact inv.step hs
  obtain ⟨hhandledP, hsentP, networkP, payloadP, harrivedP⟩ := inv.done done .provider
  obtain ⟨hhandledJ, hsentJ, networkJ, payloadJ, harrivedJ⟩ := inv.done done .joiner
  obtain ⟨hmessageP, htableP⟩ := provider_end (o .provider) provider (table .provider) networkP
    payloadP harrivedP
  obtain ⟨state', answer, hroleJ, hmessageJ, hnetworkJ, hanswer⟩ :=
    @joiner_end (o .joiner) (state .joiner) networkJ payloadJ _ harrivedJ
  rw [hhandledP, hmessageP, Side.other, filter_isHandshake harrivedJ] at hsentP
  rw [hhandledJ, hmessageJ, Side.other, filter_isHandshake harrivedP] at hsentJ
  have hpayloadJ : payloadJ = Forwarder.Peer.handshakeOf (state .provider) := by
    simpa using hsentP
  have hpayloadP : payloadP = answer := by simpa using hsentJ
  have hrole : (t .joiner).board.role = .forwarder state' := by
    rw [(inv.served .joiner).role, hhandledJ, hroleJ]
  have htable : (t .provider).board.routingTable = routingTableAdd (table .provider)
      answer.externalNetwork.addr answer.externalNetwork.mask (o .provider).output := by
    rw [(inv.served .provider).table, hhandledP, htableP, hpayloadP]
  have hjoined : t.Joined (o .provider) D (table .provider).defaultGateway ↔
      state'.nodeNetwork = D ∧
        Sends (t .provider).board.routingTable D (o .provider) ∧
        (t .provider).board.routingTable.defaultGateway = (table .provider).defaultGateway := by
    constructor
    · rintro ⟨state'', hrole', hnode, hsends, hgate⟩
      have heq : state'' = state' := by
        rw [hrole] at hrole'
        exact (RtRole.forwarder.inj hrole').symm
      subst heq
      exact ⟨hnode, hnode ▸ hsends, hgate⟩
    · rintro ⟨hnode, hsends, hgate⟩
      exact ⟨state', hrole, hnode, hnode ▸ hsends, hgate⟩
  rw [hjoined, htable]
  by_cases hwithout : (state .joiner).globalState = .withoutNetwork
  · -- the joiner takes what it is offered, in either order
    rw [if_pos hwithout, hpayloadJ] at hnetworkJ
    have hnode : state'.nodeNetwork = D := hnetworkJ.trans hD
    simp only [hnode, hwithout, true_and]
    rcases harrivedJ with harrived | harrived
    · have hfirst : (t .joiner).heardFirst = false := by simp [LinkEnd.heardFirst, harrived]
      have hexternal : answer.externalNetwork = Network.zero := by
        rw [hanswer, if_neg (by simp [harrived]), joiner]
      rw [hexternal, hfirst]
      exact sends_default_iff (table .provider) D (o .provider)
    · have hfirst : (t .joiner).heardFirst = true := by simp [LinkEnd.heardFirst, harrived]
      have hexternal : answer.externalNetwork = D := by
        rw [hanswer, if_pos harrived, hnode]
      rw [hexternal, hfirst, if_pos rfl, add_defaultGateway hzero, sends_add_iff sorted hzero]
      exact and_iff_left rfl
  · -- a joiner that is past `GLOBAL_STATE_WITHOUT_NETWORK` stays without network
    rw [if_neg hwithout, joiner] at hnetworkJ
    have hnode : state'.nodeNetwork ≠ D := fun h => hD0 (h.symm.trans hnetworkJ)
    simp [hnode, hwithout]

/-! ## Two links to the root's node -/

/-- A north board of the root's node and a south board just started. -/
def rootNorth : Side → RtForwarderState
  | .provider =>
      { createForwarderCore with
        nodeNetwork := ⟨0x0a000000#32, 0xff000000#32⟩
        deviceNetwork := getNodeSubnet ⟨0x0a000000#32, 0xff000000#32⟩ .north
        globalState := .withNetwork
        dtr := 1 }
  | .joiner => createForwarderCore

def northSouth : Side → Orientation
  | .provider => .north
  | .joiner => .south

def startRootNorth : Exchange :=
  .start northSouth rootNorth fun _ => routingTableInit Orientation.center.output

/-- The joiner hears of the network before it is told of its own connection. -/
def providerFirst : List ExchangeLabel :=
  [.connect .provider Network.zero, .enter .provider, .deliver .joiner,
    .connect .joiner Network.zero, .enter .joiner, .deliver .provider, .enter .provider]

/-- The joiner answers the connection at once. -/
def joinerFirst : List ExchangeLabel :=
  [.connect .joiner Network.zero, .enter .joiner, .deliver .provider,
    .connect .provider Network.zero, .enter .provider, .deliver .joiner, .enter .joiner]

theorem providerFirst_runs :
    (exchangeMachine.run startRootNorth providerFirst).isSome = true := by decide

theorem joinerFirst_runs :
    (exchangeMachine.run startRootNorth joinerFirst).isSome = true := by decide

theorem exchange_joined_providerFirst :
    ((exchangeMachine.run startRootNorth providerFirst).get providerFirst_runs).Joined .north
      (getNodeSubnet ⟨0x0a000000#32, 0xff000000#32⟩ .north) Orientation.center.output := by
  refine (@exchange_joined_iff northSouth rootNorth _ (by decide) rfl rfl
    ⟨Orientation.center.output, [], rfl⟩ _
    (Machine.reaches_of_run (Option.some_get providerFirst_runs).symm) ?_).mpr ⟨rfl, ?_⟩
  · intro side
    cases side <;> decide
  · exact .inl (.inl (by decide))

/-- The joiner's 0/0 becomes the provider's default gateway. -/
theorem exchange_gatewayMoved :
    ¬ ∀ (o : Side → Orientation) (state : Side → RtForwarderState)
      (table : Side → RtRoutingTable), (state .provider).globalState ≠ .withoutNetwork →
      (state .provider).deviceNetwork =
        getNodeSubnet (state .provider).nodeNetwork (o .provider) →
      state .joiner = createForwarderCore →
      (∃ gateway, ∃ ops : List TableOp,
        table .provider = ops.foldl TableOp.onTable (routingTableInit gateway)) →
      ∀ t : Exchange, exchangeMachine.Reaches (.start o state table) t →
        (∀ side, (t side).Done) →
        t.Joined (o .provider) (state .provider).deviceNetwork
          (table .provider).defaultGateway := by
  intro h
  have joined := h northSouth rootNorth (fun _ => routingTableInit Orientation.center.output)
    (by decide) rfl rfl ⟨Orientation.center.output, [], rfl⟩ _
    (Machine.reaches_of_run (Option.some_get joinerFirst_runs).symm)
    (by intro side; cases side <;> decide)
  obtain ⟨state, -, -, -, hgate⟩ := joined
  revert hgate
  decide

end I4A
