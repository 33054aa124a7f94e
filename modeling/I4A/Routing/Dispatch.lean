import Mathlib.Data.List.TakeWhile
import I4A.Routing.Handlers

/-! # Event queues and the critical section

`routing.c`. Messages are only checked for their length when they arrive; their
`event_id` is read inside the critical section, by the two switches below. A
callback that the role does not install is skipped, an `event_id` without a case
makes the whole critical section return.
-/

namespace I4A

/-! ## The switches of `on_critical_section` -/

/-- A forwarder callback's result on the role union. -/
def RtRole.ofForwarder (result : RtForwarderState × List RtAction) : RtRole × List RtAction :=
  (.forwarder result.1, result.2)

def RtRole.ofHome (result : RtHomeState × List RtAction) : RtRole × List RtAction :=
  (.home result.1, result.2)

def RtRole.ofRoot (result : RtRootState × List RtAction) : RtRole × List RtAction :=
  (.root result.1, result.2)

open RtRole

/-- The switch on a sibling event; `none` is the `default` case. -/
def dispatchSibl (self : Orientation) (role : RtRole) :
    RtSiblEvent → Option (RtRole × List RtAction)
  | .onStart => some <| match role with
      | .forwarder _ => (role, [])
      | .home state => ofHome (Home.onStart state)
      | .root state => ofRoot (Root.onStart self state)
  | .updateDtr payload => some <| match role with
      | .forwarder state => ofForwarder (Forwarder.Sibling.onUpdateDtr state payload)
      | _ => (role, [])
  | .provision payload => some <| match role with
      | .forwarder state => ofForwarder (Forwarder.Sibling.onProvision self state payload)
      | .home state => ofHome (Home.onProvision self state payload)
      | .root _ => (role, [])
  | .sendNewGatewayRequest payload => some <| match role with
      | .forwarder state => ofForwarder (Forwarder.Sibling.onSendNewGatewayRequest state payload)
      | .home _ => (role, [])
      | .root state => ofRoot (Root.onNewGatewayRequest state payload)
  | .newGatewayWinner payload => some <| match role with
      | .forwarder state => ofForwarder (Forwarder.Sibling.onNewGatewayWinner state payload)
      | _ => (role, [])
  | .unknown _ => none

/-- The switch on a peer event; only forwarders install these callbacks. -/
def dispatchPeer (self : Orientation) (role : RtRole) :
    RtPeerEvent → Option (RtRole × List RtAction)
  | .handshake payload => some <| match role with
      | .forwarder state => ofForwarder (Forwarder.Peer.onHandshake self state payload)
      | _ => (role, [])
  | .updateDtr payload => some <| match role with
      | .forwarder state => ofForwarder (Forwarder.Peer.onUpdateDtr self state payload)
      | _ => (role, [])
  | .newGatewayRequest payload => some <| match role with
      | .forwarder state => ofForwarder (Forwarder.Peer.onNewGatewayRequest self state payload)
      | _ => (role, [])
  | .newGatewayResponse payload => some <| match role with
      | .forwarder state => ofForwarder (Forwarder.Peer.onNewGatewayResponse self state payload)
      | _ => (role, [])
  | .connected _ => some <| match role with
      | .forwarder state => ofForwarder (Forwarder.Peer.onPeerConnected state)
      | _ => (role, [])
  | .lost _ => some <| match role with
      | .forwarder state => ofForwarder (Forwarder.Peer.onPeerLost self state)
      | _ => (role, [])
  | .unknown _ => none

/-- What one loop over a queue leaves behind. -/
structure QueuePass (Event : Type) where
  role : RtRole
  actions : List RtAction
  /-- The events whose case of the switch was taken, in that order. -/
  handled : List Event
  /-- Whether the loop ran to its end, without the `return` of the `default` case. -/
  finished : Bool

/-- One of the two loops of `on_critical_section`. -/
def dispatchQueue {Event : Type} (dispatch : RtRole → Event → Option (RtRole × List RtAction)) :
    RtRole → List Event → QueuePass Event
  | role, [] => ⟨role, [], [], true⟩
  | role, ev :: rest =>
      match dispatch role ev with
      | none => ⟨role, [], [], false⟩
      | some (role', actions) =>
          let others := dispatchQueue dispatch role' rest
          { others with
            actions := actions ++ others.actions
            handled := ev :: others.handled }

/-- An event as the critical section sees it. -/
inductive RtEvent where
  | sibl (event : RtSiblEvent)
  | peer (event : RtPeerEvent)
  deriving DecidableEq

def RtEvent.known : RtEvent → Bool
  | .sibl event => event.known
  | .peer event => event.known

/-- A board after a critical section, with what it sent and what it handled. -/
structure CriticalSection where
  board : Routing
  outputs : List RtOutput
  handled : List RtEvent

/-- `on_critical_section`. Either `default` case leaves both queues as they are. -/
def onCriticalSection (board : Routing) : CriticalSection :=
  let sibl := dispatchQueue (dispatchSibl board.orientation) board.role board.internalQueue
  if sibl.finished then
    let peer := dispatchQueue (dispatchPeer board.orientation) sibl.role board.externalQueue
    let performed := RtAction.performAll board.routingTable (sibl.actions ++ peer.actions)
    let board' := { board with role := peer.role, routingTable := performed.1 }
    { board := if peer.finished then { board' with externalQueue := [], internalQueue := [] }
        else board'
      outputs := performed.2
      handled := sibl.handled.map .sibl ++ peer.handled.map .peer }
  else
    let performed := RtAction.performAll board.routingTable sibl.actions
    { board := { board with role := sibl.role, routingTable := performed.1 }
      outputs := performed.2
      handled := sibl.handled.map .sibl }

/-! ## Arrival of messages -/

/-- `sizeof(rt_sibl_event_t)` and `sizeof(rt_peer_event_t)`: the 4-byte id and the 128
bytes of `hag_networks`. -/
def sizeofRtSiblEvent : Nat := 132
def sizeofRtPeerEvent : Nat := 132

/-- `on_sibling_message`; the flag is the call of `sync_request_critical_section`. -/
def onSiblingMessage (board : Routing) (event : RtSiblEvent) (len : Nat) : Routing × Bool :=
  if maxSiblEventQueued ≤ board.internalQueue.length then (board, false)
  else if sizeofRtSiblEvent ≠ len then (board, false)
  else ({ board with internalQueue := board.internalQueue ++ [event] }, true)

/-- `queue_peer_message`. -/
def queuePeerMessage (board : Routing) (event : RtPeerEvent) : Routing × Bool :=
  if maxPeerEventQueued ≤ board.externalQueue.length then (board, false)
  else ({ board with externalQueue := board.externalQueue ++ [event] }, true)

/-- `on_peer_message`. -/
def onPeerMessage (board : Routing) (event : RtPeerEvent) (len : Nat) : Routing × Bool :=
  if sizeofRtPeerEvent ≠ len then (board, false) else queuePeerMessage board event

/-- `on_peer_connected` and `on_peer_lost` of `routing.c`. -/
def onPeerConnected (board : Routing) (network : Network) : Routing × Bool :=
  queuePeerMessage board (.connected network)

def onPeerLost (board : Routing) (network : Network) : Routing × Bool :=
  queuePeerMessage board (.lost network)

/-! ## Life of a board -/

/-- `rt_create` followed by the init function that installs `role`. -/
def rtCreate (orientation : Orientation) (role : RtRole) : Routing where
  orientation := orientation
  externalQueue := []
  internalQueue := []
  role := role
  routingTable := routingTableInit Orientation.center.output

def rtInitRoot (orientation : Orientation) (rootNetwork rootMask : BitVec 32) : Routing :=
  rtCreate orientation (.root (createRootCore rootNetwork rootMask))

def rtInitHome (orientation : Orientation) : Routing :=
  rtCreate orientation (.home createHomeCore)

def rtInitForwarder (orientation : Orientation) : Routing :=
  rtCreate orientation (.forwarder createForwarderCore)

/-- `rt_on_start`: the first message is written over slot 0. -/
def rtOnStart (board : Routing) : Routing := { board with internalQueue := [.onStart] }

/-- `rt_on_tick`. -/
def rtOnTick (role : RtRole) (dtMs : BitVec 32) : RtRole × List RtAction :=
  match role with
  | .root state => ofRoot (Root.onTick state dtMs)
  | _ => (role, [])

/-- `rt_routing_result_t`. -/
inductive RtRoutingResult where
  | routeNone | routeSpi | routeWifi
  deriving DecidableEq, Repr

/-- `rt_do_route`; `ROUTE_NONE` is declared but never returned. -/
def rtDoRoute (board : Routing) (_srcIp dstIp : BitVec 32) : RtRoutingResult :=
  if routingTableRoute board.routingTable dstIp = board.orientation.output then .routeWifi
  else .routeSpi

/-! ## The loops -/

section Queue

variable {Event : Type} {dispatch : RtRole → Event → Option (RtRole × List RtAction)}

@[simp] theorem dispatchQueue_nil (role : RtRole) :
    dispatchQueue dispatch role [] = ⟨role, [], [], true⟩ := rfl

theorem dispatchQueue_cons_some {role role' : RtRole} {ev : Event} {rest : List Event}
    {actions : List RtAction} (h : dispatch role ev = some (role', actions)) :
    dispatchQueue dispatch role (ev :: rest) =
      { dispatchQueue dispatch role' rest with
        actions := actions ++ (dispatchQueue dispatch role' rest).actions
        handled := ev :: (dispatchQueue dispatch role' rest).handled } := by
  simp only [dispatchQueue, h]

theorem dispatchQueue_cons_none {role : RtRole} {ev : Event} {rest : List Event}
    (h : dispatch role ev = none) :
    dispatchQueue dispatch role (ev :: rest) = ⟨role, [], [], false⟩ := by
  simp only [dispatchQueue, h]

/-- What one event of the queue preserves, the loop preserves: of the role, the calls and the
events handled so far. -/
theorem dispatchQueue_invariant {P : RtRole → List RtAction → List Event → Prop}
    {role : RtRole} {queue : List Event} (start : P role [] [])
    (preserved : ∀ role actions handled ev role' actions', ev ∈ queue → P role actions handled →
      dispatch role ev = some (role', actions') → P role' (actions ++ actions') (handled ++ [ev])) :
    P (dispatchQueue dispatch role queue).role (dispatchQueue dispatch role queue).actions
      (dispatchQueue dispatch role queue).handled := by
  induction queue generalizing role P with
  | nil => exact start
  | cons ev rest ih =>
      cases hd : dispatch role ev with
      | none =>
          rw [dispatchQueue_cons_none hd]
          exact start
      | some result =>
          obtain ⟨role', actions'⟩ := result
          rw [dispatchQueue_cons_some hd]
          have first := preserved role [] [] ev role' actions' List.mem_cons_self start hd
          refine ih (P := fun r as hs => P r (actions' ++ as) (ev :: hs)) (by simpa using first) ?_
          intro r as hs ev' r' as' hev inv hd'
          have next := preserved r (actions' ++ as) (ev :: hs) ev' r' as'
            (List.mem_cons_of_mem _ hev) inv hd'
          rwa [List.append_assoc, List.cons_append] at next

variable {known : Event → Bool}

/-- The loop stops in front of the first event without a case, whatever the roles do. -/
theorem dispatchQueue_handled (hknown : ∀ role ev, (dispatch role ev).isSome = known ev)
    (role : RtRole) (queue : List Event) :
    (dispatchQueue dispatch role queue).handled = queue.takeWhile known ∧
      (dispatchQueue dispatch role queue).finished = queue.all known := by
  induction queue generalizing role with
  | nil => simp
  | cons ev rest ih =>
      cases hd : dispatch role ev with
      | none =>
          have hk : known ev = false := by rw [← hknown role ev, hd]; rfl
          rw [dispatchQueue_cons_none hd]
          simp [hk]
      | some result =>
          have hk : known ev = true := by rw [← hknown role ev, hd]; rfl
          rw [dispatchQueue_cons_some hd]
          simp [hk, ih result.1]

end Queue

theorem dispatchSibl_isSome (self : Orientation) (role : RtRole) (ev : RtSiblEvent) :
    (dispatchSibl self role ev).isSome = ev.known := by cases ev <;> rfl

theorem dispatchPeer_isSome (self : Orientation) (role : RtRole) (ev : RtPeerEvent) :
    (dispatchPeer self role ev).isSome = ev.known := by cases ev <;> rfl

/-! ## What a critical section handles -/

/-- With only known events stored, everything is handled and both queues are cleared. -/
theorem onCriticalSection_known {board : Routing}
    (hs : board.internalQueue.all RtSiblEvent.known = true)
    (hp : board.externalQueue.all RtPeerEvent.known = true) :
    (onCriticalSection board).handled =
        board.internalQueue.map .sibl ++ board.externalQueue.map .peer ∧
      (onCriticalSection board).board.internalQueue = [] ∧
      (onCriticalSection board).board.externalQueue = [] := by
  obtain ⟨hsh, hsf⟩ := dispatchQueue_handled (dispatchSibl_isSome board.orientation)
    board.role board.internalQueue
  rw [hs] at hsf
  obtain ⟨hph, hpf⟩ := dispatchQueue_handled (dispatchPeer_isSome board.orientation)
    (dispatchQueue (dispatchSibl board.orientation) board.role board.internalQueue).role
    board.externalQueue
  rw [hp] at hpf
  simp only [List.all_eq_true] at hs hp
  simp [onCriticalSection, hsf, hpf, hsh, hph, List.takeWhile_eq_self_iff.mpr hs,
    List.takeWhile_eq_self_iff.mpr hp]

/-- With an unknown event stored, neither queue is touched. -/
theorem onCriticalSection_unknown {board : Routing}
    (h : ¬ (board.internalQueue.all RtSiblEvent.known = true ∧
      board.externalQueue.all RtPeerEvent.known = true)) :
    (onCriticalSection board).board.internalQueue = board.internalQueue ∧
      (onCriticalSection board).board.externalQueue = board.externalQueue := by
  obtain ⟨-, hsf⟩ := dispatchQueue_handled (dispatchSibl_isSome board.orientation)
    board.role board.internalQueue
  by_cases hs : board.internalQueue.all RtSiblEvent.known = true
  · obtain ⟨-, hpf⟩ := dispatchQueue_handled (dispatchPeer_isSome board.orientation)
      (dispatchQueue (dispatchSibl board.orientation) board.role board.internalQueue).role
      board.externalQueue
    have hp : board.externalQueue.all RtPeerEvent.known = false :=
      Bool.eq_false_iff.mpr fun hp => h ⟨hs, hp⟩
    rw [hs] at hsf
    rw [hp] at hpf
    simp [onCriticalSection, hsf, hpf]
  · rw [Bool.eq_false_iff.mpr hs] at hsf
    simp [onCriticalSection, hsf]

@[simp] theorem onCriticalSection_orientation (board : Routing) :
    (onCriticalSection board).board.orientation = board.orientation := by
  unfold onCriticalSection
  dsimp only
  split
  · split <;> rfl
  · rfl

end I4A
