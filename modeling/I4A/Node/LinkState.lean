import I4A.Node.Adoption
import I4A.Routing.Wire

/-! # Local link events and peer messages

Both kinds of peer events go through one queue and one switch. The history of a
forwarder keeps what the local link callbacks said, next to what its handlers
made of the queue.
-/

namespace I4A

open Forwarder

/-- A forwarder's board with the history of its link. -/
structure LinkHistory where
  board : Routing
  /-- The last local link callback was `on_peer_connected`. -/
  connected : Bool
  /-- How often the local `on_peer_lost` callback came, and how often the forwarder's
  `on_peer_lost` handler ran. -/
  lostCallbacks : Nat
  lostHandled : Nat

inductive LinkLabel where
  | peerConnected (network : Network)
  | peerLost (network : Network)
  /-- A message of the accepted length, with any bytes. -/
  | peerMessage (m : PeerMessage)
  /-- A message of another board of the node. -/
  | siblingMessage (event : RtSiblEvent)
  | criticalSection

def RtEvent.isLost : RtEvent → Bool
  | .peer (.lost _) => true
  | _ => false

namespace LinkHistory

/-- A forwarder that has run `rt_create`, `rt_init_forwarder` and `rt_on_start`. -/
def start (o : Orientation) : LinkHistory := ⟨rtOnStart (rtInitForwarder o), false, 0, 0⟩

/-- No step makes a queue overflow. -/
def step (t : LinkHistory) : LinkLabel → Option LinkHistory
  | .peerConnected network =>
      if t.board.externalQueue.length < maxPeerEventQueued then
        some { t with board := (onPeerConnected t.board network).1, connected := true }
      else none
  | .peerLost network =>
      if t.board.externalQueue.length < maxPeerEventQueued then
        some { t with
          board := (onPeerLost t.board network).1
          connected := false
          lostCallbacks := t.lostCallbacks + 1 }
      else none
  | .peerMessage m =>
      if t.board.externalQueue.length < maxPeerEventQueued then
        some { t with board := (onPeerMessage t.board m.event m.bytes.length).1 }
      else none
  | .siblingMessage event =>
      if t.board.internalQueue.length < maxSiblEventQueued ∧ event.known = true then
        some { t with board := (onSiblingMessage t.board event sizeofRtSiblEvent).1 }
      else none
  | .criticalSection =>
      some { t with
        board := (onCriticalSection t.board).board
        lostHandled := t.lostHandled +
          (onCriticalSection t.board).handled.countP RtEvent.isLost }

/-- `local_state` of a forwarder. -/
def localState (t : LinkHistory) : Option RtLocalState :=
  match t.board.role with
  | .forwarder state => some state.localState
  | _ => none

def Drained (t : LinkHistory) : Prop :=
  t.board.internalQueue = [] ∧ t.board.externalQueue = []

/-- The link state is what the local callbacks say. -/
structure Local (t : LinkHistory) : Prop where
  state : t.Drained → (t.localState = some .connected ↔ t.connected = true)
  handled : t.Drained → t.lostHandled = t.lostCallbacks
  atMost : t.lostHandled ≤ t.lostCallbacks

end LinkHistory

/-- One forwarder, its link and its peer. -/
def linkMachine : Machine LinkHistory LinkLabel := ⟨LinkHistory.step⟩

/-- The message is none of the local link events, and the switch knows its id. -/
def LinkLabel.honest : LinkLabel → Bool
  | .peerMessage m =>
      match m.event with
      | .connected _ | .lost _ | .unknown _ => false
      | _ => true
  | _ => true

/-! ## What the handlers do to the link state -/

/-- `local_state` after one more event. -/
def linkAfter (s : RtLocalState) : RtEvent → RtLocalState
  | .peer (.connected _) => .connected
  | .peer (.lost _) => .notConnected
  | _ => s

theorem Forwarder.handle_localState (self : Orientation) (state : RtForwarderState)
    (event : RtEvent) :
    (handle self state event).localState = linkAfter state.localState event := by
  cases event with
  | sibl event =>
      cases event with
      | updateDtr event =>
          rw [handle, hear_updateDtr]
          split <;> rfl
      | provision event =>
          simp only [handle, hear, Sibling.onProvision]
          split <;> rfl
      | sendNewGatewayRequest event =>
          rw [handle]
          rcases hear_sendNewGatewayRequest self state event with h | h
          · rw [h]
            rfl
          · rw [h]
            rfl
      | newGatewayWinner event =>
          rw [handle, hear_newGatewayWinner]
          split <;> rfl
      | _ => rfl
  | peer event =>
      cases event with
      | handshake event =>
          simp only [handle, Peer.onHandshake]
          split <;> rfl
      | updateDtr event =>
          simp only [handle, Peer.onUpdateDtr]
          split
          · rfl
          · split <;> rfl
      | newGatewayRequest event =>
          simp only [handle, Peer.onNewGatewayRequest]
          split
          · rfl
          · split <;> rfl
      | newGatewayResponse event =>
          simp only [handle, Peer.onNewGatewayResponse]
          split <;> rfl
      | connected connection => rfl
      | lost connection =>
          simp only [handle, Peer.onPeerLost]
          split <;> rfl
      | unknown id => rfl

theorem dispatchQueue_localState {Event : Type} {o : Orientation} (wrap : Event → RtEvent)
    (state : RtForwarderState) (queue : List Event) :
    let pass := dispatchQueue (fun role event => dispatch o role (wrap event))
      (.forwarder state) queue
    ∃ state', pass.role = .forwarder state' ∧
      state'.localState = (pass.handled.map wrap).foldl linkAfter state.localState := by
  refine dispatchQueue_invariant
    (P := fun role _ handled => ∃ state', role = .forwarder state' ∧
      state'.localState = (handled.map wrap).foldl linkAfter state.localState)
    ⟨state, rfl, rfl⟩ ?_
  intro role actions handled ev role' actions' _ inv hd
  obtain ⟨state', rfl, hlocal⟩ := inv
  refine ⟨handle o state' (wrap ev), dispatch_forwarder hd, ?_⟩
  rw [handle_localState, List.map_append, List.foldl_append, hlocal]
  rfl

theorem foldl_linkAfter_sibl (s : RtLocalState) (events : List RtSiblEvent) :
    (events.map RtEvent.sibl).foldl linkAfter s = s := by
  induction events with
  | nil => rfl
  | cons event rest ih => exact ih

/-- The critical section of a forwarder that has stored known events only. -/
theorem onCriticalSection_link {board : Routing} {state : RtForwarderState}
    (hrole : board.role = .forwarder state)
    (hs : board.internalQueue.all RtSiblEvent.known = true)
    (hp : board.externalQueue.all RtPeerEvent.known = true) :
    ∃ state', (onCriticalSection board).board.role = .forwarder state' ∧
      state'.localState =
        (board.externalQueue.map RtEvent.peer).foldl linkAfter state.localState := by
  obtain ⟨hsh, hsf⟩ := dispatchQueue_handled (dispatchSibl_isSome board.orientation)
    board.role board.internalQueue
  rw [hs, hrole] at hsf
  obtain ⟨middle, hmiddle, hlocal⟩ :=
    dispatchQueue_localState (o := board.orientation) RtEvent.sibl state board.internalQueue
  rw [foldl_linkAfter_sibl] at hlocal
  change (dispatchQueue (dispatchSibl board.orientation) _ _).role = _ at hmiddle
  obtain ⟨state', hstate', hlocal'⟩ :=
    dispatchQueue_localState (o := board.orientation) RtEvent.peer middle board.externalQueue
  change (dispatchQueue (dispatchPeer board.orientation) _ _).role = _ at hstate'
  change _ = ((dispatchQueue (dispatchPeer board.orientation) _ _).handled.map _).foldl _ _
    at hlocal'
  obtain ⟨hph, hpf⟩ := dispatchQueue_handled (dispatchPeer_isSome board.orientation)
    (.forwarder middle) board.externalQueue
  rw [List.takeWhile_eq_self_iff.mpr (by simpa using hp)] at hph
  rw [hph, hlocal] at hlocal'
  refine ⟨state', ?_, hlocal'⟩
  simp only [onCriticalSection, hsf, hrole, hmiddle, if_true]
  split <;> exact hstate'

/-! ## The invariant -/

namespace LinkHistory

/-- The stored peer events bring the link state up to date with the local callbacks, and the
losses among them are those still to be handled. -/
structure Faithful (t : LinkHistory) : Prop where
  role : ∃ state, t.board.role = .forwarder state ∧
    ((t.board.externalQueue.map RtEvent.peer).foldl linkAfter state.localState = .connected ↔
      t.connected = true)
  known : t.board.internalQueue.all RtSiblEvent.known = true ∧
    t.board.externalQueue.all RtPeerEvent.known = true
  losses : t.lostHandled + (t.board.externalQueue.map RtEvent.peer).countP RtEvent.isLost =
    t.lostCallbacks

theorem start_faithful (o : Orientation) : (start o).Faithful where
  role := ⟨createForwarderCore, rfl, by simp [start, rtOnStart, rtInitForwarder, rtCreate,
    createForwarderCore]⟩
  known := ⟨rfl, rfl⟩
  losses := rfl

/-- One more peer event is stored. -/
theorem Faithful.store {t u : LinkHistory} (inv : t.Faithful) {event : RtPeerEvent}
    (hboard : u.board = { t.board with externalQueue := t.board.externalQueue ++ [event] })
    (known : event.known = true)
    (hconnected : ∀ s, (s = .connected ↔ t.connected = true) →
      (linkAfter s (.peer event) = .connected ↔ u.connected = true))
    (hhandled : u.lostHandled = t.lostHandled)
    (hlost : u.lostCallbacks = t.lostCallbacks + [RtEvent.peer event].countP RtEvent.isLost) :
    u.Faithful := by
  obtain ⟨state, hrole, hlink⟩ := inv.role
  refine ⟨⟨state, by rw [hboard]; exact hrole, ?_⟩, ?_, ?_⟩
  · rw [hboard, List.map_append, List.foldl_append]
    exact hconnected _ hlink
  · rw [hboard]
    refine ⟨inv.known.1, ?_⟩
    rw [List.all_append, inv.known.2]
    simp [known]
  · rw [hboard, hhandled, hlost, List.map_append, List.countP_append, ← inv.losses]
    simp only [List.map_cons, List.map_nil]
    omega

theorem queuePeerMessage_room {board : Routing} {event : RtPeerEvent}
    (room : board.externalQueue.length < maxPeerEventQueued) :
    (queuePeerMessage board event).1 =
      { board with externalQueue := board.externalQueue ++ [event] } := by
  rw [queuePeerMessage, if_neg (by omega)]

theorem Faithful.criticalSection {t : LinkHistory} (inv : t.Faithful) :
    Faithful { t with
      board := (onCriticalSection t.board).board
      lostHandled := t.lostHandled +
        (onCriticalSection t.board).handled.countP RtEvent.isLost } := by
  obtain ⟨state, hrole, hlink⟩ := inv.role
  obtain ⟨hhandled, hi, he⟩ := onCriticalSection_known inv.known.1 inv.known.2
  obtain ⟨state', hrole', hlocal⟩ := onCriticalSection_link hrole inv.known.1 inv.known.2
  refine ⟨⟨state', hrole', ?_⟩, ?_, ?_⟩
  · rw [he, List.map_nil, List.foldl_nil, hlocal]
    exact hlink
  · simp [hi, he]
  · have hsibl : (t.board.internalQueue.map RtEvent.sibl).countP RtEvent.isLost = 0 := by
      rw [List.countP_map, List.countP_eq_zero]
      intro event _
      exact Bool.false_ne_true
    rw [he, hhandled, List.countP_append, hsibl, ← inv.losses]
    simp

theorem Faithful.step {t u : LinkHistory} {l : LinkLabel} (inv : t.Faithful)
    (honest : l.honest = true) (hs : t.step l = some u) : u.Faithful := by
  cases l with
  | peerConnected network =>
      simp only [LinkHistory.step] at hs
      split at hs
      · next room =>
        cases hs
        exact inv.store (queuePeerMessage_room room) rfl (fun _ _ => by simp [linkAfter]) rfl rfl
      · cases hs
  | peerLost network =>
      simp only [LinkHistory.step] at hs
      split at hs
      · next room =>
        cases hs
        exact inv.store (queuePeerMessage_room room) rfl (fun _ _ => by simp [linkAfter]) rfl rfl
      · cases hs
  | peerMessage m =>
      simp only [LinkHistory.step] at hs
      split at hs
      · next room =>
        cases hs
        have hboard : (onPeerMessage t.board m.event m.bytes.length).1 =
            { t.board with externalQueue := t.board.externalQueue ++ [m.event] } := by
          rw [onPeerMessage, if_neg (fun h => h m.size.symm), queuePeerMessage_room room]
        have hplain : m.event.known = true ∧ (∀ s, linkAfter s (.peer m.event) = s) ∧
            RtEvent.isLost (.peer m.event) = false := by
          revert honest
          simp only [LinkLabel.honest]
          cases m.event <;> simp [RtPeerEvent.known, linkAfter, RtEvent.isLost]
        refine inv.store hboard hplain.1 (fun s hlink => ?_) rfl ?_
        · rw [hplain.2.1]
          exact hlink
        · simp [hplain.2.2]
      · cases hs
  | siblingMessage event =>
      simp only [LinkHistory.step] at hs
      split at hs
      · next room =>
        cases hs
        have hboard : (onSiblingMessage t.board event sizeofRtSiblEvent).1 =
            { t.board with internalQueue := t.board.internalQueue ++ [event] } := by
          rw [onSiblingMessage, if_neg (Nat.not_le.mpr room.1), if_neg (fun h => h rfl)]
        refine ⟨by simpa only [hboard] using inv.role, ?_, by simpa only [hboard] using inv.losses⟩
        simp only [hboard, List.all_append, inv.known.1, inv.known.2]
        simp [room.2]
      · cases hs
  | criticalSection =>
      cases hs
      exact inv.criticalSection

theorem Faithful.toLocal {t : LinkHistory} (inv : t.Faithful) : t.Local where
  state drained := by
    obtain ⟨state, hrole, hlink⟩ := inv.role
    rw [drained.2] at hlink
    rw [← hlink]
    simp [localState, hrole]
  handled drained := by
    have hlosses := inv.losses
    rw [drained.2] at hlosses
    exact hlosses
  atMost := by
    have hlosses := inv.losses
    omega

end LinkHistory

/-- While the peer sends none but its own four kinds of events, the link state is what the
local callbacks say, in every reachable state. -/
theorem forwarder_linkState (o : Orientation) {t : LinkHistory}
    (run : linkMachine.Executes (fun _ l => l.honest = true) (.start o) t) : t.Local :=
  (run.invariant (LinkHistory.start_faithful o) fun _ _ _ inv honest hs =>
    inv.step honest hs).toLocal

/-- A connection comes up, the peer sends a handshake, and the connection is lost. -/
def honestLink : List LinkLabel :=
  [.criticalSection, .peerConnected Network.zero,
    .peerMessage (.ofEvent (.handshake ⟨Network.zero, ⟨0x0a200000#32, 0xffe00000#32⟩, 1⟩)),
    .criticalSection, .siblingMessage (.updateDtr ⟨2⟩), .peerLost Network.zero, .criticalSection]

theorem honestLink_runs :
    (linkMachine.runWith (fun _ l => l.honest) (.start .north) honestLink).isSome = true := by
  decide +kernel

theorem forwarder_linkState_lost :
    ((linkMachine.runWith (fun _ l => l.honest) (.start .north) honestLink).get
      honestLink_runs).Local :=
  forwarder_linkState .north (Machine.executes_of_runWith (Option.some_get honestLink_runs).symm)

/-- A peer that sends a `PEER_LOST` of its own takes the link down. -/
def forgedLoss : List LinkLabel :=
  [.criticalSection, .peerConnected Network.zero, .criticalSection,
    .peerMessage (.ofEvent (.lost Network.zero)), .criticalSection]

theorem forwarder_forgedLoss :
    ¬ ∀ (o : Orientation) (t : LinkHistory), linkMachine.Reaches (.start o) t → t.Local := by
  intro h
  obtain ⟨t, ht, hforged⟩ : ∃ t, linkMachine.run (.start .north) forgedLoss = some t ∧
      t.lostCallbacks < t.lostHandled := by
    refine ⟨(linkMachine.run (.start .north) forgedLoss).get (by decide +kernel), ?_, ?_⟩
    · simp
    · decide +kernel
  exact Nat.not_le.mpr hforged (h .north t (Machine.reaches_of_run ht)).atMost

end I4A
