import I4A.Core.Machine
import I4A.Routing.Dispatch

/-! # Exactly-once dispatch

Runs of one board over arrivals and critical sections, with a history of what
was stored since the last critical section and of what each of them handled.
-/

namespace I4A

/-- An arrival or a critical section, each taken as atomic. -/
inductive DispatchStep where
  | siblingMessage (event : RtSiblEvent) (len : Nat)
  | peerMessage (event : RtPeerEvent) (len : Nat)
  | peerConnected (network : Network)
  | peerLost (network : Network)
  | criticalSection

/-- History of one critical section. -/
structure Session where
  /-- The events stored since the critical section before it. -/
  siblStored : List RtSiblEvent
  peerStored : List RtPeerEvent
  /-- The events it handled. -/
  handled : List RtEvent
  /-- The queues after it. -/
  siblLeft : List RtSiblEvent
  peerLeft : List RtPeerEvent
  deriving DecidableEq

namespace Session

/-- What the law asks of one critical section. -/
def ExactlyOnce (s : Session) : Prop :=
  s.handled = (s.siblStored.filter (·.known)).map .sibl ++
      (s.peerStored.filter (·.known)).map .peer ∧
    s.siblLeft = [] ∧ s.peerLeft = []

/-- Every event stored since the critical section before it has a known id. -/
def AllKnown (s : Session) : Prop :=
  s.siblStored.all (·.known) = true ∧ s.peerStored.all (·.known) = true

instance (s : Session) : Decidable s.ExactlyOnce := by unfold ExactlyOnce; infer_instance

instance (s : Session) : Decidable s.AllKnown := by unfold AllKnown; infer_instance

end Session

/-- A board with its history. -/
structure Recorded where
  board : Routing
  siblStored : List RtSiblEvent
  peerStored : List RtPeerEvent
  sessions : List Session

namespace Recorded

/-- A board on which `rt_on_start` has stored the first event. -/
def start (orientation : Orientation) (role : RtRole) : Recorded where
  board := rtOnStart (rtCreate orientation role)
  siblStored := [.onStart]
  peerStored := []
  sessions := []

/-- Store a sibling event, if the board does. -/
def storeSibl (t : Recorded) (event : RtSiblEvent) (result : Routing × Bool) : Recorded :=
  { t with
    board := result.1
    siblStored := if result.2 then t.siblStored ++ [event] else t.siblStored }

def storePeer (t : Recorded) (event : RtPeerEvent) (result : Routing × Bool) : Recorded :=
  { t with
    board := result.1
    peerStored := if result.2 then t.peerStored ++ [event] else t.peerStored }

/-- The session that the critical section of the present board adds to the history. -/
def session (t : Recorded) : Session where
  siblStored := t.siblStored
  peerStored := t.peerStored
  handled := (onCriticalSection t.board).handled
  siblLeft := (onCriticalSection t.board).board.internalQueue
  peerLeft := (onCriticalSection t.board).board.externalQueue

def step (t : Recorded) : DispatchStep → Recorded
  | .siblingMessage event len => t.storeSibl event (onSiblingMessage t.board event len)
  | .peerMessage event len => t.storePeer event (onPeerMessage t.board event len)
  | .peerConnected network => t.storePeer (.connected network) (onPeerConnected t.board network)
  | .peerLost network => t.storePeer (.lost network) (onPeerLost t.board network)
  | .criticalSection =>
      { board := (onCriticalSection t.board).board
        siblStored := []
        peerStored := []
        sessions := t.sessions ++ [t.session] }

end Recorded

/-- Every step is enabled at any time. -/
def dispatchMachine : Machine Recorded DispatchStep := ⟨fun t l => some (t.step l)⟩

/-! ## Storing -/

theorem onSiblingMessage_cases (board : Routing) (event : RtSiblEvent) (len : Nat) :
    onSiblingMessage board event len = (board, false) ∨
      onSiblingMessage board event len =
        ({ board with internalQueue := board.internalQueue ++ [event] }, true) := by
  unfold onSiblingMessage
  split
  · exact .inl rfl
  · split
    · exact .inl rfl
    · exact .inr rfl

theorem queuePeerMessage_cases (board : Routing) (event : RtPeerEvent) :
    queuePeerMessage board event = (board, false) ∨
      queuePeerMessage board event =
        ({ board with externalQueue := board.externalQueue ++ [event] }, true) := by
  unfold queuePeerMessage
  split
  · exact .inl rfl
  · exact .inr rfl

theorem onPeerMessage_cases (board : Routing) (event : RtPeerEvent) (len : Nat) :
    onPeerMessage board event len = (board, false) ∨
      onPeerMessage board event len =
        ({ board with externalQueue := board.externalQueue ++ [event] }, true) := by
  unfold onPeerMessage
  split
  · exact .inl rfl
  · exact queuePeerMessage_cases board event

/-! ## One critical section -/

namespace Recorded

/-- The queues hold exactly what was stored since the last critical section. -/
def Fresh (t : Recorded) : Prop :=
  t.board.internalQueue = t.siblStored ∧ t.board.externalQueue = t.peerStored

theorem Fresh.session_known {t : Recorded} (fresh : t.Fresh) (known : t.session.AllKnown) :
    t.session.ExactlyOnce := by
  obtain ⟨hs, hp⟩ := known
  change t.siblStored.all _ = true at hs
  change t.peerStored.all _ = true at hp
  have hs' : t.board.internalQueue.all RtSiblEvent.known = true := by rw [fresh.1]; exact hs
  have hp' : t.board.externalQueue.all RtPeerEvent.known = true := by rw [fresh.2]; exact hp
  obtain ⟨hhandled, hi, he⟩ := onCriticalSection_known hs' hp'
  have hsf : t.siblStored.filter (·.known) = t.siblStored :=
    List.filter_eq_self.mpr (List.all_eq_true.mp hs)
  have hpf : t.peerStored.filter (·.known) = t.peerStored :=
    List.filter_eq_self.mpr (List.all_eq_true.mp hp)
  refine ⟨?_, hi, he⟩
  rw [fresh.1, fresh.2] at hhandled
  change (onCriticalSection t.board).handled = _
  rw [hhandled]
  change _ = (t.siblStored.filter _).map _ ++ (t.peerStored.filter _).map _
  rw [hsf, hpf]

theorem Fresh.session_unknown {t : Recorded} (fresh : t.Fresh)
    (unknown : ¬ t.session.AllKnown) : ¬ t.session.ExactlyOnce := by
  rintro ⟨-, hsl, hpl⟩
  have hq : ¬ (t.board.internalQueue.all RtSiblEvent.known = true ∧
      t.board.externalQueue.all RtPeerEvent.known = true) := by
    rw [fresh.1, fresh.2]
    exact unknown
  obtain ⟨hi, he⟩ := onCriticalSection_unknown hq
  have hempty : t.board.internalQueue = [] := hi.symm.trans hsl
  have hempty' : t.board.externalQueue = [] := he.symm.trans hpl
  exact hq (by simp [hempty, hempty'])

/-- Until an unknown event is stored, the queues are fresh and every critical section has
been exact; from the first one on, some critical section is not. -/
def Settled (t : Recorded) : Prop :=
  ((∀ s ∈ t.sessions, s.AllKnown) → t.Fresh ∧ ∀ s ∈ t.sessions, s.ExactlyOnce) ∧
    ((∀ s ∈ t.sessions, s.ExactlyOnce) → ∀ s ∈ t.sessions, s.AllKnown)

theorem Settled.storeSibl {t : Recorded} (inv : t.Settled) {event : RtSiblEvent}
    {result : Routing × Bool} (hr : result = (t.board, false) ∨
      result = ({ t.board with internalQueue := t.board.internalQueue ++ [event] }, true)) :
    (t.storeSibl event result).Settled := by
  refine ⟨fun known => ⟨?_, (inv.1 known).2⟩, inv.2⟩
  obtain ⟨hi, he⟩ := (inv.1 known).1
  rcases hr with rfl | rfl
  · exact ⟨hi, he⟩
  · exact ⟨congrArg (· ++ [event]) hi, he⟩

theorem Settled.storePeer {t : Recorded} (inv : t.Settled) {event : RtPeerEvent}
    {result : Routing × Bool} (hr : result = (t.board, false) ∨
      result = ({ t.board with externalQueue := t.board.externalQueue ++ [event] }, true)) :
    (t.storePeer event result).Settled := by
  refine ⟨fun known => ⟨?_, (inv.1 known).2⟩, inv.2⟩
  obtain ⟨hi, he⟩ := (inv.1 known).1
  rcases hr with rfl | rfl
  · exact ⟨hi, he⟩
  · exact ⟨hi, congrArg (· ++ [event]) he⟩

theorem Settled.criticalSection {t : Recorded} (inv : t.Settled) :
    (t.step .criticalSection).Settled := by
  have hmem : ∀ (P : Session → Prop),
      (∀ s ∈ (t.step .criticalSection).sessions, P s) ↔
        (∀ s ∈ t.sessions, P s) ∧ P t.session := by
    intro P
    simp only [step, List.mem_append, List.mem_singleton]
    constructor
    · intro h
      exact ⟨fun s hs => h s (.inl hs), h _ (.inr rfl)⟩
    · rintro ⟨h, hlast⟩ s (hs | rfl)
      · exact h s hs
      · exact hlast
  refine ⟨fun known => ?_, fun exact' => ?_⟩
  · obtain ⟨hold, hnew⟩ := (hmem _).mp known
    obtain ⟨fresh, hexact⟩ := inv.1 hold
    have hnow := fresh.session_known hnew
    exact ⟨⟨hnow.2.1, hnow.2.2⟩, (hmem _).mpr ⟨hexact, hnow⟩⟩
  · obtain ⟨hold, hnew⟩ := (hmem _).mp exact'
    have known := inv.2 hold
    have fresh := (inv.1 known).1
    refine (hmem _).mpr ⟨known, ?_⟩
    by_contra hunknown
    exact fresh.session_unknown hunknown hnew

theorem Settled.step {t : Recorded} (inv : t.Settled) (l : DispatchStep) :
    (t.step l).Settled := by
  cases l with
  | siblingMessage event len =>
      exact inv.storeSibl (onSiblingMessage_cases t.board event len)
  | peerMessage event len => exact inv.storePeer (onPeerMessage_cases t.board event len)
  | peerConnected network => exact inv.storePeer (queuePeerMessage_cases t.board _)
  | peerLost network => exact inv.storePeer (queuePeerMessage_cases t.board _)
  | criticalSection => exact inv.criticalSection

theorem start_settled (o : Orientation) (role : RtRole) : (start o role).Settled :=
  ⟨fun _ => ⟨⟨rfl, rfl⟩, by simp [start]⟩, by simp [start]⟩

theorem Settled.run {o : Orientation} {role : RtRole} {t : Recorded}
    (run : dispatchMachine.Reaches (start o role) t) : t.Settled :=
  run.invariant (start_settled o role) fun s l u inv _ hs => by
    cases hs
    exact inv.step l

end Recorded

/-! ## Runs -/

/-- Every critical section of a run handles what was stored since the last one, once and in
order, and leaves empty queues, exactly if no event with an unknown id was stored. -/
theorem dispatch_exactlyOnce_iff (o : Orientation) (role : RtRole) {t : Recorded}
    (run : dispatchMachine.Reaches (Recorded.start o role) t) :
    (∀ s ∈ t.sessions, s.ExactlyOnce) ↔ ∀ s ∈ t.sessions, s.AllKnown :=
  have inv := Recorded.Settled.run run
  ⟨inv.2, fun known => (inv.1 known).2⟩

/-- Two critical sections around a handshake and a sibling event. -/
def handshakeRun : List DispatchStep :=
  [.peerMessage (.handshake ⟨Network.zero, ⟨0x0a200000#32, 0xffe00000#32⟩, 1⟩)
      sizeofRtPeerEvent,
    .criticalSection, .siblingMessage (.updateDtr ⟨2⟩) sizeofRtSiblEvent, .criticalSection]

/-- A forwarder that stores a sibling event and a peer event with id 0. -/
def unknownRun : List DispatchStep :=
  [.criticalSection, .siblingMessage (.updateDtr ⟨2⟩) sizeofRtSiblEvent,
    .peerMessage (.unknown ⟨0, .inl rfl⟩) sizeofRtPeerEvent, .criticalSection, .criticalSection]

/-- The history of a north forwarder after a run. -/
def northAfter (ls : List DispatchStep) : Recorded :=
  ls.foldl Recorded.step (Recorded.start .north (.forwarder createForwarderCore))

theorem reaches_foldl (t : Recorded) (ls : List DispatchStep) :
    dispatchMachine.Reaches t (ls.foldl Recorded.step t) := by
  induction ls generalizing t with
  | nil => exact .refl t
  | cons l ls ih =>
      have first : dispatchMachine.Reaches t (t.step l) := .single trivial rfl
      exact first.trans (ih (t.step l))

theorem dispatch_exactlyOnce_handshake :
    (northAfter handshakeRun).sessions.all (decide ·.ExactlyOnce) = true := by
  have all := (dispatch_exactlyOnce_iff .north (.forwarder createForwarderCore)
    (reaches_foldl _ handshakeRun)).mpr (by decide)
  exact List.all_eq_true.mpr fun s hs => decide_eq_true (all s hs)

/-- One unknown peer event makes the third critical section handle the sibling event of the
second one again. -/
theorem dispatch_exactlyOnce_replayed :
    ¬ ∀ (o : Orientation) (role : RtRole) (t : Recorded),
      dispatchMachine.Reaches (Recorded.start o role) t → ∀ s ∈ t.sessions, s.ExactlyOnce := by
  intro h
  have replayed := h .north (.forwarder createForwarderCore) _ (reaches_foldl _ unknownRun)
  revert replayed
  decide

example : (northAfter unknownRun).sessions.map (·.handled) =
    [[.sibl .onStart], [.sibl (.updateDtr ⟨2⟩)], [.sibl (.updateDtr ⟨2⟩)]] := by decide

end I4A
