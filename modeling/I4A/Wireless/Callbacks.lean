import I4A.Core.Machine
import I4A.Routing.Types

/-! # Wireless callbacks

`callbacks.c` and the read loops of `client.c` and `server.c`. The socket loop
puts link events and messages into two queues; one task each takes them out and
calls the routing module.
-/

namespace I4A

/-- `peer_type_t`. -/
inductive PeerType where
  | client | server
  deriving DecidableEq

/-- `PEER_QUEUE_LENGTH` of both queues; a full one blocks the socket loop. -/
def peerQueueLength : Nat := 5

/-- A connection, by its place among those of the socket loop, with its network. -/
structure Connection where
  number : Nat
  network : Network
  deriving DecidableEq

/-- `peer_event_t`. -/
inductive LinkEvent where
  | connected (c : Connection)
  | lost (c : Connection)
  deriving DecidableEq

/-- A callback of `wireless_callbacks_t`, for the connection it is about. -/
inductive PeerCall where
  | connected (c : Connection)
  | message (c : Connection) (data : List UInt8)
  | lost (c : Connection)
  deriving DecidableEq

/-- Where the socket loop stands. -/
inductive SocketLoop where
  /-- In `accept` or `connect`. -/
  | waiting
  /-- Before `node_on_peer_connected`. -/
  | announcing (c : Connection)
  /-- In `recv`; the client's flag `peer_connected`, always set on the server. -/
  | reading (c : Connection) (peerConnected : Bool)
  /-- Before `node_on_peer_lost`. -/
  | leaving (c : Connection)
  deriving DecidableEq

def SocketLoop.connection : SocketLoop → Option Connection
  | .waiting => none
  | .announcing c | .reading c _ | .leaving c => some c

structure WirelessTasks where
  loop : SocketLoop
  /-- How many connections there have been. -/
  opened : Nat
  peerEventQueue : List LinkEvent
  peerMessageQueue : List (Connection × List UInt8)
  /-- What `peer_event_task` has taken and delays, and `peer_message_task` likewise. -/
  peerEventTask : Option LinkEvent
  peerMessageTask : Option (Connection × List UInt8)
  /-- The callbacks so far. -/
  calls : List PeerCall

inductive WirelessLabel where
  /-- A connection is accepted or made. -/
  | openConnection (network : Network)
  | announce
  /-- `recv` returns data. -/
  | receive (data : List UInt8)
  /-- `recv` fails or returns 0. -/
  | close
  | lose
  | takeEvent
  | callEvent
  | takeMessage
  | callMessage
  deriving DecidableEq

def LinkEvent.call : LinkEvent → PeerCall
  | .connected c => .connected c
  | .lost c => .lost c

namespace WirelessTasks

def start : WirelessTasks := ⟨.waiting, 0, [], [], none, none, []⟩

/-- The server announces a connection at once, the client after its first message. -/
def afterOpen (side : PeerType) (c : Connection) : SocketLoop :=
  match side with
  | .server => .announcing c
  | .client => .reading c false

def step (side : PeerType) (t : WirelessTasks) : WirelessLabel → Option WirelessTasks
  | .openConnection network =>
      if t.loop = .waiting then
        some { t with loop := afterOpen side ⟨t.opened, network⟩, opened := t.opened + 1 }
      else none
  | .announce =>
      match t.loop with
      | .announcing c =>
          if t.peerEventQueue.length < peerQueueLength then
            some { t with
              loop := .reading c true
              peerEventQueue := t.peerEventQueue ++ [.connected c] }
          else none
      | _ => none
  | .receive data =>
      match t.loop with
      | .reading c peerConnected =>
          if t.peerMessageQueue.length < peerQueueLength then
            some { t with
              loop := if peerConnected then .reading c true else .announcing c
              peerMessageQueue := t.peerMessageQueue ++ [(c, data)] }
          else none
      | _ => none
  | .close =>
      match t.loop with
      | .reading c peerConnected =>
          some { t with loop := if peerConnected then .leaving c else .waiting }
      | _ => none
  | .lose =>
      match t.loop with
      | .leaving c =>
          if t.peerEventQueue.length < peerQueueLength then
            some { t with
              loop := .waiting
              peerEventQueue := t.peerEventQueue ++ [.lost c] }
          else none
      | _ => none
  | .takeEvent =>
      match t.peerEventTask, t.peerEventQueue with
      | none, event :: rest => some { t with peerEventTask := some event, peerEventQueue := rest }
      | _, _ => none
  | .callEvent =>
      t.peerEventTask.map fun event =>
        { t with peerEventTask := none, calls := t.calls ++ [event.call] }
  | .takeMessage =>
      match t.peerMessageTask, t.peerMessageQueue with
      | none, m :: rest => some { t with peerMessageTask := some m, peerMessageQueue := rest }
      | _, _ => none
  | .callMessage =>
      t.peerMessageTask.map fun m =>
        { t with peerMessageTask := none, calls := t.calls ++ [.message m.1 m.2] }

/-- Events and messages whose callback is still to come. -/
def events (t : WirelessTasks) : List LinkEvent := t.peerEventTask.toList ++ t.peerEventQueue

def messages (t : WirelessTasks) : List (Connection × List UInt8) :=
  t.peerMessageTask.toList ++ t.peerMessageQueue

/-- The contract of `wireless.h`: a message callback comes after the connected callback of its
connection and before the lost callback. -/
def Ordered (calls : List PeerCall) : Prop :=
  ∀ before c data after, calls = before ++ .message c data :: after →
    .connected c ∈ before ∧ .lost c ∉ before

/-- `peer_message_task` calls back only when the connected event is not waiting any more, and
`peer_event_task` reports a loss only when no message of the connection is waiting. -/
def orderly (t : WirelessTasks) : WirelessLabel → Bool
  | .callEvent =>
      match t.peerEventTask with
      | some (.lost c) => t.messages.all fun m => m.1 ≠ c
      | _ => true
  | .callMessage =>
      match t.peerMessageTask with
      | some (c, _) => t.loop ≠ .announcing c ∧ .connected c ∉ t.events
      | none => true
  | _ => true

end WirelessTasks

/-- The socket loop of one side with the two tasks. -/
def wirelessTasks (side : PeerType) : Machine WirelessTasks WirelessLabel :=
  ⟨WirelessTasks.step side⟩

namespace WirelessTasks

theorem ordered_nil : Ordered [] := by
  intro before c data after h
  cases before <;> cases h

theorem Ordered.append {calls : List PeerCall} (h : Ordered calls) {call : PeerCall}
    (last : ∀ c data, call = .message c data → .connected c ∈ calls ∧ .lost c ∉ calls) :
    Ordered (calls ++ [call]) := by
  intro before c data after hsplit
  rcases List.eq_nil_or_concat after with rfl | ⟨after', call', rfl⟩
  · obtain ⟨hbefore, hcall⟩ := List.append_inj' hsplit rfl
    rw [List.cons.injEq] at hcall
    subst hbefore
    exact last c data hcall.1
  · have hsplit' : calls ++ [call] = (before ++ .message c data :: after') ++ [call'] := by
      simpa using hsplit
    obtain ⟨hcalls, -⟩ := List.append_inj' hsplit' rfl
    exact h before c data after' hcalls

/-- What ties the callbacks so far to the queues and the socket loop. -/
structure Tracked (t : WirelessTasks) : Prop where
  current : ∀ c, t.loop.connection = some c → c.number < t.opened
  /-- A lost connection is over for the socket loop. -/
  gone : ∀ c, .lost c ∈ t.events ∨ .lost c ∈ t.calls →
    c.number < t.opened ∧ t.loop.connection ≠ some c
  /-- Whoever is past the announcement has announced. -/
  announced : ∀ c, (t.loop = .reading c true ∨ t.loop = .leaving c ∨
      ∃ data, (c, data) ∈ t.messages) →
    t.loop = .announcing c ∨ .connected c ∈ t.events ∨ .connected c ∈ t.calls
  /-- No message is left once the loss has been reported. -/
  drained : ∀ c, .lost c ∈ t.calls → ∀ data, (c, data) ∉ t.messages
  ordered : Ordered t.calls

theorem start_tracked : start.Tracked where
  current c h := by cases h
  gone c h := by simp [start, events] at h
  announced c h := by simp [start, messages] at h
  drained c h := by simp [start] at h
  ordered := ordered_nil

namespace Tracked

variable {side : PeerType} {t u : WirelessTasks}

theorem openConnection (inv : t.Tracked) (network : Network) (waiting : t.loop = .waiting) :
    Tracked { t with
      loop := afterOpen side ⟨t.opened, network⟩, opened := t.opened + 1 } where
  current c h := by
    have hc : c = ⟨t.opened, network⟩ := by
      cases side <;> simpa [afterOpen, SocketLoop.connection, eq_comm] using h
    simp [hc]
  gone c h := by
    have hlt : c.number < t.opened := (inv.gone c h).1
    refine ⟨Nat.lt_succ_of_lt hlt, fun hc => ?_⟩
    have hc' : c = ⟨t.opened, network⟩ := by
      cases side <;> simpa [afterOpen, SocketLoop.connection, eq_comm] using hc
    rw [hc'] at hlt
    exact Nat.lt_irrefl _ hlt
  announced c h := by
    right
    have hmessage : ∃ data, (c, data) ∈ t.messages := by
      rcases h with h | h | h
      · cases side <;> simp [afterOpen] at h
      · cases side <;> simp [afterOpen] at h
      · exact h
    have hold := inv.announced c (.inr (.inr hmessage))
    rw [waiting] at hold
    exact hold.resolve_left (by simp)
  drained := inv.drained
  ordered := inv.ordered

theorem announce (inv : t.Tracked) {c : Connection} (hloop : t.loop = .announcing c) :
    Tracked { t with
      loop := .reading c true, peerEventQueue := t.peerEventQueue ++ [.connected c] } where
  current c' h := inv.current c' (by rw [hloop]; exact h)
  gone c' h := by
    have hold : .lost c' ∈ t.events ∨ .lost c' ∈ t.calls := by
      simpa [events, or_assoc] using h
    have hover := inv.gone c' hold
    rw [hloop] at hover
    exact hover
  announced c' h := by
    right
    by_cases hc : c' = c
    · subst hc
      exact .inl (by simp [events])
    · have hmessage : ∃ data, (c', data) ∈ t.messages := by
        rcases h with h | h | h
        · injection h with h
          exact absurd h.symm hc
        · cases h
        · exact h
      rcases inv.announced c' (.inr (.inr hmessage)) with hold | hold | hold
      · rw [hloop] at hold
        injection hold with hold
        exact absurd hold.symm hc
      · refine .inl ?_
        simp only [events, List.mem_append] at hold ⊢
        exact hold.imp_right .inl
      · exact .inr hold
  drained := inv.drained
  ordered := inv.ordered

theorem receive (inv : t.Tracked) {c : Connection} {peerConnected : Bool} (data : List UInt8)
    (hloop : t.loop = .reading c peerConnected) :
    Tracked { t with
      loop := if peerConnected then .reading c true else .announcing c
      peerMessageQueue := t.peerMessageQueue ++ [(c, data)] } where
  current c' h := by
    refine inv.current c' ?_
    rw [hloop]
    cases peerConnected <;> exact h
  gone c' h := by
    have hover := inv.gone c' h
    rw [hloop] at hover
    cases peerConnected <;> exact hover
  announced c' h := by
    have hmessage : c' = c ∨ ∃ data, (c', data) ∈ t.messages := by
      rcases h with h | h | ⟨data', h⟩
      · cases peerConnected
        · cases h
        · injection h with h
          exact .inl h.symm
      · cases peerConnected <;> cases h
      · simp only [messages, List.mem_append, List.mem_singleton, Prod.mk.injEq] at h
        rcases h with h | h | h
        · exact .inr ⟨data', List.mem_append_left _ h⟩
        · exact .inr ⟨data', List.mem_append_right _ h⟩
        · exact .inl h.1
    rcases hmessage with rfl | hmessage
    · cases peerConnected with
      | false => exact .inl rfl
      | true =>
          have hold := inv.announced c' (.inl hloop)
          rw [hloop] at hold
          exact .inr (hold.resolve_left (by simp))
    · have hold := inv.announced c' (.inr (.inr hmessage))
      rw [hloop] at hold
      exact .inr (hold.resolve_left (by simp))
  drained c' h data' hdata := by
    simp only [messages, List.mem_append, List.mem_singleton, Prod.mk.injEq] at hdata
    rcases hdata with hdata | hdata | ⟨rfl, -⟩
    · exact inv.drained c' h data' (List.mem_append_left _ hdata)
    · exact inv.drained c' h data' (List.mem_append_right _ hdata)
    · exact (inv.gone c' (.inr h)).2 (by rw [hloop]; rfl)
  ordered := inv.ordered

theorem close (inv : t.Tracked) {c : Connection} {peerConnected : Bool}
    (hloop : t.loop = .reading c peerConnected) :
    Tracked { t with loop := if peerConnected then .leaving c else .waiting } where
  current c' h := by
    refine inv.current c' ?_
    rw [hloop]
    cases peerConnected
    · cases h
    · exact h
  gone c' h := by
    have hover := inv.gone c' h
    rw [hloop] at hover
    cases peerConnected
    · exact ⟨hover.1, by simp [SocketLoop.connection]⟩
    · exact hover
  announced c' h := by
    right
    have hsource : t.loop = .reading c' true ∨ ∃ data, (c', data) ∈ t.messages := by
      rcases h with h | h | h
      · cases peerConnected <;> cases h
      · cases peerConnected
        · cases h
        · injection h with h
          exact .inl (by rw [hloop, h])
      · exact .inr h
    have hold := inv.announced c' (hsource.imp_right .inr)
    rw [hloop] at hold
    exact hold.resolve_left (by simp)
  drained := inv.drained
  ordered := inv.ordered

theorem lose (inv : t.Tracked) {c : Connection} (hloop : t.loop = .leaving c) :
    Tracked { t with
      loop := .waiting, peerEventQueue := t.peerEventQueue ++ [.lost c] } where
  current c' h := by cases h
  gone c' h := by
    refine ⟨?_, by simp [SocketLoop.connection]⟩
    have hold : c' = c ∨ .lost c' ∈ t.events ∨ .lost c' ∈ t.calls := by
      simp only [events, List.mem_append, List.mem_singleton, LinkEvent.lost.injEq] at h ⊢
      tauto
    rcases hold with rfl | hold
    · exact inv.current c' (by rw [hloop]; rfl)
    · exact (inv.gone c' hold).1
  announced c' h := by
    right
    have hmessage : ∃ data, (c', data) ∈ t.messages := by
      rcases h with h | h | h
      · cases h
      · cases h
      · exact h
    have hold := inv.announced c' (.inr (.inr hmessage))
    rw [hloop] at hold
    refine (hold.resolve_left (by simp)).imp_left fun hevent => ?_
    simp only [events, List.mem_append] at hevent ⊢
    exact hevent.imp_right .inl
  drained := inv.drained
  ordered := inv.ordered

/-- Taking an event out of its queue, or a message, moves nothing but the head. -/
theorem take (inv : t.Tracked) (hevents : u.events = t.events) (hmessages : u.messages = t.messages)
    (hloop : u.loop = t.loop) (hopened : u.opened = t.opened) (hcalls : u.calls = t.calls) :
    u.Tracked where
  current := by
    rw [hloop, hopened]
    exact inv.current
  gone := by
    rw [hevents, hcalls, hloop, hopened]
    exact inv.gone
  announced := by
    rw [hevents, hcalls, hloop, hmessages]
    exact inv.announced
  drained := by
    rw [hcalls, hmessages]
    exact inv.drained
  ordered := by
    rw [hcalls]
    exact inv.ordered

theorem callEvent (inv : t.Tracked) {event : LinkEvent} (htask : t.peerEventTask = some event)
    (hlost : ∀ c, event = .lost c → ∀ data, (c, data) ∉ t.messages) :
    Tracked { t with peerEventTask := none, calls := t.calls ++ [event.call] } := by
  have hevents : t.events = event :: t.peerEventQueue := by simp [events, htask]
  refine ⟨inv.current, fun c h => inv.gone c ?_, fun c h => ?_, fun c h => ?_, ?_⟩
  · rw [hevents]
    simp only [events, Option.toList_none, List.nil_append, List.mem_append,
      List.mem_singleton] at h
    rcases h with h | h | h
    · exact .inl (List.mem_cons_of_mem _ h)
    · exact .inr h
    · cases event with
      | connected c' => cases h
      | lost c' =>
          injection h with h
          subst h
          exact .inl List.mem_cons_self
  · refine (inv.announced c h).imp_right fun hold => ?_
    rw [hevents, List.mem_cons] at hold
    simp only [events, Option.toList_none, List.nil_append, List.mem_append,
      List.mem_singleton]
    rcases hold with (hold | hold) | hold
    · subst hold
      exact .inr (.inr rfl)
    · exact .inl hold
    · exact .inr (.inl hold)
  · rw [List.mem_append, List.mem_singleton] at h
    rcases h with h | h
    · exact inv.drained c h
    · cases event with
      | connected c' => cases h
      | lost c' =>
          injection h with h
          subst h
          exact hlost c rfl
  · refine inv.ordered.append fun c data h => ?_
    cases event <;> cases h

theorem callMessage (inv : t.Tracked) {c : Connection} {data : List UInt8}
    (htask : t.peerMessageTask = some (c, data)) (hloop : t.loop ≠ .announcing c)
    (hevent : .connected c ∉ t.events) :
    Tracked { t with peerMessageTask := none, calls := t.calls ++ [.message c data] } := by
  have hmessages : t.messages = (c, data) :: t.peerMessageQueue := by simp [messages, htask]
  have hmem : (c, data) ∈ t.messages := by simp [hmessages]
  have hsub : ∀ m, m ∈ t.peerMessageQueue → m ∈ t.messages := fun m hm => by
    rw [hmessages]
    exact List.mem_cons_of_mem _ hm
  refine ⟨inv.current, fun c' h => inv.gone c' (by simpa [events] using h), fun c' h => ?_,
    fun c' h data' hdata => ?_, ?_⟩
  · have hold := inv.announced c' <| h.imp_right fun h => h.imp_right fun ⟨data', hdata⟩ =>
      ⟨data', hsub _ (by simpa [messages] using hdata)⟩
    exact hold.imp_right fun hold => hold.imp_right (List.mem_append_left _)
  · exact inv.drained c' (by simpa using h) data' (hsub _ (by simpa [messages] using hdata))
  · refine inv.ordered.append fun c' data' h => ?_
    injection h with hc hdata
    subst hc
    refine ⟨?_, fun hlost => inv.drained c hlost data hmem⟩
    rcases inv.announced c (.inr (.inr ⟨data, hmem⟩)) with hold | hold | hold
    · exact absurd hold hloop
    · exact absurd hold hevent
    · exact hold

theorem step {l : WirelessLabel} (inv : t.Tracked) (horderly : t.orderly l = true)
    (hs : t.step side l = some u) : u.Tracked := by
  cases l with
  | openConnection network =>
      simp only [WirelessTasks.step] at hs
      split at hs
      · next hloop =>
        cases hs
        exact inv.openConnection network hloop
      · cases hs
  | announce =>
      simp only [WirelessTasks.step] at hs
      split at hs
      · next c hloop =>
        split at hs
        · cases hs
          exact inv.announce hloop
        · cases hs
      · cases hs
  | receive data =>
      simp only [WirelessTasks.step] at hs
      split at hs
      · next c peerConnected hloop =>
        split at hs
        · cases hs
          exact inv.receive data hloop
        · cases hs
      · cases hs
  | close =>
      simp only [WirelessTasks.step] at hs
      split at hs
      · next c peerConnected hloop =>
        cases hs
        exact inv.close hloop
      · cases hs
  | lose =>
      simp only [WirelessTasks.step] at hs
      split at hs
      · next c hloop =>
        split at hs
        · cases hs
          exact inv.lose hloop
        · cases hs
      · cases hs
  | takeEvent =>
      simp only [WirelessTasks.step] at hs
      split at hs
      · next event rest htask hqueue =>
        cases hs
        exact inv.take (by simp [events, htask, hqueue]) rfl rfl rfl rfl
      · cases hs
  | callEvent =>
      obtain ⟨event, htask, rfl⟩ := Option.map_eq_some_iff.mp hs
      refine inv.callEvent htask fun c hc data hdata => ?_
      simp only [orderly, htask, hc, List.all_eq_true, decide_eq_true_eq] at horderly
      exact horderly _ hdata rfl
  | takeMessage =>
      simp only [WirelessTasks.step] at hs
      split at hs
      · next m rest htask hqueue =>
        cases hs
        exact inv.take rfl (by simp [messages, htask, hqueue]) rfl rfl rfl
      · cases hs
  | callMessage =>
      obtain ⟨⟨c, data⟩, htask, rfl⟩ := Option.map_eq_some_iff.mp hs
      simp only [orderly, htask, decide_eq_true_eq] at horderly
      exact inv.callMessage htask horderly.1 horderly.2

end Tracked

end WirelessTasks

/-- In a run whose tasks wait for each other as `orderly` says, every message callback comes
after the connected callback of its connection and before the lost callback. -/
theorem wirelessCallbacks_ordered (side : PeerType) {t : WirelessTasks}
    (run : (wirelessTasks side).Executes (fun t l => t.orderly l = true) .start t) :
    WirelessTasks.Ordered t.calls :=
  (run.invariant WirelessTasks.start_tracked fun _ _ _ inv horderly hs =>
    inv.step horderly hs).ordered

/-- A connection of the client with two messages. -/
def clientConnection : List WirelessLabel :=
  [.openConnection ⟨0x0a200000#32, 0xfffffffc#32⟩, .receive [1], .announce, .takeMessage,
    .takeEvent, .callEvent, .receive [2], .callMessage, .close, .lose, .takeMessage, .takeEvent,
    .callMessage, .callEvent]

theorem clientConnection_runs :
    ((wirelessTasks .client).runWith (fun t l => t.orderly l) .start clientConnection).isSome =
      true := by decide

theorem wirelessCallbacks_ordered_client :
    WirelessTasks.Ordered (((wirelessTasks .client).runWith (fun t l => t.orderly l) .start
      clientConnection).get clientConnection_runs).calls :=
  wirelessCallbacks_ordered .client
    (Machine.executes_of_runWith (Option.some_get clientConnection_runs).symm)

/-- The first message of the client overtakes the connected event. -/
theorem wirelessCallbacks_messageFirst :
    ¬ ∀ (side : PeerType) (t : WirelessTasks), (wirelessTasks side).Reaches .start t →
      WirelessTasks.Ordered t.calls := by
  intro h
  obtain ⟨t, ht, hcalls⟩ : ∃ t, (wirelessTasks .client).run .start
      [.openConnection Network.zero, .receive [1], .takeMessage, .callMessage] = some t ∧
      t.calls = [.message ⟨0, Network.zero⟩ [1]] := ⟨_, rfl, rfl⟩
  have ordered := h .client t (Machine.reaches_of_run ht)
  have hconnected := (ordered [] ⟨0, Network.zero⟩ [1] [] hcalls).1
  cases hconnected

end I4A
