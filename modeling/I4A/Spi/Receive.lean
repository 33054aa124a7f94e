import I4A.Core.Recorder
import I4A.Core.Sweep
import I4A.Spi.Buffers

/-! # What a board receives

The frames that a board's SPI slave receives, and what becomes of them behind the pointers that go
through `spi_rx_queue` and the two queues of `ring_link.c`. The queues are long enough for all
buffers, and a buffer is written only while it is in no queue: the payloads of each kind are handled
as they arrived, in order.
-/

namespace I4A

/-- What happened so far: the frames of the finished transactions, and the payloads whose handler
has returned, as they were when it was called. -/
structure SpiLog where
  arrived : List RingLinkPayload
  handled : RingLinkQueue → List RingLinkPayload

def SpiLog.empty : SpiLog := ⟨[], fun _ => []⟩

def SpiLog.handle (log : SpiLog) (queue : RingLinkQueue) (p : RingLinkPayload) : SpiLog :=
  { log with handled := Function.update log.handled queue (log.handled queue ++ [p]) }

theorem SpiLog.handle_self (log : SpiLog) (queue : RingLinkQueue) (p : RingLinkPayload) :
    (log.handle queue p).handled queue = log.handled queue ++ [p] :=
  Function.update_self ..

theorem SpiLog.handle_of_ne (log : SpiLog) {queue queue' : RingLinkQueue} (h : queue' ≠ queue)
    (p : RingLinkPayload) : (log.handle queue p).handled queue' = log.handled queue' :=
  Function.update_of_ne h ..

/-- The buffers that `process_payload` has not dropped. -/
def RingLinkProcessTask.pending : RingLinkProcessTask → List SpiBuffer
  | .checking b => [b]
  | .sending b _ => [b]
  | _ => []

def RingLinkProcessTask.sendsTo (queue : RingLinkQueue) : RingLinkProcessTask → List SpiBuffer
  | .sending b queue' => if queue' = queue then [b] else []
  | _ => []

/-- How many steps the task and a handler have in front of them at most with the buffer. -/
def RingLinkProcessTask.work : RingLinkProcessTask → Nat
  | .waiting => 0
  | .dropping _ => 1
  | .sending _ _ => 3
  | .checking _ => 4

namespace SpiRing

variable (t : SpiRing)

def queue : RingLinkQueue → List SpiBuffer
  | .internal => t.internalQueue
  | .espNetif => t.netifQueue

def handler : RingLinkQueue → Option SpiBuffer
  | .internal => t.internalHandler
  | .espNetif => t.netifHandler

/-- The buffers that wait for the handler of a queue, the first to come first. -/
def behind (queue : RingLinkQueue) : List SpiBuffer :=
  t.queue queue ++ t.process.pending ++ t.spiRxQueue

/-- The buffers on the way to the handler and in it. -/
def pipe (queue : RingLinkQueue) : List SpiBuffer := (t.handler queue).toList ++ t.behind queue

/-- The buffers that have passed `process_payload`. -/
def ahead (queue : RingLinkQueue) : List SpiBuffer :=
  (t.handler queue).toList ++ t.queue queue ++ t.process.sendsTo queue

/-- A task of `ring_link.c` frees the buffer that its handler has had. -/
def returns (queue : RingLinkQueue) (log : SpiLog) : SpiLog :=
  match t.handler queue with
  | some b => log.handle queue (t.bufferPool b)
  | none => log

def note : SpiLabel → SpiLog → SpiLog
  | .transaction p, log => { log with arrived := log.arrived ++ [p] }
  | .internalFrees _, log => t.returns .internal log
  | .netifFrees _, log => t.returns .espNetif log
  | _, log => log

end SpiRing

/-- The machine with its log. -/
def receivingMachine (espCrc32Le : BitVec 32 → List UInt8 → BitVec 32) :
    Machine (SpiRing × SpiLog) SpiLabel :=
  (spiMachine espCrc32Le).recording SpiRing.note

/-- The steps of `ring_link_process_task` and of the two handler tasks. -/
def SpiLabel.ofRingLink : SpiLabel → Bool
  | .processReceive | .processCheck | .processSend | .processTimeout | .processFrees
  | .internalReceive | .internalFrees _ | .netifReceive | .netifFrees _ => true
  | _ => false

namespace SpiRing

section Receive

variable (espCrc32Le : BitVec 32 → List UInt8 → BitVec 32)

/-- `process_payload` puts the payload into the queue. -/
def goesTo (queue : RingLinkQueue) (p : RingLinkPayload) : Bool :=
  processPayload espCrc32Le p = some queue

/-- The payloads on the way to the handlers of a queue. -/
def waiting (t : SpiRing) (queue : RingLinkQueue) : List RingLinkPayload :=
  ((t.pipe queue).map t.bufferPool).filter (goesTo espCrc32Le queue)

structure Receives (s : SpiRing × SpiLog) : Prop where
  inv : s.1.Inv
  sorted : ∀ queue, ∀ b ∈ s.1.ahead queue, goesTo espCrc32Le queue (s.1.bufferPool b) = true
  inOrder : ∀ queue, s.2.arrived.filter (goesTo espCrc32Le queue) =
    s.2.handled queue ++ s.1.waiting espCrc32Le queue

end Receive

variable {espCrc32Le : BitVec 32 → List UInt8 → BitVec 32} {s u : SpiRing × SpiLog}
  {t t' : SpiRing} {b : SpiBuffer} {p : RingLinkPayload} {queue : RingLinkQueue}

/-! ## Buffers on the way -/

def handlerPlace : RingLinkQueue → SpiPlace
  | .internal => .internalHandler
  | .espNetif => .netifHandler

def queuePlace : RingLinkQueue → SpiPlace
  | .internal => .internal
  | .espNetif => .netif

theorem held_handlerPlace (t : SpiRing) (queue : RingLinkQueue) :
    t.held (handlerPlace queue) = (t.handler queue).toList := by
  cases queue <;> rfl

theorem held_queuePlace (t : SpiRing) (queue : RingLinkQueue) :
    t.held (queuePlace queue) = t.queue queue := by
  cases queue <;> rfl

theorem pending_subset (task : RingLinkProcessTask) : task.pending ⊆ task.buffer := by
  cases task <;> simp [RingLinkProcessTask.pending, RingLinkProcessTask.buffer]

theorem sendsTo_subset (task : RingLinkProcessTask) (queue : RingLinkQueue) :
    task.sendsTo queue ⊆ task.pending := by
  cases task with
  | sending b queue' =>
      simp only [RingLinkProcessTask.sendsTo, RingLinkProcessTask.pending]
      split <;> simp
  | _ => simp [RingLinkProcessTask.sendsTo]

theorem ahead_subset (t : SpiRing) (queue : RingLinkQueue) : t.ahead queue ⊆ t.pipe queue := by
  intro b hb
  simp only [ahead, pipe, behind, List.mem_append] at hb ⊢
  rcases hb with (hb | hb) | hb
  · exact .inl hb
  · exact .inr (.inl (.inl hb))
  · exact .inr (.inl (.inr (sendsTo_subset _ _ hb)))

theorem Inv.not_mem_behind (inv : t.Inv) {place : SpiPlace} (hb : b ∈ t.held place)
    (hqueue : place ≠ queuePlace queue) (hprocessing : place ≠ .processing)
    (hrx : place ≠ .rx) : b ∉ t.behind queue := by
  intro h
  simp only [behind, List.mem_append, ← held_queuePlace] at h
  rcases h with (h | h) | h
  · exact inv.once.not_mem hb hqueue h
  · exact inv.once.not_mem hb hprocessing (pending_subset _ h)
  · exact inv.once.not_mem hb hrx h

theorem Inv.not_mem_pipe (inv : t.Inv) {place : SpiPlace} (hb : b ∈ t.held place)
    (hhandler : place ≠ handlerPlace queue) (hqueue : place ≠ queuePlace queue)
    (hprocessing : place ≠ .processing) (hrx : place ≠ .rx) : b ∉ t.pipe queue := by
  intro h
  simp only [pipe, List.mem_append, ← held_handlerPlace] at h
  rcases h with h | h
  · exact inv.once.not_mem hb hhandler h
  · exact inv.not_mem_behind hb hqueue hprocessing hrx h

/-- No queue is ever full: the buffer to be sent is missing there. -/
theorem Inv.room (inv : t.Inv) (target : SpiPlace) {place : SpiPlace} (hb : b ∈ t.held place)
    (hne : place ≠ target) : (t.held target).length < numBuffers := by
  have hlt := inv.once.length_lt hb hne
  rwa [Fintype.card_fin] at hlt

theorem free_eq (t : SpiRing) (b : SpiBuffer) :
    ∃ free failed, t.free b = { t with freeBufQueue := free, failedFrees := failed } := by
  unfold SpiRing.free
  split
  · exact ⟨_, _, rfl⟩
  · exact ⟨_, _, rfl⟩

/-! ## One step -/

theorem waiting_congr (hpipe : t'.pipe queue = t.pipe queue)
    (hpool : ∀ b ∈ t.pipe queue, t'.bufferPool b = t.bufferPool b) :
    t'.waiting espCrc32Le queue = t.waiting espCrc32Le queue := by
  unfold waiting
  rw [hpipe, List.map_congr_left hpool]

theorem waiting_drop {l rest : List SpiBuffer} (hpipe : t.pipe queue = l ++ [b] ++ rest)
    (hpipe' : t'.pipe queue = l ++ rest) (hpool : t'.bufferPool = t.bufferPool)
    (hb : goesTo espCrc32Le queue (t.bufferPool b) = false) :
    t'.waiting espCrc32Le queue = t.waiting espCrc32Le queue := by
  unfold waiting
  rw [hpipe, hpipe', hpool]
  simp [hb]

theorem Receives.quiet {log : SpiLog} (h : Receives espCrc32Le (t, log)) (inv : t'.Inv)
    (waits : ∀ queue, t'.waiting espCrc32Le queue = t.waiting espCrc32Le queue)
    (sorted : ∀ queue, ∀ b ∈ t'.ahead queue,
      goesTo espCrc32Le queue (t'.bufferPool b) = true) : Receives espCrc32Le (t', log) where
  inv := inv
  sorted := sorted
  inOrder queue := by
    rw [waits queue]
    exact h.inOrder queue

theorem Receives.same {log : SpiLog} (h : Receives espCrc32Le (t, log)) (inv : t'.Inv)
    (hpipe : ∀ queue, t'.pipe queue = t.pipe queue)
    (hahead : ∀ queue, t'.ahead queue = t.ahead queue)
    (hpool : ∀ queue, ∀ b ∈ t.pipe queue, t'.bufferPool b = t.bufferPool b) :
    Receives espCrc32Le (t', log) := by
  refine h.quiet inv (fun queue => waiting_congr (hpipe queue) (hpool queue)) ?_
  intro queue b hb
  rw [hahead] at hb
  rw [hpool queue b (ahead_subset t queue hb)]
  exact h.sorted queue b hb

theorem Inv.transaction_write (inv : t.Inv) (hb : t.polling.buffer = [b]) (p : RingLinkPayload) :
    ∀ a ∈ t.pipe queue, Function.update t.bufferPool b p a = t.bufferPool a := by
  have hheld : b ∈ t.held .transaction := by
    show b ∈ t.polling.buffer
    rw [hb]
    exact List.mem_singleton_self b
  have hnot : b ∉ t.pipe queue := by
    cases queue <;> exact inv.not_mem_pipe hheld (by decide) (by decide) (by decide) (by decide)
  intro a ha
  refine Function.update_of_ne ?_ _ _
  rintro rfl
  exact hnot ha

/-- A frame arrives. -/
theorem Receives.arrive {log : SpiLog} (h : Receives espCrc32Le (t, log))
    (hb : t.polling = .transmitting b) (inv : t'.Inv)
    (hpipe : ∀ queue, t'.pipe queue = t.pipe queue ++ [b])
    (hahead : ∀ queue, t'.ahead queue = t.ahead queue)
    (hpool : t'.bufferPool = Function.update t.bufferPool b p) :
    Receives espCrc32Le (t', { log with arrived := log.arrived ++ [p] }) := by
  have hwrite : ∀ queue, ∀ a ∈ t.pipe queue, t'.bufferPool a = t.bufferPool a := by
    intro queue
    rw [hpool]
    exact h.inv.transaction_write (congrArg SpiPollingTask.buffer hb) p
  constructor
  · exact inv
  · intro queue a ha
    change a ∈ t'.ahead queue at ha
    rw [hahead] at ha
    change goesTo espCrc32Le queue (t'.bufferPool a) = true
    rw [hwrite queue a (ahead_subset t queue ha)]
    exact h.sorted queue a ha
  · intro queue
    have hwaits : t'.waiting espCrc32Le queue =
        t.waiting espCrc32Le queue ++ [p].filter (goesTo espCrc32Le queue) := by
      unfold waiting
      rw [hpipe, List.map_append, List.filter_append, List.map_congr_left (hwrite queue),
        List.map_singleton, hpool, Function.update_self]
    change (log.arrived ++ [p]).filter (goesTo espCrc32Le queue) =
      log.handled queue ++ t'.waiting espCrc32Le queue
    rw [List.filter_append, hwaits, ← List.append_assoc]
    exact congrArg (· ++ [p].filter (goesTo espCrc32Le queue)) (h.inOrder queue)

/-- A handler returns, whatever it has left in its buffer. -/
theorem Receives.return {log : SpiLog} (h : Receives espCrc32Le (t, log))
    (hb : t.handler queue = some b) (inv : t'.Inv) (hhandler : t'.handler queue = none)
    (hother : ∀ queue', queue' ≠ queue → t'.handler queue' = t.handler queue')
    (hqueue : t'.queue = t.queue) (hprocess : t'.process = t.process)
    (hrx : t'.spiRxQueue = t.spiRxQueue)
    (hpool : t'.bufferPool = Function.update t.bufferPool b p) :
    Receives espCrc32Le (t', log.handle queue (t.bufferPool b)) := by
  have hheld : b ∈ t.held (handlerPlace queue) := by
    rw [held_handlerPlace, hb]
    exact List.mem_singleton_self b
  have hbehind : t'.behind = t.behind := by
    funext queue'
    simp [behind, hqueue, hprocess, hrx]
  have hpipe : t.pipe queue = b :: t'.pipe queue := by simp [pipe, hb, hhandler, hbehind]
  have hsame : ∀ queue', queue' ≠ queue → t'.pipe queue' = t.pipe queue' := by
    intro queue' hne
    simp [pipe, hother queue' hne, hbehind]
  have hahead : ∀ queue', t'.ahead queue' ⊆ t.ahead queue' := by
    intro queue' a ha
    by_cases hne : queue' = queue
    · subst hne
      simp only [ahead, hhandler, hqueue, hprocess, Option.toList_none, List.nil_append] at ha
      simp only [ahead, List.append_assoc]
      exact List.mem_append_right _ ha
    · rwa [ahead, hother queue' hne, hqueue, hprocess] at ha
  -- the buffer is nowhere else on the way
  have hnot : ∀ queue', b ∉ t'.pipe queue' := by
    intro queue'
    by_cases hne : queue' = queue
    · subst hne
      rw [pipe, hhandler, hbehind]
      cases queue' <;> exact h.inv.not_mem_behind hheld (by decide) (by decide) (by decide)
    · rw [hsame queue' hne]
      cases queue <;> cases queue' <;> first
        | exact absurd rfl hne
        | exact h.inv.not_mem_pipe hheld (by decide) (by decide) (by decide) (by decide)
  have hwrite : ∀ queue', ∀ a ∈ t'.pipe queue', t'.bufferPool a = t.bufferPool a := by
    intro queue' a ha
    rw [hpool]
    refine Function.update_of_ne ?_ _ _
    rintro rfl
    exact hnot queue' ha
  constructor
  · exact inv
  · intro queue' a ha
    change goesTo espCrc32Le queue' (t'.bufferPool a) = true
    rw [hwrite queue' a (ahead_subset t' queue' ha)]
    exact h.sorted queue' a (hahead queue' ha)
  · intro queue'
    have hwaits : t'.waiting espCrc32Le queue' =
        ((t'.pipe queue').map t.bufferPool).filter (goesTo espCrc32Le queue') := by
      unfold waiting
      rw [List.map_congr_left (hwrite queue')]
    refine (h.inOrder queue').trans ?_
    change log.handled queue' ++ t.waiting espCrc32Le queue' =
      (log.handle queue (t.bufferPool b)).handled queue' ++ t'.waiting espCrc32Le queue'
    rw [hwaits]
    by_cases hne : queue' = queue
    · subst hne
      have hgoes : goesTo espCrc32Le queue' (t.bufferPool b) = true := by
        refine h.sorted queue' b ?_
        simp [ahead, hb]
      rw [SpiLog.handle_self, waiting, hpipe, List.map_cons, List.filter_cons_of_pos hgoes,
        List.append_assoc, List.singleton_append]
    · rw [SpiLog.handle_of_ne _ hne, hsame queue' hne, waiting]

theorem goesTo_other {queue' : RingLinkQueue} (h : goesTo espCrc32Le queue p = true)
    (hne : queue' ≠ queue) : goesTo espCrc32Le queue' p = false := by
  have hp : processPayload espCrc32Le p = some queue := of_decide_eq_true h
  simp only [goesTo, hp, Option.some.injEq, decide_eq_false_iff_not]
  exact fun heq => hne heq.symm

/-- The task goes on with a buffer that it keeps or drops. -/
theorem Receives.process {log : SpiLog} (h : Receives espCrc32Le (t, log))
    {task : RingLinkProcessTask} (inv : ({ t with process := task } : SpiRing).Inv)
    (pending : task.pending = t.process.pending ∨ ∃ b, t.process.pending = [b] ∧
      task.pending = [] ∧ ∀ queue, goesTo espCrc32Le queue (t.bufferPool b) = false)
    (sends : ∀ queue, ∀ b ∈ task.sendsTo queue,
      goesTo espCrc32Le queue (t.bufferPool b) = true) :
    Receives espCrc32Le ({ t with process := task }, log) := by
  refine h.quiet inv (fun queue => ?_) ?_
  · have hold : t.pipe queue = ((t.handler queue).toList ++ t.queue queue) ++ t.process.pending ++
        t.spiRxQueue := by
      simp [pipe, behind]
    have hnew : ({ t with process := task } : SpiRing).pipe queue =
        ((t.handler queue).toList ++ t.queue queue) ++ task.pending ++ t.spiRxQueue := by
      simp only [pipe, behind, ← List.append_assoc]
      rfl
    rcases pending with hsame | ⟨b, hb, hnone, hdropped⟩
    · refine waiting_congr ?_ fun _ _ => rfl
      rw [hold, hnew, hsame]
    · rw [hb] at hold
      rw [hnone, List.append_nil] at hnew
      exact waiting_drop hold hnew rfl (hdropped queue)
  · intro queue b hb
    have hb' : b ∈ (t.handler queue).toList ++ t.queue queue ++ task.sendsTo queue := hb
    rcases List.mem_append.mp hb' with hb' | hb'
    · exact h.sorted queue b (List.mem_append_left _ hb')
    · exact sends queue b hb'

/-- `process_payload` looks at its payload. -/
theorem Receives.check {log : SpiLog} (h : Receives espCrc32Le (t, log))
    (hs : t.step espCrc32Le .processCheck = some t') : Receives espCrc32Le (t', log) := by
  have inv := h.inv.processCheck hs
  simp only [step] at hs
  split at hs
  next b hprocess =>
    split at hs
    next queue hgoes =>
      cases hs
      refine h.process inv (.inl (by rw [hprocess]; rfl)) fun queue' a ha => ?_
      simp only [RingLinkProcessTask.sendsTo] at ha
      split at ha
      next heq =>
        rw [List.mem_singleton.mp ha, goesTo, hgoes, heq]
        exact decide_eq_true rfl
      next => cases ha
    next hdropped =>
      cases hs
      refine h.process inv (.inr ⟨b, by rw [hprocess]; rfl, rfl, fun queue => ?_⟩) fun _ _ ha => ?_
      · simp [goesTo, hdropped]
      · cases ha
  next => cases hs

/-- `xQueueSend` to the queue of the payload. -/
theorem Receives.send {log : SpiLog} (h : Receives espCrc32Le (t, log))
    (hprocess : t.process = .sending b queue) (inv : t'.Inv)
    (hqueue : t'.queue queue = t.queue queue ++ [b])
    (hother : ∀ queue', queue' ≠ queue → t'.queue queue' = t.queue queue')
    (hhandler : t'.handler = t.handler) (hwaiting : t'.process = .waiting)
    (hrx : t'.spiRxQueue = t.spiRxQueue) (hpool : t'.bufferPool = t.bufferPool) :
    Receives espCrc32Le (t', log) := by
  have hgoes : goesTo espCrc32Le queue (t.bufferPool b) = true := by
    refine h.sorted queue b (List.mem_append_right _ ?_)
    change b ∈ t.process.sendsTo queue
    simp [hprocess, RingLinkProcessTask.sendsTo]
  refine h.quiet inv (fun queue' => ?_) fun queue' a ha => ?_
  · by_cases hne : queue' = queue
    · subst hne
      refine waiting_congr ?_ fun _ _ => congrFun hpool _
      simp [pipe, behind, hhandler, hqueue, hwaiting, hprocess, hrx, RingLinkProcessTask.pending]
    · have hold : t.pipe queue' =
          ((t.handler queue').toList ++ t.queue queue') ++ [b] ++ t.spiRxQueue := by
        simp [pipe, behind, hprocess, RingLinkProcessTask.pending]
      have hnew : t'.pipe queue' =
          ((t.handler queue').toList ++ t.queue queue') ++ t.spiRxQueue := by
        simp [pipe, behind, hhandler, hother queue' hne, hwaiting, hrx,
          RingLinkProcessTask.pending]
      exact waiting_drop hold hnew hpool (goesTo_other hgoes hne)
  · rw [hpool]
    simp only [ahead, hhandler, hwaiting, RingLinkProcessTask.sendsTo, List.append_nil] at ha
    by_cases hne : queue' = queue
    · subst hne
      rw [hqueue, ← List.append_assoc] at ha
      rcases List.mem_append.mp ha with ha | ha
      · exact h.sorted queue' a (List.mem_append_left _ ha)
      · rw [List.mem_singleton.mp ha]
        exact hgoes
    · rw [hother queue' hne] at ha
      exact h.sorted queue' a (List.mem_append_left _ ha)

/-- The two queues have room for the buffer. -/
theorem Inv.processTimeout_none (inv : t.Inv) : t.step espCrc32Le .processTimeout = none := by
  rw [SpiRing.step]
  split
  next b hprocess =>
    have hb : b ∈ t.held .processing := by
      show b ∈ t.process.buffer
      simp [hprocess, RingLinkProcessTask.buffer]
    have hroom : t.internalQueue.length < numBuffers :=
      inv.room .internal hb (by decide)
    rw [if_pos (hroom.trans (by decide))]
  next b hprocess =>
    have hb : b ∈ t.held .processing := by
      show b ∈ t.process.buffer
      simp [hprocess, RingLinkProcessTask.buffer]
    have hroom : t.netifQueue.length < numBuffers :=
      inv.room .netif hb (by decide)
    rw [if_pos (hroom.trans (by decide))]
  next => rfl

theorem Inv.transaction_taken (inv : t.Inv)
    (hs : t.step espCrc32Le (.transaction p) = some t') : t'.polling = .transmitted := by
  simp only [SpiRing.step] at hs
  split at hs
  next b hpolling =>
    have hb : b ∈ t.held .transaction := by
      show b ∈ t.polling.buffer
      simp [hpolling, SpiPollingTask.buffer]
    have hroom : t.spiRxQueue.length < numBuffers := inv.room .rx hb (by decide)
    rw [if_pos hroom] at hs
    cases hs
    rfl
  next => cases hs

/-- What the machine does with its log, one step. -/
theorem Receives.step {label : SpiLabel} (h : Receives espCrc32Le s)
    (hs : (receivingMachine espCrc32Le).step s label = some u) : Receives espCrc32Le u := by
  obtain ⟨t, log⟩ := s
  obtain ⟨t', log'⟩ := u
  obtain ⟨hstep, hlog⟩ := Machine.recording_step.mp hs
  change t.step espCrc32Le label = some t' at hstep
  change log' = t.note label log at hlog
  subst hlog
  have inv := h.inv.step hstep
  cases label with
  | pollReceive =>
      simp only [SpiRing.step] at hstep
      split at hstep
      · cases hstep
        exact h.same inv (fun _ => rfl) (fun _ => rfl) fun _ _ _ => rfl
      · cases hstep
  | transaction p =>
      simp only [SpiRing.step] at hstep
      split at hstep
      next b hpolling =>
        have hb : b ∈ t.held .transaction := by
          show b ∈ t.polling.buffer
          simp [hpolling, SpiPollingTask.buffer]
        have hroom : t.spiRxQueue.length < numBuffers :=
          h.inv.room .rx hb (by decide)
        rw [if_pos hroom] at hstep
        cases hstep
        refine h.arrive hpolling inv (fun queue => ?_) (fun _ => rfl) rfl
        simp only [pipe, behind, List.append_assoc]
        rfl
      next => cases hstep
  | callbackFrees =>
      simp only [SpiRing.step] at hstep
      split at hstep
      · cases hstep
        obtain ⟨free, failed, hfree⟩ := free_eq _ _
        rw [hfree] at inv ⊢
        exact h.same inv (fun _ => rfl) (fun _ => rfl) fun _ _ _ => rfl
      · cases hstep
  | transmitFails p =>
      simp only [SpiRing.step] at hstep
      split at hstep
      next b hpolling =>
        cases hstep
        refine h.same inv (fun _ => rfl) (fun _ => rfl) fun _ => ?_
        exact h.inv.transaction_write (congrArg SpiPollingTask.buffer hpolling) p
      next => cases hstep
  | transmitReturns =>
      simp only [SpiRing.step] at hstep
      split at hstep
      · cases hstep
        exact h.same inv (fun _ => rfl) (fun _ => rfl) fun _ _ _ => rfl
      · cases hstep
  | pollFrees =>
      simp only [SpiRing.step] at hstep
      split at hstep
      · cases hstep
        obtain ⟨free, failed, hfree⟩ := free_eq _ _
        rw [hfree] at inv ⊢
        exact h.same inv (fun _ => rfl) (fun _ => rfl) fun _ _ _ => rfl
      · cases hstep
  | processReceive =>
      simp only [SpiRing.step] at hstep
      split at hstep
      next b rest hprocess hrx =>
        cases hstep
        refine h.same inv (fun queue => ?_) (fun queue => ?_) fun _ _ _ => rfl
        · rw [pipe, pipe, behind, behind, hprocess, hrx]
          simp only [RingLinkProcessTask.pending, List.append_assoc, List.nil_append,
            List.singleton_append]
          rfl
        · rw [ahead, ahead, hprocess]
          rfl
      next => cases hstep
  | processCheck => exact h.check hstep
  | processSend =>
      simp only [SpiRing.step] at hstep
      split at hstep
      next b hprocess =>
        split at hstep
        · cases hstep
          refine h.send hprocess inv rfl (fun queue' hne => ?_) (funext fun _ => rfl) rfl rfl rfl
          cases queue' with
          | internal => exact absurd rfl hne
          | espNetif => rfl
        · cases hstep
      next b hprocess =>
        split at hstep
        · cases hstep
          refine h.send hprocess inv rfl (fun queue' hne => ?_) (funext fun _ => rfl) rfl rfl rfl
          cases queue' with
          | internal => rfl
          | espNetif => exact absurd rfl hne
        · cases hstep
      next => cases hstep
  | processTimeout =>
      rw [h.inv.processTimeout_none] at hstep
      cases hstep
  | processFrees =>
      simp only [SpiRing.step] at hstep
      split at hstep
      next b hprocess =>
        cases hstep
        obtain ⟨free, failed, hfree⟩ := free_eq { t with process := .waiting } b
        rw [hfree] at inv ⊢
        refine h.same inv (fun queue => ?_) (fun queue => ?_) fun _ _ _ => rfl
        · rw [pipe, pipe, behind, behind, hprocess]
          rfl
        · rw [ahead, ahead, hprocess]
          rfl
      next => cases hstep
  | internalReceive =>
      simp only [SpiRing.step] at hstep
      split at hstep
      next b rest hhandler hqueue =>
        cases hstep
        refine h.same inv (fun queue => ?_) (fun queue => ?_) fun _ _ _ => rfl
        · cases queue <;> simp [pipe, behind, handler, SpiRing.queue, hhandler, hqueue]
        · cases queue <;> simp [ahead, handler, SpiRing.queue, hhandler, hqueue]
      next => cases hstep
  | internalFrees p =>
      simp only [SpiRing.step] at hstep
      split at hstep
      next b hhandler =>
        cases hstep
        have hlog : t.note (.internalFrees p) log = log.handle .internal (t.bufferPool b) := by
          simp [note, returns, handler, hhandler]
        obtain ⟨free, failed, hfree⟩ :=
          free_eq { t.write b p with internalHandler := none } b
        rw [hlog]
        rw [hfree] at inv ⊢
        refine h.return hhandler inv rfl (fun queue' hne => ?_) (funext fun _ => rfl) rfl rfl rfl
        cases queue' with
        | internal => exact absurd rfl hne
        | espNetif => rfl
      next => cases hstep
  | netifReceive =>
      simp only [SpiRing.step] at hstep
      split at hstep
      next b rest hhandler hqueue =>
        cases hstep
        refine h.same inv (fun queue => ?_) (fun queue => ?_) fun _ _ _ => rfl
        · cases queue <;> simp [pipe, behind, handler, SpiRing.queue, hhandler, hqueue]
        · cases queue <;> simp [ahead, handler, SpiRing.queue, hhandler, hqueue]
      next => cases hstep
  | netifFrees p =>
      simp only [SpiRing.step] at hstep
      split at hstep
      next b hhandler =>
        cases hstep
        have hlog : t.note (.netifFrees p) log = log.handle .espNetif (t.bufferPool b) := by
          simp [note, returns, handler, hhandler]
        obtain ⟨free, failed, hfree⟩ := free_eq { t.write b p with netifHandler := none } b
        rw [hlog]
        rw [hfree] at inv ⊢
        refine h.return hhandler inv rfl (fun queue' hne => ?_) (funext fun _ => rfl) rfl rfl rfl
        cases queue' with
        | internal => rfl
        | espNetif => exact absurd rfl hne
      next => cases hstep

theorem Receives.of_empty (inv : t.Inv) (hpipe : ∀ queue, t.pipe queue = []) :
    Receives espCrc32Le (t, SpiLog.empty) where
  inv := inv
  sorted queue b hb := by
    have hmem : b ∈ t.pipe queue := ahead_subset t queue hb
    rw [hpipe] at hmem
    exact absurd hmem List.not_mem_nil
  inOrder queue := by
    change [] = t.waiting espCrc32Le queue
    rw [waiting, hpipe, List.map_nil, List.filter_nil]

theorem init_receives (bufferPool : SpiBuffer → RingLinkPayload) :
    Receives espCrc32Le (init bufferPool, SpiLog.empty) := by
  refine .of_empty (init_inv bufferPool) fun queue => ?_
  have room : ([] : List SpiBuffer).length + (List.finRange numBuffers).length ≤ numBuffers := by
    rw [List.length_finRange, List.length_nil, Nat.zero_add]
  rw [init, foldl_free room]
  cases queue <;> simp [pipe, behind, handler, SpiRing.queue, RingLinkProcessTask.pending]

/-! ## The tasks of `ring_link.c` -/

/-- How many steps the tasks have in front of them at most. -/
def work (t : SpiRing) : Nat :=
  5 * t.spiRxQueue.length + t.process.work + 2 * (t.internalQueue.length + t.netifQueue.length) +
    t.internalHandler.toList.length + t.netifHandler.toList.length

@[simp] theorem free_work (t : SpiRing) (b : SpiBuffer) : (t.free b).work = t.work := by
  obtain ⟨free, failed, hfree⟩ := free_eq t b
  rw [hfree]
  rfl

/-- While a buffer is on the way, one of the tasks can go on. -/
theorem goes_on (espCrc32Le : BitVec 32 → List UInt8 → BitVec 32) (t : SpiRing) :
    (∀ queue, t.pipe queue = []) ∨ ∃ label t', label.ofRingLink = true ∧
      t.step espCrc32Le label = some t' ∧ t'.work < t.work := by
  cases hnetif : t.netifHandler with
  | some b =>
      refine .inr ⟨.netifFrees (t.bufferPool b),
        ({ t.write b (t.bufferPool b) with netifHandler := none } : SpiRing).free b, rfl, ?_, ?_⟩
      · simp only [step, hnetif]
      · rw [free_work]
        simp [work, hnetif, write]
  | none =>
  cases hinternal : t.internalHandler with
  | some b =>
      refine .inr ⟨.internalFrees (t.bufferPool b),
        ({ t.write b (t.bufferPool b) with internalHandler := none } : SpiRing).free b, rfl, ?_, ?_⟩
      · simp only [step, hinternal]
      · rw [free_work]
        simp [work, hinternal, write]
  | none =>
  cases hnetifQueue : t.netifQueue with
  | cons b rest =>
      refine .inr
        ⟨.netifReceive, { t with netifHandler := some b, netifQueue := rest }, rfl, ?_, ?_⟩
      · simp only [step, hnetif, hnetifQueue]
      · simp [work, hnetif, hnetifQueue]
        omega
  | nil =>
  cases hinternalQueue : t.internalQueue with
  | cons b rest =>
      refine .inr ⟨.internalReceive, { t with internalHandler := some b, internalQueue := rest },
        rfl, ?_, ?_⟩
      · simp only [step, hinternal, hinternalQueue]
      · simp [work, hinternal, hinternalQueue]
        omega
  | nil =>
  cases hprocess : t.process with
  | checking b =>
      cases hgoes : processPayload espCrc32Le (t.bufferPool b) with
      | some queue =>
          refine .inr ⟨.processCheck, { t with process := .sending b queue }, rfl, ?_, ?_⟩
          · simp only [step, hprocess, hgoes]
          · simp [work, hprocess, RingLinkProcessTask.work]
      | none =>
          refine .inr ⟨.processCheck, { t with process := .dropping b }, rfl, ?_, ?_⟩
          · simp only [step, hprocess, hgoes]
          · simp [work, hprocess, RingLinkProcessTask.work]
  | sending b queue =>
      cases queue with
      | internal =>
          have hroom : t.internalQueue.length < ringLinkInternalQueueSize := by
            rw [hinternalQueue]
            decide
          refine .inr ⟨.processSend,
            { t with process := .waiting, internalQueue := t.internalQueue ++ [b] }, rfl, ?_, ?_⟩
          · simp only [step, hprocess, if_pos hroom]
          · simp [work, hprocess, RingLinkProcessTask.work]
            omega
      | espNetif =>
          have hroom : t.netifQueue.length < ringLinkNetifQueueSize := by
            rw [hnetifQueue]
            decide
          refine .inr ⟨.processSend,
            { t with process := .waiting, netifQueue := t.netifQueue ++ [b] }, rfl, ?_, ?_⟩
          · simp only [step, hprocess, if_pos hroom]
          · simp [work, hprocess, RingLinkProcessTask.work]
            omega
  | dropping b =>
      refine .inr ⟨.processFrees, ({ t with process := .waiting } : SpiRing).free b, rfl, ?_, ?_⟩
      · simp only [step, hprocess]
      · rw [free_work]
        simp [work, hprocess, RingLinkProcessTask.work]
  | waiting =>
      cases hrx : t.spiRxQueue with
      | cons b rest =>
          refine .inr ⟨.processReceive, { t with process := .checking b, spiRxQueue := rest }, rfl,
            ?_, ?_⟩
          · simp only [step, hprocess, hrx]
          · simp [work, hprocess, hrx, RingLinkProcessTask.work]
            omega
      | nil =>
          left
          intro queue
          cases queue <;> simp [pipe, behind, handler, SpiRing.queue, RingLinkProcessTask.pending,
            hnetif, hinternal, hnetifQueue, hinternalQueue, hprocess, hrx]

theorem note_arrived {label : SpiLabel} (h : label.ofRingLink = true) (t : SpiRing)
    (log : SpiLog) : (t.note label log).arrived = log.arrived := by
  have hreturns : ∀ queue, (t.returns queue log).arrived = log.arrived := by
    intro queue
    rw [returns]
    split <;> rfl
  cases label with
  | internalFrees _ => exact hreturns .internal
  | netifFrees _ => exact hreturns .espNetif
  | transaction _ => cases h
  | _ => rfl

/-- The tasks alone bring every payload that has arrived to its handler. -/
theorem Receives.drains (h : Receives espCrc32Le s) :
    (receivingMachine espCrc32Le).CanReach (fun _ l => l.ofRingLink = true) s fun u =>
      Receives espCrc32Le u ∧ u.2.arrived = s.2.arrived ∧ ∀ queue, u.1.pipe queue = [] := by
  refine (Machine.CanReach.of_falls
    (fun u => Receives espCrc32Le u ∧ u.2.arrived = s.2.arrived) (fun u => u.1.work)
    (fun u hu => ?_) ⟨h, rfl⟩).mono fun u hu => ⟨hu.1.1, hu.1.2, hu.2⟩
  rcases goes_on espCrc32Le u.1 with hdrained | ⟨label, t', htask, hstep, hlt⟩
  · exact .inl hdrained
  · have hs : (receivingMachine espCrc32Le).step u label =
        some (t', u.1.note label u.2) :=
      Machine.recording_step.mpr ⟨hstep, rfl⟩
    exact .inr ⟨label, _, htask, hs, ⟨hu.1.step hs, (note_arrived htask _ _).trans hu.2⟩, hlt⟩

end SpiRing

/-- At every moment after `spi_init`, and whatever the slave receives: the payloads of a kind that
have arrived are, in their order, those that its handler has had and those that wait for it; no
queue is full when a buffer is sent to it, the queue of the free buffers included; and the tasks
alone can bring all of them to their handlers. -/
theorem spiRing_receives (espCrc32Le : BitVec 32 → List UInt8 → BitVec 32)
    (bufferPool : SpiBuffer → RingLinkPayload) (s : SpiRing × SpiLog)
    (run : (receivingMachine espCrc32Le).Reaches (SpiRing.init bufferPool, SpiLog.empty) s) :
    (∀ queue, s.2.arrived.filter (SpiRing.goesTo espCrc32Le queue) =
      s.2.handled queue ++ s.1.waiting espCrc32Le queue) ∧
    (∀ p u, s.1.step espCrc32Le (.transaction p) = some u → u.polling = .transmitted) ∧
    s.1.step espCrc32Le .processTimeout = none ∧ s.1.failedFrees = 0 ∧
    (receivingMachine espCrc32Le).CanReach (fun _ l => l.ofRingLink = true) s fun u =>
      u.2.arrived = s.2.arrived ∧
        ∀ queue, u.2.handled queue = s.2.arrived.filter (SpiRing.goesTo espCrc32Le queue) := by
  have h : SpiRing.Receives espCrc32Le s :=
    run.invariant (SpiRing.init_receives bufferPool) fun _ _ _ h _ hs => h.step hs
  refine ⟨h.inOrder, fun p u hs => h.inv.transaction_taken hs, h.inv.processTimeout_none,
    h.inv.frees, h.drains.mono fun u hu => ?_⟩
  obtain ⟨hu, harrived, hdrained⟩ := hu
  refine ⟨harrived, fun queue => ?_⟩
  rw [← harrived, hu.inOrder queue, SpiRing.waiting, hdrained queue, List.map_nil,
    List.filter_nil, List.append_nil]

/-- A broadcast, then a frame with a wrong checksum. -/
theorem spiRing_receives_noise :
    ∃ s, (receivingMachine fun _ _ => 0).run
          (SpiRing.init fun _ => broadcastPayload 0 1 3 0 [], SpiLog.empty)
          broadcastThenNoise = some s ∧
      (∀ queue, s.2.arrived.filter (SpiRing.goesTo (fun _ _ => 0) queue) =
        s.2.handled queue ++ s.1.waiting (fun _ _ => 0) queue) ∧
      (∀ p u, s.1.step (fun _ _ => 0) (.transaction p) = some u → u.polling = .transmitted) ∧
      s.1.step (fun _ _ => 0) .processTimeout = none ∧ s.1.failedFrees = 0 ∧
      (receivingMachine fun _ _ => 0).CanReach (fun _ l => l.ofRingLink = true) s fun u =>
        u.2.arrived = s.2.arrived ∧
          ∀ queue,
            u.2.handled queue = s.2.arrived.filter (SpiRing.goesTo (fun _ _ => 0) queue) := by
  have enabled : ((receivingMachine fun _ _ => 0).run
      (SpiRing.init fun _ => broadcastPayload 0 1 3 0 [], SpiLog.empty)
      broadcastThenNoise).isSome := by
    decide +kernel
  obtain ⟨s, hs⟩ := Option.isSome_iff_exists.mp enabled
  exact ⟨s, hs, spiRing_receives _ _ s (Machine.reaches_of_run hs)⟩

end I4A
