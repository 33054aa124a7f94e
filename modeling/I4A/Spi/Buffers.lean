import I4A.Core.Machine
import I4A.Core.Ownership
import I4A.RingLink.Payload

/-! # The receive buffers of the SPI ring

`spi.c` has a pool of eight buffers. A pointer to one goes through the polling task, the
callback of the transaction, the process task of `ring_link.c` and a handler task back
into the queue of free buffers; nobody looks at the result of the send that frees it.
-/

namespace I4A

open Ownership

/-- `NUM_BUFFERS`. -/
def numBuffers : Nat := 8

/-- `RING_LINK_INTERNAL_QUEUE_SIZE` and `RING_LINK_NETIF_QUEUE_SIZE`. -/
def ringLinkInternalQueueSize : Nat := 10
def ringLinkNetifQueueSize : Nat := 40

/-- A pointer into `buffer_pool`. -/
abbrev SpiBuffer := Fin numBuffers

/-- Where `spi_polling_task` and the callback of its transaction are. -/
inductive SpiPollingTask where
  /-- In `xQueueReceive`. -/
  | waiting
  /-- In `spi_slave_transmit`. -/
  | transmitting (b : SpiBuffer)
  /-- `spi_rx_queue` did not take the buffer; the callback gives it back next. -/
  | rejected (b : SpiBuffer)
  /-- The callback has run, `spi_slave_transmit` returns `ESP_OK`. -/
  | transmitted
  /-- `spi_slave_transmit` has failed. -/
  | failed (b : SpiBuffer)
  deriving DecidableEq

/-- Where `ring_link_process_task` is. -/
inductive RingLinkProcessTask where
  | waiting
  /-- At the start of `process_payload`. -/
  | checking (b : SpiBuffer)
  /-- In `xQueueSend` to one of the two queues. -/
  | sending (b : SpiBuffer) (queue : RingLinkQueue)
  /-- Before `ring_link_lowlevel_free_rx_buffer`. -/
  | dropping (b : SpiBuffer)
  deriving DecidableEq

structure SpiRing where
  freeBufQueue : List SpiBuffer
  polling : SpiPollingTask
  spiRxQueue : List SpiBuffer
  process : RingLinkProcessTask
  internalQueue : List SpiBuffer
  netifQueue : List SpiBuffer
  /-- The buffer in `ring_link_internal_handler`. -/
  internalHandler : Option SpiBuffer
  /-- The buffer in `ring_link_netif_handler`. -/
  netifHandler : Option SpiBuffer
  /-- `buffer_pool`. -/
  bufferPool : SpiBuffer → RingLinkPayload
  /-- History: sends to `free_buf_queue` that failed. -/
  failedFrees : Nat

inductive SpiLabel where
  | pollReceive
  /-- The transaction ends with this payload in the buffer, and the callback sends it. -/
  | transaction (p : RingLinkPayload)
  | callbackFrees
  /-- `spi_slave_transmit` fails, and the buffer holds whatever it holds. -/
  | transmitFails (p : RingLinkPayload)
  | transmitReturns
  | pollFrees
  | processReceive
  | processCheck
  | processSend
  /-- The queue is still full after 100 ms. -/
  | processTimeout
  | processFrees
  | internalReceive
  /-- The internal handler returns, with the payload as it left it, and the task frees it. -/
  | internalFrees (p : RingLinkPayload)
  | netifReceive
  | netifFrees (p : RingLinkPayload)

namespace SpiRing

variable (t : SpiRing)

/-- `xQueueSend(free_buf_queue, &payload, 0)`; `spi_free_rx_buffer` is this call too. -/
def free (b : SpiBuffer) : SpiRing :=
  if t.freeBufQueue.length < numBuffers then { t with freeBufQueue := t.freeBufQueue ++ [b] }
  else { t with failedFrees := t.failedFrees + 1 }

def write (b : SpiBuffer) (p : RingLinkPayload) : SpiRing :=
  { t with bufferPool := Function.update t.bufferPool b p }

/-- The loop of `spi_init` over the pool. -/
def init (bufferPool : SpiBuffer → RingLinkPayload) : SpiRing :=
  (List.finRange numBuffers).foldl free
    { freeBufQueue := []
      polling := .waiting
      spiRxQueue := []
      process := .waiting
      internalQueue := []
      netifQueue := []
      internalHandler := none
      netifHandler := none
      bufferPool := bufferPool
      failedFrees := 0 }

/-- One step of a task or of the callback; queue operations are atomic. -/
def step (espCrc32Le : BitVec 32 → List UInt8 → BitVec 32) : SpiLabel → Option SpiRing
  | .pollReceive =>
      match t.polling, t.freeBufQueue with
      | .waiting, b :: rest => some { t with polling := .transmitting b, freeBufQueue := rest }
      | _, _ => none
  | .transaction p =>
      match t.polling with
      | .transmitting b =>
          if t.spiRxQueue.length < numBuffers then
            some { t.write b p with
              polling := .transmitted
              spiRxQueue := t.spiRxQueue ++ [b] }
          else some { t.write b p with polling := .rejected b }
      | _ => none
  | .callbackFrees =>
      match t.polling with
      | .rejected b => some (({ t with polling := .transmitted } : SpiRing).free b)
      | _ => none
  | .transmitFails p =>
      match t.polling with
      | .transmitting b => some { t.write b p with polling := .failed b }
      | _ => none
  | .transmitReturns =>
      match t.polling with
      | .transmitted => some { t with polling := .waiting }
      | _ => none
  | .pollFrees =>
      match t.polling with
      | .failed b => some (({ t with polling := .waiting } : SpiRing).free b)
      | _ => none
  | .processReceive =>
      match t.process, t.spiRxQueue with
      | .waiting, b :: rest => some { t with process := .checking b, spiRxQueue := rest }
      | _, _ => none
  | .processCheck =>
      match t.process with
      | .checking b =>
          match processPayload espCrc32Le (t.bufferPool b) with
          | some queue => some { t with process := .sending b queue }
          | none => some { t with process := .dropping b }
      | _ => none
  | .processSend =>
      match t.process with
      | .sending b .internal =>
          if t.internalQueue.length < ringLinkInternalQueueSize then
            some { t with process := .waiting, internalQueue := t.internalQueue ++ [b] }
          else none
      | .sending b .espNetif =>
          if t.netifQueue.length < ringLinkNetifQueueSize then
            some { t with process := .waiting, netifQueue := t.netifQueue ++ [b] }
          else none
      | _ => none
  | .processTimeout =>
      match t.process with
      | .sending b .internal =>
          if t.internalQueue.length < ringLinkInternalQueueSize then none
          else some { t with process := .dropping b }
      | .sending b .espNetif =>
          if t.netifQueue.length < ringLinkNetifQueueSize then none
          else some { t with process := .dropping b }
      | _ => none
  | .processFrees =>
      match t.process with
      | .dropping b => some (({ t with process := .waiting } : SpiRing).free b)
      | _ => none
  | .internalReceive =>
      match t.internalHandler, t.internalQueue with
      | none, b :: rest => some { t with internalHandler := some b, internalQueue := rest }
      | _, _ => none
  | .internalFrees p =>
      match t.internalHandler with
      | some b => some (({ t.write b p with internalHandler := none } : SpiRing).free b)
      | none => none
  | .netifReceive =>
      match t.netifHandler, t.netifQueue with
      | none, b :: rest => some { t with netifHandler := some b, netifQueue := rest }
      | _, _ => none
  | .netifFrees p =>
      match t.netifHandler with
      | some b => some (({ t.write b p with netifHandler := none } : SpiRing).free b)
      | none => none

end SpiRing

def spiMachine (espCrc32Le : BitVec 32 → List UInt8 → BitVec 32) : Machine SpiRing SpiLabel :=
  ⟨fun t => t.step espCrc32Le⟩

/-- The places of a buffer. -/
inductive SpiPlace where
  | free | transaction | rx | processing | internal | netif | internalHandler | netifHandler
  deriving DecidableEq

def SpiPollingTask.buffer : SpiPollingTask → List SpiBuffer
  | .transmitting b => [b]
  | .rejected b => [b]
  | .failed b => [b]
  | _ => []

def RingLinkProcessTask.buffer : RingLinkProcessTask → List SpiBuffer
  | .waiting => []
  | .checking b => [b]
  | .sending b _ => [b]
  | .dropping b => [b]

namespace SpiRing

/-- The buffers in a place. -/
def held (t : SpiRing) : SpiPlace → List SpiBuffer
  | .free => t.freeBufQueue
  | .transaction => t.polling.buffer
  | .rx => t.spiRxQueue
  | .processing => t.process.buffer
  | .internal => t.internalQueue
  | .netif => t.netifQueue
  | .internalHandler => t.internalHandler.toList
  | .netifHandler => t.netifHandler.toList

/-! ## Conservation -/

/-- Each buffer is in one place, and no send to the free queue has failed. -/
structure Inv (t : SpiRing) : Prop where
  once : Once t.held
  frees : t.failedFrees = 0

variable {t s u : SpiRing} {b : SpiBuffer}

/-- The free queue has room for a buffer that comes from somewhere else. -/
theorem Inv.free (inv : t.Inv) (source : SpiPlace) (hne : source ≠ .free)
    (out : (t.held source).Perm (b :: s.held source))
    (frame : ∀ place, place ≠ source → s.held place = t.held place)
    (frees : s.failedFrees = t.failedFrees) : (s.free b).Inv := by
  have hmem : b ∈ t.held source := out.mem_iff.mpr List.mem_cons_self
  have hqueue : s.freeBufQueue = t.freeBufQueue := frame .free (Ne.symm hne)
  have hroom : s.freeBufQueue.length < numBuffers := by
    rw [hqueue]
    have hlt := inv.once.length_lt hmem hne
    rwa [Fintype.card_fin] at hlt
  have hmove : Move t.held { s with freeBufQueue := s.freeBufQueue ++ [b] }.held b source
      .free := by
    constructor
    · exact hne
    · cases source <;> first | exact out | exact absurd rfl hne
    · show (s.freeBufQueue ++ [b]).Perm (b :: t.freeBufQueue)
      rw [hqueue]
      exact List.perm_append_singleton b t.freeBufQueue
    · intro place hs hf
      rw [← frame place hs]
      cases place <;> first | rfl | exact absurd rfl hf
  unfold SpiRing.free
  rw [if_pos hroom]
  exact ⟨inv.once.move hmove, frees.trans inv.frees⟩

/-- A task goes on with the buffer it has; what is in the buffers does not matter. -/
theorem Inv.keepTransaction (inv : t.Inv) {task : SpiPollingTask}
    {bufferPool : SpiBuffer → RingLinkPayload} (same : task.buffer = t.polling.buffer) :
    Inv { t with polling := task, bufferPool := bufferPool } := by
  have hheld : ({ t with polling := task, bufferPool := bufferPool } : SpiRing).held = t.held := by
    funext place
    cases place with
    | transaction => exact same
    | _ => rfl
  constructor
  · rw [hheld]
    exact inv.once
  · exact inv.frees

theorem Inv.keepProcessing (inv : t.Inv) {task : RingLinkProcessTask}
    (same : task.buffer = t.process.buffer) : Inv { t with process := task } := by
  have hheld : ({ t with process := task } : SpiRing).held = t.held := by
    funext place
    cases place with
    | processing => exact same
    | _ => rfl
  constructor
  · rw [hheld]
    exact inv.once
  · exact inv.frees

theorem Inv.receive (inv : t.Inv) (source target : SpiPlace) {rest : List SpiBuffer}
    (hne : source ≠ target) (out : t.held source = b :: rest) (left : u.held source = rest)
    (empty : t.held target = []) (into : u.held target = [b])
    (frame : ∀ place, place ≠ source → place ≠ target → u.held place = t.held place)
    (frees : u.failedFrees = t.failedFrees) : u.Inv := by
  have hmove : Move t.held u.held b source target := by
    constructor
    · exact hne
    · rw [out, left]
    · rw [into, empty]
    · exact frame
  exact ⟨inv.once.move hmove, frees.trans inv.frees⟩

theorem Inv.send (inv : t.Inv) (source target : SpiPlace) (hne : source ≠ target)
    (out : t.held source = [b]) (left : u.held source = [])
    (into : u.held target = t.held target ++ [b])
    (frame : ∀ place, place ≠ source → place ≠ target → u.held place = t.held place)
    (frees : u.failedFrees = t.failedFrees) : u.Inv := by
  have hmove : Move t.held u.held b source target := by
    constructor
    · exact hne
    · rw [out, left]
    · rw [into]
      exact List.perm_append_singleton b _
    · exact frame
  exact ⟨inv.once.move hmove, frees.trans inv.frees⟩

variable {espCrc32Le : BitVec 32 → List UInt8 → BitVec 32}

/-! ### The steps of the tasks -/

theorem Inv.pollReceive (inv : t.Inv) (h : t.step espCrc32Le .pollReceive = some u) : u.Inv := by
  simp only [step] at h
  split at h
  next hpolling hfree =>
    cases h
    apply inv.receive .free .transaction (by decide) hfree rfl
      (congrArg SpiPollingTask.buffer hpolling) rfl
    · intro place hs ht
      cases place <;> first | rfl | contradiction
    · rfl
  next => cases h

theorem Inv.transaction (inv : t.Inv) {p : RingLinkPayload}
    (h : t.step espCrc32Le (.transaction p) = some u) : u.Inv := by
  simp only [step] at h
  split at h
  next hpolling =>
    have hout := congrArg SpiPollingTask.buffer hpolling
    split at h
    · cases h
      apply inv.send .transaction .rx (by decide) hout rfl rfl
      · intro place hs ht
        cases place <;> first | rfl | contradiction
      · rfl
    · cases h
      exact inv.keepTransaction hout.symm
  next => cases h

theorem Inv.callbackFrees (inv : t.Inv) (h : t.step espCrc32Le .callbackFrees = some u) :
    u.Inv := by
  simp only [step] at h
  split at h
  next hpolling =>
    cases h
    apply inv.free .transaction (by decide)
    · exact List.Perm.of_eq (congrArg SpiPollingTask.buffer hpolling)
    · intro place hs
      cases place <;> first | rfl | contradiction
    · rfl
  next => cases h

theorem Inv.transmitFails (inv : t.Inv) {p : RingLinkPayload}
    (h : t.step espCrc32Le (.transmitFails p) = some u) : u.Inv := by
  simp only [step] at h
  split at h
  next hpolling =>
    cases h
    exact inv.keepTransaction (congrArg SpiPollingTask.buffer hpolling).symm
  next => cases h

theorem Inv.transmitReturns (inv : t.Inv) (h : t.step espCrc32Le .transmitReturns = some u) :
    u.Inv := by
  simp only [step] at h
  split at h
  next hpolling =>
    cases h
    exact inv.keepTransaction (congrArg SpiPollingTask.buffer hpolling).symm
  next => cases h

theorem Inv.pollFrees (inv : t.Inv) (h : t.step espCrc32Le .pollFrees = some u) : u.Inv := by
  simp only [step] at h
  split at h
  next hpolling =>
    cases h
    apply inv.free .transaction (by decide)
    · exact List.Perm.of_eq (congrArg SpiPollingTask.buffer hpolling)
    · intro place hs
      cases place <;> first | rfl | contradiction
    · rfl
  next => cases h

theorem Inv.processReceive (inv : t.Inv) (h : t.step espCrc32Le .processReceive = some u) :
    u.Inv := by
  simp only [step] at h
  split at h
  next hprocess hrx =>
    cases h
    apply inv.receive .rx .processing (by decide) hrx rfl
      (congrArg RingLinkProcessTask.buffer hprocess) rfl
    · intro place hs ht
      cases place <;> first | rfl | contradiction
    · rfl
  next => cases h

theorem Inv.processCheck (inv : t.Inv) (h : t.step espCrc32Le .processCheck = some u) :
    u.Inv := by
  simp only [step] at h
  split at h
  next hprocess =>
    have hbuffer := congrArg RingLinkProcessTask.buffer hprocess
    split at h
    · cases h
      exact inv.keepProcessing hbuffer.symm
    · cases h
      exact inv.keepProcessing hbuffer.symm
  next => cases h

theorem Inv.processSend (inv : t.Inv) (h : t.step espCrc32Le .processSend = some u) : u.Inv := by
  simp only [step] at h
  split at h
  next hprocess =>
    split at h
    · cases h
      apply inv.send .processing .internal (by decide)
        (congrArg RingLinkProcessTask.buffer hprocess) rfl rfl
      · intro place hs ht
        cases place <;> first | rfl | contradiction
      · rfl
    · cases h
  next hprocess =>
    split at h
    · cases h
      apply inv.send .processing .netif (by decide)
        (congrArg RingLinkProcessTask.buffer hprocess) rfl rfl
      · intro place hs ht
        cases place <;> first | rfl | contradiction
      · rfl
    · cases h
  next => cases h

theorem Inv.processTimeout (inv : t.Inv) (h : t.step espCrc32Le .processTimeout = some u) :
    u.Inv := by
  simp only [step] at h
  split at h
  next hprocess =>
    split at h
    · cases h
    · cases h
      exact inv.keepProcessing (congrArg RingLinkProcessTask.buffer hprocess).symm
  next hprocess =>
    split at h
    · cases h
    · cases h
      exact inv.keepProcessing (congrArg RingLinkProcessTask.buffer hprocess).symm
  next => cases h

theorem Inv.processFrees (inv : t.Inv) (h : t.step espCrc32Le .processFrees = some u) :
    u.Inv := by
  simp only [step] at h
  split at h
  next hprocess =>
    cases h
    apply inv.free .processing (by decide)
    · exact List.Perm.of_eq (congrArg RingLinkProcessTask.buffer hprocess)
    · intro place hs
      cases place <;> first | rfl | contradiction
    · rfl
  next => cases h

theorem Inv.internalReceive (inv : t.Inv) (h : t.step espCrc32Le .internalReceive = some u) :
    u.Inv := by
  simp only [step] at h
  split at h
  next hhandler hqueue =>
    cases h
    apply inv.receive .internal .internalHandler (by decide) hqueue rfl
      (congrArg Option.toList hhandler) rfl
    · intro place hs ht
      cases place <;> first | rfl | contradiction
    · rfl
  next => cases h

theorem Inv.internalFrees (inv : t.Inv) {p : RingLinkPayload}
    (h : t.step espCrc32Le (.internalFrees p) = some u) : u.Inv := by
  simp only [step] at h
  split at h
  next hhandler =>
    cases h
    apply inv.free .internalHandler (by decide)
    · exact List.Perm.of_eq (congrArg Option.toList hhandler)
    · intro place hs
      cases place <;> first | rfl | contradiction
    · rfl
  next => cases h

theorem Inv.netifReceive (inv : t.Inv) (h : t.step espCrc32Le .netifReceive = some u) :
    u.Inv := by
  simp only [step] at h
  split at h
  next hhandler hqueue =>
    cases h
    apply inv.receive .netif .netifHandler (by decide) hqueue rfl
      (congrArg Option.toList hhandler) rfl
    · intro place hs ht
      cases place <;> first | rfl | contradiction
    · rfl
  next => cases h

theorem Inv.netifFrees (inv : t.Inv) {p : RingLinkPayload}
    (h : t.step espCrc32Le (.netifFrees p) = some u) : u.Inv := by
  simp only [step] at h
  split at h
  next hhandler =>
    cases h
    apply inv.free .netifHandler (by decide)
    · exact List.Perm.of_eq (congrArg Option.toList hhandler)
    · intro place hs
      cases place <;> first | rfl | contradiction
    · rfl
  next => cases h

theorem Inv.step (inv : t.Inv) {label : SpiLabel} (h : t.step espCrc32Le label = some u) :
    u.Inv := by
  cases label with
  | pollReceive => exact inv.pollReceive h
  | transaction p => exact inv.transaction h
  | callbackFrees => exact inv.callbackFrees h
  | transmitFails p => exact inv.transmitFails h
  | transmitReturns => exact inv.transmitReturns h
  | pollFrees => exact inv.pollFrees h
  | processReceive => exact inv.processReceive h
  | processCheck => exact inv.processCheck h
  | processSend => exact inv.processSend h
  | processTimeout => exact inv.processTimeout h
  | processFrees => exact inv.processFrees h
  | internalReceive => exact inv.internalReceive h
  | internalFrees p => exact inv.internalFrees h
  | netifReceive => exact inv.netifReceive h
  | netifFrees p => exact inv.netifFrees h

theorem foldl_free {l : List SpiBuffer} (room : t.freeBufQueue.length + l.length ≤ numBuffers) :
    l.foldl SpiRing.free t = { t with freeBufQueue := t.freeBufQueue ++ l } := by
  induction l generalizing t with
  | nil => simp only [List.foldl_nil, List.append_nil]
  | cons b rest ih =>
      rw [List.length_cons] at room
      have hfree : t.free b = { t with freeBufQueue := t.freeBufQueue ++ [b] } := by
        unfold SpiRing.free
        exact if_pos (by omega)
      rw [List.foldl_cons, hfree, ih]
      · simp only [List.append_assoc, List.singleton_append]
      · simp only [List.length_append, List.length_singleton]
        omega

/-- `spi_init` puts every buffer of the pool into the free queue. -/
theorem init_inv (bufferPool : SpiBuffer → RingLinkPayload) : (init bufferPool).Inv := by
  unfold init
  have room : ([] : List SpiBuffer).length + (List.finRange numBuffers).length ≤ numBuffers := by
    rw [List.length_finRange, List.length_nil, Nat.zero_add]
  rw [foldl_free room, List.nil_append]
  constructor
  · constructor
    · intro place
      cases place with
      | free => exact List.nodup_finRange numBuffers
      | _ => exact List.nodup_nil
    · intro b
      refine ⟨.free, List.mem_finRange b, ?_⟩
      intro place hplace
      cases place with
      | free => rfl
      | _ => exact absurd hplace List.not_mem_nil
  · rfl

end SpiRing

/-- At every moment after `spi_init` each buffer of the pool is in exactly one place, and in
no queue twice; the sends that free a buffer have all succeeded. -/
theorem spiBuffers_conserved (espCrc32Le : BitVec 32 → List UInt8 → BitVec 32)
    (bufferPool : SpiBuffer → RingLinkPayload) (t : SpiRing)
    (run : (spiMachine espCrc32Le).Reaches (SpiRing.init bufferPool) t) :
    (∀ b, ∃! place, b ∈ t.held place) ∧ (∀ place, (t.held place).Nodup) ∧ t.failedFrees = 0 := by
  have inv : t.Inv := run.invariant (SpiRing.init_inv bufferPool) fun s _ u inv _ h => inv.step h
  exact ⟨inv.once.one, inv.once.nodup, inv.frees⟩

/-- A broadcast goes from the wire to its handler, and the next frame has a wrong checksum. -/
def broadcastThenNoise : List SpiLabel :=
  let p := broadcastPayload 0 1 3 0 []
  [.pollReceive, .transaction p, .transmitReturns, .processReceive, .processCheck, .processSend,
    .internalReceive, .pollReceive, .transaction { p with crc32 := 1 },
    .internalFrees { p with ttl := 2 }, .processReceive, .processCheck, .processFrees]

theorem spiBuffers_conserved_noise :
    ∃ t, (spiMachine fun _ _ => 0).run (SpiRing.init fun _ => broadcastPayload 0 1 3 0 [])
          broadcastThenNoise = some t ∧
      (∀ b, ∃! place, b ∈ t.held place) ∧ (∀ place, (t.held place).Nodup) ∧
        t.failedFrees = 0 := by
  have enabled : ((spiMachine fun _ _ => 0).run
      (SpiRing.init fun _ => broadcastPayload 0 1 3 0 []) broadcastThenNoise).isSome := by
    decide +kernel
  obtain ⟨t, ht⟩ := Option.isSome_iff_exists.mp enabled
  exact ⟨t, ht, spiBuffers_conserved _ _ t (Machine.reaches_of_run ht)⟩

end I4A
