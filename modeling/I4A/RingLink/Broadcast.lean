import Mathlib.Logic.Function.Basic
import I4A.Core.Machine

/-! # Broadcasts on the SPI ring

`broadcast.c` on one board. A frame goes from board to board and comes back to
its origin, which wakes the task that waits; it may be lost or late at any hop,
and the wait may time out at any moment. A frame's call and message are history:
the code looks at its source only.
-/

namespace I4A

/-- `RING_LINK_PAYLOAD_TTL`. -/
def ringLinkPayloadTtl : Nat := 4

/-- A broadcast frame of this board on its way. -/
structure Frame where
  id : UInt8
  ttl : Nat
  /-- The call of `broadcast_to_siblings` that sent it, and the message of that call. -/
  call : Nat
  message : Nat
  /-- How many siblings have handled it. -/
  hops : Nat
  deriving DecidableEq

/-- A message in the hands of a sibling's callback task. -/
structure Handed where
  call : Nat
  message : Nat
  sibling : Nat
  deriving DecidableEq

/-- How far a call of `broadcast_to_siblings` has come. -/
inductive BroadcastPhase where
  /-- Before `send_broadcast`. -/
  | sending
  /-- In `ulTaskNotifyTake`. -/
  | waiting
  | done (result : Bool)
  deriving DecidableEq

/-- The call that holds `s_broadcast_mutex`; its task is `s_broadcast_task`. -/
structure BroadcastCall where
  task : Nat
  call : Nat
  message : Nat
  phase : BroadcastPhase
  deriving DecidableEq

/-- The end of a call. -/
structure BroadcastReturn where
  call : Nat
  message : Nat
  result : Bool
  deriving DecidableEq

structure BroadcastRing where
  idCounter : UInt8
  caller : Option BroadcastCall
  /-- The notification value of each task. -/
  notified : Nat → Nat
  frames : List Frame
  /-- History: calls so far, what siblings have been handed, the calls whose frame has come
  back, and what calls have returned. -/
  calls : Nat
  handed : List Handed
  completed : List Nat
  returned : List BroadcastReturn

inductive BroadcastLabel where
  | call (task message : Nat)
  /-- A call that does not get the mutex in time. -/
  | callBusy (message : Nat)
  | transmit
  | transmitFails
  /-- The next board handles a frame, or the origin does. -/
  | hop (f : Frame)
  /-- A frame is lost on its way. -/
  | lose (f : Frame)
  | wake
  | timeout
  | finish
  deriving DecidableEq

namespace BroadcastRing

def start : BroadcastRing := ⟨0, none, fun _ => 0, [], 0, [], [], []⟩

variable (t : BroadcastRing)

/-- The payload that `send_broadcast` transmits. -/
def frame (c : BroadcastCall) : Frame := ⟨t.idCounter, ringLinkPayloadTtl, c.call, c.message, 0⟩

def setPhase (c : BroadcastCall) (phase : BroadcastPhase) : BroadcastRing :=
  { t with caller := some { c with phase := phase } }

/-- `broadcast_handler` on a sibling: hand the message over, then forward the frame. -/
def handOver (f : Frame) : BroadcastRing :=
  { t with
    handed := t.handed ++ [⟨f.call, f.message, f.hops⟩]
    frames := t.frames.erase f ++
      if f.ttl = 0 then [] else [{ f with ttl := f.ttl - 1, hops := f.hops + 1 }] }

/-- `broadcast_handler` on the origin. -/
def comeBack (f : Frame) : BroadcastRing :=
  { t with
    frames := t.frames.erase f
    completed := t.completed ++ [f.call]
    notified := match t.caller with
      | some c => Function.update t.notified c.task (t.notified c.task + 1)
      | none => t.notified }

/-- One step on a ring with `siblings` other boards. -/
def step (siblings : Nat) : BroadcastLabel → Option BroadcastRing
  | .call task message =>
      if t.caller = none then
        some { t with
          caller := some ⟨task, t.calls, message, .sending⟩
          calls := t.calls + 1 }
      else none
  | .callBusy message =>
      if t.caller = none then none
      else some { t with
        calls := t.calls + 1
        returned := t.returned ++ [⟨t.calls, message, false⟩] }
  | .transmit =>
      match t.caller with
      | some c =>
          if c.phase = .sending then
            some { t.setPhase c .waiting with
              idCounter := t.idCounter + 1
              frames := t.frames ++ [t.frame c] }
          else none
      | none => none
  | .transmitFails =>
      match t.caller with
      | some c =>
          if c.phase = .sending then
            some { t.setPhase c (.done false) with idCounter := t.idCounter + 1 }
          else none
      | none => none
  | .hop f =>
      if f ∈ t.frames then
        some (if f.hops < siblings then t.handOver f else t.comeBack f)
      else none
  | .lose f => if f ∈ t.frames then some { t with frames := t.frames.erase f } else none
  | .wake =>
      match t.caller with
      | some c =>
          if c.phase = .waiting ∧ 0 < t.notified c.task then
            -- the value is compared with `pdTRUE` and cleared
            some { t.setPhase c (.done (t.notified c.task = 1)) with
              notified := Function.update t.notified c.task 0 }
          else none
      | none => none
  | .timeout =>
      match t.caller with
      | some c =>
          if c.phase = .waiting ∧ t.notified c.task = 0 then some (t.setPhase c (.done false))
          else none
      | none => none
  | .finish =>
      match t.caller with
      | some c =>
          match c.phase with
          | .done result =>
              some { t with
                caller := none
                returned := t.returned ++ [⟨c.call, c.message, result⟩] }
          | _ => none
      | none => none

/-- The frame of the call went all the way round and every sibling was handed its message. -/
def Round (siblings call message : Nat) : Prop :=
  call ∈ t.completed ∧ ∀ i < siblings, ⟨call, message, i⟩ ∈ t.handed

/-- What a call's result should mean. -/
def Truthful (siblings : Nat) : Prop :=
  ∀ r ∈ t.returned, r.result = true → t.Round siblings r.call r.message

/-- A call begins when no frame of an earlier one is travelling, and its task has no
notification left over. -/
def quiet : BroadcastLabel → Bool
  | .call task _ => t.frames.isEmpty && t.notified task == 0
  | _ => true

end BroadcastRing

/-- The broadcasts of one board on a ring with `siblings` other boards. -/
def broadcastRing (siblings : Nat) : Machine BroadcastRing BroadcastLabel :=
  ⟨fun t l => t.step siblings l⟩

namespace BroadcastRing

variable {siblings : Nat} {t u : BroadcastRing}

theorem Round.mono {call message : Nat} (h : t.Round siblings call message)
    (completed : ∀ c ∈ t.completed, c ∈ u.completed) (handed : ∀ x ∈ t.handed, x ∈ u.handed) :
    u.Round siblings call message :=
  ⟨completed _ h.1, fun i hi => handed _ (h.2 i hi)⟩

/-! ## Reading a step -/

theorem step_call {task message : Nat} (h : t.step siblings (.call task message) = some u) :
    t.caller = none ∧ u = { t with
      caller := some ⟨task, t.calls, message, .sending⟩
      calls := t.calls + 1 } := by
  obtain ⟨hidle, hu⟩ := Option.ite_none_right_eq_some.mp h
  exact ⟨hidle, (Option.some.inj hu).symm⟩

theorem step_callBusy {message : Nat} (h : t.step siblings (.callBusy message) = some u) :
    u = { t with
      calls := t.calls + 1
      returned := t.returned ++ [⟨t.calls, message, false⟩] } := by
  obtain ⟨-, hu⟩ := Option.ite_none_left_eq_some.mp h
  exact (Option.some.inj hu).symm

/-- The steps of the task in the call: the phase it must be in, and what follows. -/
private theorem step_caller {phase : BroadcastCall → Prop} [∀ c, Decidable (phase c)]
    {next : BroadcastCall → BroadcastRing}
    (h : (match t.caller with
      | some c => if phase c then some (next c) else none
      | none => none) = some u) :
    ∃ c, t.caller = some c ∧ phase c ∧ u = next c := by
  split at h
  · next c hcaller =>
    obtain ⟨hphase, hu⟩ := Option.ite_none_right_eq_some.mp h
    exact ⟨c, hcaller, hphase, (Option.some.inj hu).symm⟩
  · cases h

theorem step_transmit (h : t.step siblings .transmit = some u) :
    ∃ c, t.caller = some c ∧ c.phase = .sending ∧ u = { t.setPhase c .waiting with
      idCounter := t.idCounter + 1
      frames := t.frames ++ [t.frame c] } := step_caller h

theorem step_transmitFails (h : t.step siblings .transmitFails = some u) :
    ∃ c, t.caller = some c ∧ c.phase = .sending ∧
      u = { t.setPhase c (.done false) with idCounter := t.idCounter + 1 } := step_caller h

theorem step_hop {f : Frame} (h : t.step siblings (.hop f) = some u) :
    f ∈ t.frames ∧ u = if f.hops < siblings then t.handOver f else t.comeBack f := by
  obtain ⟨hf, hu⟩ := Option.ite_none_right_eq_some.mp h
  exact ⟨hf, (Option.some.inj hu).symm⟩

theorem step_lose {f : Frame} (h : t.step siblings (.lose f) = some u) :
    u = { t with frames := t.frames.erase f } := by
  obtain ⟨-, hu⟩ := Option.ite_none_right_eq_some.mp h
  exact (Option.some.inj hu).symm

theorem step_wake (h : t.step siblings .wake = some u) :
    ∃ c, t.caller = some c ∧ (c.phase = .waiting ∧ 0 < t.notified c.task) ∧
      u = { t.setPhase c (.done (t.notified c.task = 1)) with
        notified := Function.update t.notified c.task 0 } := step_caller h

theorem step_timeout (h : t.step siblings .timeout = some u) :
    ∃ c, t.caller = some c ∧ (c.phase = .waiting ∧ t.notified c.task = 0) ∧
      u = t.setPhase c (.done false) := step_caller h

theorem step_finish (h : t.step siblings .finish = some u) :
    ∃ c result, t.caller = some c ∧ c.phase = .done result ∧ u = { t with
      caller := none
      returned := t.returned ++ [⟨c.call, c.message, result⟩] } := by
  simp only [step] at h
  split at h
  · next c hcaller =>
    split at h
    · next result hphase => exact ⟨c, result, hcaller, hphase, (Option.some.inj h).symm⟩
    · cases h
  · cases h

/-! ## Calls that begin on a quiet ring -/

/-- The frames under way and the notification belong to the call that waits. -/
structure Matched (siblings : Nat) (t : BroadcastRing) : Prop where
  own : ∀ c, t.caller = some c → ∀ f ∈ t.frames, f.call = c.call ∧ f.message = c.message
  sending : ∀ c, t.caller = some c → c.phase = .sending →
    t.frames = [] ∧ t.notified c.task = 0
  waiting : ∀ c, t.caller = some c → c.phase = .waiting → 0 < t.notified c.task →
    t.Round siblings c.call c.message
  done : ∀ c, t.caller = some c → c.phase = .done true → t.Round siblings c.call c.message
  travelled : ∀ f ∈ t.frames, ∀ i < f.hops, ⟨f.call, f.message, i⟩ ∈ t.handed
  truthful : t.Truthful siblings

theorem start_matched (siblings : Nat) : start.Matched siblings where
  own c h := by cases h
  sending c h := by cases h
  waiting c h := by cases h
  done c h := by cases h
  travelled f h := by cases h
  truthful r h := by cases h

namespace Matched

theorem call (inv : t.Matched siblings) {task message : Nat} (frames : t.frames = [])
    (notified : t.notified task = 0) :
    Matched siblings { t with
      caller := some ⟨task, t.calls, message, .sending⟩, calls := t.calls + 1 } where
  own c _ f hf := by
    rw [show t.frames = [] from frames] at hf
    cases hf
  sending c h _ := by
    cases h
    exact ⟨frames, notified⟩
  waiting c h hphase := by
    cases h
    cases hphase
  done c h hphase := by
    cases h
    cases hphase
  travelled := inv.travelled
  truthful := inv.truthful

/-- A change of phase that claims no success. -/
theorem setPhase (inv : t.Matched siblings) {c : BroadcastCall} (hcaller : t.caller = some c)
    {phase : BroadcastPhase} (sending : phase ≠ .sending)
    (waiting : phase = .waiting → 0 < t.notified c.task → t.Round siblings c.call c.message)
    (done : phase = .done true → t.Round siblings c.call c.message) :
    (t.setPhase c phase).Matched siblings where
  own c' h := by
    cases h
    exact inv.own c hcaller
  sending c' h hphase := by
    cases h
    exact absurd hphase sending
  waiting c' h := by
    cases h
    exact waiting
  done c' h := by
    cases h
    exact done
  travelled := inv.travelled
  truthful := inv.truthful

theorem transmit (inv : t.Matched siblings) {c : BroadcastCall} (hcaller : t.caller = some c)
    (hphase : c.phase = .sending) :
    Matched siblings { t.setPhase c .waiting with
      idCounter := t.idCounter + 1, frames := t.frames ++ [t.frame c] } := by
  obtain ⟨hframes, hnotified⟩ := inv.sending c hcaller hphase
  refine ⟨fun c' h f hf => ?_, fun c' h hphase' => ?_, fun c' h _ hpos => ?_,
    fun c' h hphase' => ?_, fun f hf i hi => ?_, inv.truthful⟩
  · cases h
    rw [hframes] at hf
    simp only [List.nil_append, List.mem_singleton] at hf
    subst hf
    exact ⟨rfl, rfl⟩
  · cases h
    cases hphase'
  · cases h
    change 0 < t.notified c.task at hpos
    omega
  · cases h
    cases hphase'
  · rw [hframes] at hf
    simp only [List.nil_append, List.mem_singleton] at hf
    subst hf
    exact absurd hi (Nat.not_lt_zero i)

theorem handOver (inv : t.Matched siblings) {f : Frame} (hf : f ∈ t.frames) :
    (t.handOver f).Matched siblings := by
  have hmem : ∀ g ∈ (t.handOver f).frames, g ∈ t.frames ∨
      g = { f with ttl := f.ttl - 1, hops := f.hops + 1 } := by
    intro g hg
    simp only [BroadcastRing.handOver, List.mem_append] at hg
    rcases hg with hg | hg
    · exact .inl (List.mem_of_mem_erase hg)
    · split at hg
      · cases hg
      · exact .inr (List.mem_singleton.mp hg)
  have hhanded : ∀ x ∈ t.handed, x ∈ (t.handOver f).handed := fun x hx =>
    List.mem_append_left _ hx
  have round : ∀ {call message}, t.Round siblings call message →
      (t.handOver f).Round siblings call message := fun h => h.mono (fun _ hc => hc) hhanded
  refine ⟨fun c h g hg => ?_, fun c h hphase => ?_, fun c h hphase hpos => ?_,
    fun c h hphase => round (inv.done c h hphase), fun g hg i hi => ?_,
    fun r hr htrue => round (inv.truthful r hr htrue)⟩
  · rcases hmem g hg with hg | rfl
    · exact inv.own c h g hg
    · exact inv.own c h f hf
  · rw [(inv.sending c h hphase).1] at hf
    cases hf
  · exact round (inv.waiting c h hphase hpos)
  · rcases hmem g hg with hg | rfl
    · exact hhanded _ (inv.travelled g hg i hi)
    · rcases Nat.lt_succ_iff_lt_or_eq.mp hi with hlt | rfl
      · exact hhanded _ (inv.travelled f hf i hlt)
      · exact List.mem_append_right _ (List.mem_singleton.mpr rfl)

theorem comeBack (inv : t.Matched siblings) {f : Frame} (hf : f ∈ t.frames)
    (whole : siblings ≤ f.hops) : (t.comeBack f).Matched siblings := by
  have hcompleted : ∀ c ∈ t.completed, c ∈ (t.comeBack f).completed := fun c hc =>
    List.mem_append_left _ hc
  have round : ∀ {call message}, t.Round siblings call message →
      (t.comeBack f).Round siblings call message := fun h => h.mono hcompleted fun _ hx => hx
  have hround : (t.comeBack f).Round siblings f.call f.message :=
    ⟨List.mem_append_right _ (List.mem_singleton.mpr rfl), fun i hi =>
      inv.travelled f hf i (Nat.lt_of_lt_of_le hi whole)⟩
  refine ⟨fun c h g hg => inv.own c h g (List.mem_of_mem_erase hg), fun c h hphase => ?_,
    fun c h hphase _ => ?_, fun c h hphase => round (inv.done c h hphase),
    fun g hg => inv.travelled g (List.mem_of_mem_erase hg),
    fun r hr htrue => round (inv.truthful r hr htrue)⟩
  · rw [(inv.sending c h hphase).1] at hf
    cases hf
  · obtain ⟨hcall, hmessage⟩ := inv.own c h f hf
    rw [← hcall, ← hmessage]
    exact hround

theorem step {l : BroadcastLabel} (inv : t.Matched siblings) (hquiet : t.quiet l = true)
    (hs : t.step siblings l = some u) : u.Matched siblings := by
  cases l with
  | call task message =>
      obtain ⟨-, rfl⟩ := step_call hs
      simp only [quiet, Bool.and_eq_true, List.isEmpty_iff, beq_iff_eq] at hquiet
      exact inv.call hquiet.1 hquiet.2
  | callBusy message =>
      obtain rfl := step_callBusy hs
      refine { inv with truthful := fun r hr htrue => ?_ }
      simp only [List.mem_append, List.mem_singleton] at hr
      rcases hr with hr | rfl
      · exact inv.truthful r hr htrue
      · cases htrue
  | transmit =>
      obtain ⟨c, hcaller, hphase, rfl⟩ := step_transmit hs
      exact inv.transmit hcaller hphase
  | transmitFails =>
      obtain ⟨c, hcaller, -, rfl⟩ := step_transmitFails hs
      have next : (t.setPhase c (.done false)).Matched siblings :=
        inv.setPhase hcaller (by simp) (by simp) (by simp)
      exact { next with }
  | hop f =>
      obtain ⟨hf, rfl⟩ := step_hop hs
      split
      · exact inv.handOver hf
      · next hwhole => exact inv.comeBack hf (Nat.not_lt.mp hwhole)
  | lose f =>
      obtain rfl := step_lose hs
      refine { inv with
        own := fun c h g hg => inv.own c h g (List.mem_of_mem_erase hg)
        sending := fun c h hphase => ?_
        travelled := fun g hg => inv.travelled g (List.mem_of_mem_erase hg) }
      obtain ⟨hframes, hnotified⟩ := inv.sending c h hphase
      exact ⟨by simp [hframes], hnotified⟩
  | wake =>
      obtain ⟨c, hcaller, ⟨hphase, hnotified⟩, rfl⟩ := step_wake hs
      have hround := inv.waiting c hcaller hphase hnotified
      refine ⟨fun c' h => ?_, fun c' h hphase => ?_, fun c' h hphase => ?_, fun c' h _ => ?_,
        inv.travelled, inv.truthful⟩
      · cases h
        exact inv.own c hcaller
      · cases h
        cases hphase
      · cases h
        cases hphase
      · cases h
        exact hround
  | timeout =>
      obtain ⟨c, hcaller, -, rfl⟩ := step_timeout hs
      exact inv.setPhase hcaller (by simp) (by simp) (by simp)
  | finish =>
      obtain ⟨c, result, hcaller, hphase, rfl⟩ := step_finish hs
      have nobody : ∀ c', (none : Option BroadcastCall) = some c' → False := fun _ h => nomatch h
      refine ⟨fun c' h => (nobody c' h).elim, fun c' h => (nobody c' h).elim,
        fun c' h => (nobody c' h).elim, fun c' h => (nobody c' h).elim, inv.travelled,
        fun r hr htrue => ?_⟩
      simp only [List.mem_append, List.mem_singleton] at hr
      rcases hr with hr | rfl
      · exact inv.truthful r hr htrue
      · change result = true at htrue
        subst htrue
        exact inv.done c hcaller hphase

end Matched

end BroadcastRing

/-- In a run whose calls begin on a quiet ring, a call that returns true has had its own frame
all the way round, in every reachable state. -/
theorem broadcastRing_truthful (siblings : Nat) {t : BroadcastRing}
    (run : (broadcastRing siblings).Executes (fun t l => t.quiet l = true) .start t) :
    t.Truthful siblings :=
  (run.invariant (BroadcastRing.start_matched siblings) fun _ _ _ inv hquiet hs =>
    inv.step hquiet hs).truthful

/-- A frame of the call `call` on a ring of five, when `hops` siblings have handled it. -/
def frameAt (call hops : Nat) : Frame := ⟨.ofNat call, 4 - hops, call, call, hops⟩

/-- A broadcast that goes round, and one that is lost. -/
def twoBroadcasts : List BroadcastLabel :=
  [.call 0 0, .transmit, .hop (frameAt 0 0), .hop (frameAt 0 1), .hop (frameAt 0 2),
    .hop (frameAt 0 3), .hop (frameAt 0 4), .wake, .finish, .call 1 1, .transmit,
    .hop (frameAt 1 0), .lose (frameAt 1 1), .timeout, .finish]

theorem twoBroadcasts_runs :
    ((broadcastRing 4).runWith (fun t l => t.quiet l) .start twoBroadcasts).isSome = true := by
  decide

theorem broadcastRing_truthful_lost :
    (((broadcastRing 4).runWith (fun t l => t.quiet l) .start twoBroadcasts).get
      twoBroadcasts_runs).Truthful 4 :=
  broadcastRing_truthful 4 (Machine.executes_of_runWith (Option.some_get twoBroadcasts_runs).symm)

/-- The frame of a call that has timed out comes back during the next call, whose own frame
is lost. -/
def lateFrame : List BroadcastLabel :=
  [.call 0 0, .transmit, .hop (frameAt 0 0), .hop (frameAt 0 1), .hop (frameAt 0 2),
    .hop (frameAt 0 3), .timeout, .finish, .call 0 1, .transmit, .lose (frameAt 1 0),
    .hop (frameAt 0 4), .wake, .finish]

theorem broadcastRing_lateFrame :
    ¬ ∀ (siblings : Nat) (t : BroadcastRing), (broadcastRing siblings).Reaches .start t →
      t.Truthful siblings := by
  intro h
  obtain ⟨t, ht, hreturned, hcompleted⟩ : ∃ t, (broadcastRing 4).run .start lateFrame = some t ∧
      ⟨1, 1, true⟩ ∈ t.returned ∧ 1 ∉ t.completed := by
    refine ⟨((broadcastRing 4).run .start lateFrame).get (by decide), ?_, ?_, ?_⟩
    · simp
    · decide
    · decide
  exact hcompleted (h 4 t (Machine.reaches_of_run ht) _ hreturned rfl).1

end I4A
