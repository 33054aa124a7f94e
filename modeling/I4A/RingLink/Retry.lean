import Mathlib.Data.List.Nodup
import I4A.RingLink.Broadcast

/-! # Retried broadcasts

`node_broadcast_to_siblings` repeats a broadcast that did not return true. Its
calls are the messages of the ring below; each task makes one at a time.
-/

namespace I4A

/-- `MAX_RETRIES`. -/
def maxRetries : Nat := 5

/-- The loop of `node_broadcast_to_siblings`: the message and how many attempts have failed. -/
structure RetryLoop where
  message : Nat
  failed : Nat
  deriving DecidableEq

/-- What the loop does with the result of an attempt. -/
def RetryLoop.next (loop : RetryLoop) (result : Bool) : Option RetryLoop :=
  if result then none else some { loop with failed := loop.failed + 1 }

structure NodeBroadcasts where
  ring : BroadcastRing
  /-- The loop each task is in. -/
  loops : Nat → Option RetryLoop
  /-- How many calls of `node_broadcast_to_siblings` there have been. -/
  messages : Nat

inductive NodeBroadcastLabel where
  | nodeBroadcast (task : Nat)
  | attempt (task : Nat)
  | attemptBusy (task : Nat)
  /-- The return of an attempt to the loop. -/
  | attemptReturns
  | giveUp (task : Nat)
  | transmit
  | transmitFails
  | hop (f : Frame)
  | lose (f : Frame)
  | wake
  | timeout
  deriving DecidableEq

namespace NodeBroadcasts

def start : NodeBroadcasts := ⟨.start, fun _ => none, 0⟩

/-- A step of the ring below the loops. -/
def onRing (siblings : Nat) (t : NodeBroadcasts) (l : BroadcastLabel) : Option NodeBroadcasts :=
  (t.ring.step siblings l).map fun ring => { t with ring := ring }

def step (siblings : Nat) (t : NodeBroadcasts) : NodeBroadcastLabel → Option NodeBroadcasts
  | .nodeBroadcast task =>
      if t.loops task = none then
        some { t with
          loops := Function.update t.loops task (some ⟨t.messages, 0⟩)
          messages := t.messages + 1 }
      else none
  | .attempt task =>
      match t.loops task with
      | some loop =>
          if loop.failed < maxRetries then t.onRing siblings (.call task loop.message) else none
      | none => none
  | .attemptBusy task =>
      match t.loops task with
      | some loop =>
          if loop.failed < maxRetries then
            (t.onRing siblings (.callBusy loop.message)).map fun u =>
              { u with loops := Function.update t.loops task (loop.next false) }
          else none
      | none => none
  | .attemptReturns =>
      match t.ring.caller with
      | some ⟨task, _, _, .done result⟩ =>
          let loop := (t.loops task).bind (RetryLoop.next · result)
          (t.onRing siblings .finish).map fun u =>
            { u with loops := Function.update t.loops task loop }
      | _ => none
  | .giveUp task =>
      match t.loops task with
      | some loop =>
          if loop.failed = maxRetries then
            some { t with loops := Function.update t.loops task none }
          else none
      | none => none
  | .transmit => t.onRing siblings .transmit
  | .transmitFails => t.onRing siblings .transmitFails
  | .hop f => t.onRing siblings (.hop f)
  | .lose f => t.onRing siblings (.lose f)
  | .wake => t.onRing siblings .wake
  | .timeout => t.onRing siblings .timeout

/-- How often the callback of a sibling has got the message. -/
def deliveries (t : NodeBroadcasts) (message sibling : Nat) : Nat :=
  t.ring.handed.countP fun h => h.message = message ∧ h.sibling = sibling

def AtMostOnce (t : NodeBroadcasts) : Prop :=
  ∀ message sibling, t.deliveries message sibling ≤ 1

/-- An attempt is made only if the frames of the attempts before it were lost before they
reached a sibling. -/
def unsent (t : NodeBroadcasts) : NodeBroadcastLabel → Bool
  | .attempt task =>
      match t.loops task with
      | some loop =>
          (t.ring.frames.all fun f => f.message ≠ loop.message) &&
            t.ring.handed.all fun h => h.message ≠ loop.message
      | none => true
  | _ => true

end NodeBroadcasts

/-- The broadcasts of a node's board on a ring with `siblings` other boards. -/
def nodeBroadcasts (siblings : Nat) : Machine NodeBroadcasts NodeBroadcastLabel :=
  ⟨fun t l => t.step siblings l⟩

namespace BroadcastRing

/-- No frame and no sibling has the message. -/
def Unseen (t : BroadcastRing) (message : Nat) : Prop :=
  (∀ f ∈ t.frames, f.message ≠ message) ∧ ∀ h ∈ t.handed, h.message ≠ message

/-- A message travels in one frame at a time, and the siblings that have it are those its
frame has passed. -/
structure Single (t : BroadcastRing) : Prop where
  frames : (t.frames.map (·.message)).Nodup
  passed : ∀ f ∈ t.frames, ∀ h ∈ t.handed, h.message = f.message → h.sibling < f.hops
  handed : (t.handed.map fun h => (h.message, h.sibling)).Nodup
  sending : ∀ c, t.caller = some c → c.phase = .sending → t.Unseen c.message

variable {siblings : Nat} {t u : BroadcastRing}

theorem Unseen.mono {message : Nat} (h : t.Unseen message)
    (frames : ∀ f ∈ u.frames, f ∈ t.frames) (handed : u.handed = t.handed) :
    u.Unseen message :=
  ⟨fun f hf => h.1 f (frames f hf), fun x hx => h.2 x (handed ▸ hx)⟩

namespace Single

theorem drop (inv : t.Single) (frames : u.frames.Sublist t.frames) (handed : u.handed = t.handed)
    (sending : ∀ c, u.caller = some c → c.phase = .sending → t.caller = some c) : u.Single where
  frames := inv.frames.sublist (frames.map _)
  passed f hf h hh := inv.passed f (frames.subset hf) h (handed ▸ hh)
  handed := by
    rw [handed]
    exact inv.handed
  sending c hc hphase := (inv.sending c (sending c hc hphase) hphase).mono
    (fun _ hf => frames.subset hf) handed

theorem ended (inv : t.Single) {c : BroadcastCall} (frames : u.frames.Sublist t.frames)
    (handed : u.handed = t.handed) (caller : u.caller = some c) (phase : c.phase ≠ .sending) :
    u.Single := by
  refine inv.drop frames handed fun c' hc' hphase => ?_
  rw [caller] at hc'
  cases hc'
  exact absurd hphase phase

theorem transmit (inv : t.Single) {c : BroadcastCall} (hcaller : t.caller = some c)
    (hphase : c.phase = .sending) (frames : u.frames = t.frames ++ [t.frame c])
    (handed : u.handed = t.handed) (sending : ∀ c, u.caller = some c → c.phase ≠ .sending) :
    u.Single := by
  obtain ⟨hframes, hhanded⟩ := inv.sending c hcaller hphase
  refine ⟨?_, fun f hf h hh hmessage => ?_, ?_, fun c' hc' hphase' =>
    absurd hphase' (sending c' hc')⟩
  · rw [frames, List.map_append, List.nodup_append]
    refine ⟨inv.frames, List.nodup_singleton _, fun a ha b hb => ?_⟩
    obtain ⟨f, hf, rfl⟩ := List.mem_map.mp ha
    rw [List.map_singleton, List.mem_singleton] at hb
    subst hb
    exact hframes f hf
  · rw [handed] at hh
    rw [frames, List.mem_append, List.mem_singleton] at hf
    rcases hf with hf | rfl
    · exact inv.passed f hf h hh hmessage
    · exact absurd hmessage (hhanded h hh)
  · rw [handed]
    exact inv.handed

theorem handOver (inv : t.Single) {f : Frame} (hf : f ∈ t.frames) : (t.handOver f).Single := by
  have hperm := List.perm_cons_erase hf
  have hnodup : (f.message :: (t.frames.erase f).map (·.message)).Nodup :=
    (hperm.map Frame.message).nodup_iff.mp inv.frames
  have hother : ∀ g ∈ t.frames.erase f, g.message ≠ f.message := fun g hg hmessage =>
    (List.nodup_cons.mp hnodup).1 (List.mem_map.mpr ⟨g, hg, hmessage⟩)
  have hnext : ∀ g ∈ (t.handOver f).frames, g ∈ t.frames.erase f ∨
      g.message = f.message ∧ g.hops = f.hops + 1 := by
    intro g hg
    simp only [BroadcastRing.handOver, List.mem_append] at hg
    rcases hg with hg | hg
    · exact .inl hg
    · split at hg
      · cases hg
      · rw [List.mem_singleton] at hg
        subst hg
        exact .inr ⟨rfl, rfl⟩
  refine ⟨?_, fun g hg h hh hmessage => ?_, ?_, fun c hc hphase => ?_⟩
  · simp only [BroadcastRing.handOver, List.map_append]
    split
    · simpa using (List.nodup_cons.mp hnodup).2
    · refine (List.perm_append_comm.nodup_iff).mp ?_
      exact hnodup
  · simp only [BroadcastRing.handOver, List.mem_append, List.mem_singleton] at hh
    rcases hnext g hg with hg | ⟨hgm, hgh⟩
    · rcases hh with hh | rfl
      · exact inv.passed g (List.mem_of_mem_erase hg) h hh hmessage
      · exact absurd hmessage.symm (hother g hg)
    · rw [hgh]
      rcases hh with hh | rfl
      · exact Nat.lt_succ_of_lt (inv.passed f hf h hh (hmessage.trans hgm))
      · exact Nat.lt_succ_self _
  · simp only [BroadcastRing.handOver, List.map_append, List.nodup_append]
    refine ⟨inv.handed, by simp, fun a ha b hb hab => ?_⟩
    simp only [List.map_cons, List.map_nil, List.mem_singleton] at hb
    obtain ⟨h, hh, rfl⟩ := List.mem_map.mp ha
    rw [hb, Prod.mk.injEq] at hab
    exact Nat.ne_of_lt (inv.passed f hf h hh hab.1) hab.2
  · obtain ⟨hframes, hhanded⟩ := inv.sending c hc hphase
    have hf' := hframes f hf
    refine ⟨fun g hg => ?_, fun h hh => ?_⟩
    · rcases hnext g hg with hg | ⟨hgm, -⟩
      · exact hframes g (List.mem_of_mem_erase hg)
      · rw [hgm]
        exact hf'
    · simp only [BroadcastRing.handOver, List.mem_append, List.mem_singleton] at hh
      rcases hh with hh | rfl
      · exact hhanded h hh
      · exact hf'

/-- A call of a message that nobody has seen, or any other step of the ring. -/
theorem step {l : BroadcastLabel} (inv : t.Single)
    (unseen : ∀ task message, l = .call task message → t.Unseen message)
    (hs : t.step siblings l = some u) : u.Single := by
  cases l with
  | call task message =>
      obtain ⟨-, rfl⟩ := step_call hs
      refine { inv with sending := fun c hc _ => ?_ }
      cases hc
      exact unseen task message rfl
  | callBusy message =>
      obtain rfl := step_callBusy hs
      exact inv.drop (.refl _) rfl fun _ hc _ => hc
  | transmit =>
      obtain ⟨c, hcaller, hphase, rfl⟩ := step_transmit hs
      refine inv.transmit hcaller hphase rfl rfl fun c' hc' => ?_
      cases hc'
      simp
  | transmitFails =>
      obtain ⟨c, -, -, rfl⟩ := step_transmitFails hs
      exact inv.ended (.refl _) rfl rfl (by simp)
  | hop f =>
      obtain ⟨hf, rfl⟩ := step_hop hs
      split
      · exact inv.handOver hf
      · exact inv.drop List.erase_sublist rfl fun _ hc _ => hc
  | lose f =>
      obtain rfl := step_lose hs
      exact inv.drop List.erase_sublist rfl fun _ hc _ => hc
  | wake =>
      obtain ⟨c, -, -, rfl⟩ := step_wake hs
      exact inv.ended (.refl _) rfl rfl (by simp)
  | timeout =>
      obtain ⟨c, -, -, rfl⟩ := step_timeout hs
      exact inv.ended (.refl _) rfl rfl (by simp)
  | finish =>
      obtain ⟨c, result, -, -, rfl⟩ := step_finish hs
      exact inv.drop (.refl _) rfl fun c' hc' _ => nomatch hc'

end Single

theorem start_single : start.Single where
  frames := List.nodup_nil
  passed _ hf := nomatch hf
  handed := List.nodup_nil
  sending _ hc := nomatch hc

end BroadcastRing

namespace NodeBroadcasts

variable {siblings : Nat} {t u : NodeBroadcasts}

theorem onRing_single {l : BroadcastLabel} (inv : t.ring.Single)
    (unseen : ∀ task message, l = .call task message → t.ring.Unseen message)
    (hs : t.onRing siblings l = some u) : u.ring.Single := by
  obtain ⟨ring, hring, rfl⟩ := Option.map_eq_some_iff.mp hs
  exact inv.step unseen hring

theorem step_single {l : NodeBroadcastLabel} (inv : t.ring.Single) (hunsent : t.unsent l = true)
    (hs : t.step siblings l = some u) : u.ring.Single := by
  cases l with
  | nodeBroadcast task =>
      simp only [step] at hs
      split at hs
      · cases hs
        exact inv
      · cases hs
  | attempt task =>
      simp only [step] at hs
      split at hs
      · next loop hloop =>
        split at hs
        · refine onRing_single inv (fun task' message h => ?_) hs
          cases h
          simp only [unsent, hloop, Bool.and_eq_true, List.all_eq_true, decide_eq_true_eq]
            at hunsent
          exact hunsent
        · cases hs
      · cases hs
  | attemptBusy task =>
      simp only [step] at hs
      split at hs
      · split at hs
        · obtain ⟨v, hv, rfl⟩ := Option.map_eq_some_iff.mp hs
          have hring : v.ring.Single := onRing_single inv (by simp) hv
          exact hring
        · cases hs
      · cases hs
  | attemptReturns =>
      simp only [step] at hs
      split at hs
      · obtain ⟨v, hv, rfl⟩ := Option.map_eq_some_iff.mp hs
        have hring : v.ring.Single := onRing_single inv (by simp) hv
        exact hring
      · cases hs
  | giveUp task =>
      simp only [step] at hs
      split at hs
      · split at hs
        · cases hs
          exact inv
        · cases hs
      · cases hs
  | transmit => exact onRing_single inv (by simp) hs
  | transmitFails => exact onRing_single inv (by simp) hs
  | hop f => exact onRing_single inv (by simp) hs
  | lose f => exact onRing_single inv (by simp) hs
  | wake => exact onRing_single inv (by simp) hs
  | timeout => exact onRing_single inv (by simp) hs

theorem atMostOnce_of_single (inv : t.ring.Single) : t.AtMostOnce := by
  intro message sibling
  have hcount := List.nodup_iff_count_le_one.mp inv.handed (message, sibling)
  rw [List.count, List.countP_map] at hcount
  refine Nat.le_trans (Nat.le_of_eq ?_) hcount
  exact List.countP_congr fun h _ => by simp

end NodeBroadcasts

/-- In a run that repeats a broadcast only after its frame was lost before the first sibling,
no sibling's callback gets a message twice. -/
theorem nodeBroadcasts_atMostOnce (siblings : Nat) {t : NodeBroadcasts}
    (run : (nodeBroadcasts siblings).Executes (fun t l => t.unsent l = true) .start t) :
    t.AtMostOnce := by
  have inv : t.ring.Single := by
    induction run with
    | refl => exact BroadcastRing.start_single
    | tail _ hunsent hs ih => exact NodeBroadcasts.step_single ih hunsent hs
  exact NodeBroadcasts.atMostOnce_of_single inv

/-- A frame of message 0, sent as the call `call`, when `hops` siblings have handled it. -/
def attemptFrame (call hops : Nat) : Frame := ⟨.ofNat call, 4 - hops, call, 0, hops⟩

/-- The first frame is lost on the first hop; the second goes round. -/
def lostThenSent : List NodeBroadcastLabel :=
  [.nodeBroadcast 0, .attempt 0, .transmit, .lose (attemptFrame 0 0), .timeout, .attemptReturns,
    .attempt 0, .transmit, .hop (attemptFrame 1 0), .hop (attemptFrame 1 1),
    .hop (attemptFrame 1 2), .hop (attemptFrame 1 3), .hop (attemptFrame 1 4), .wake,
    .attemptReturns]

theorem lostThenSent_runs :
    ((nodeBroadcasts 4).runWith (fun t l => t.unsent l) .start lostThenSent).isSome = true := by
  decide

theorem nodeBroadcasts_atMostOnce_lost :
    (((nodeBroadcasts 4).runWith (fun t l => t.unsent l) .start lostThenSent).get
      lostThenSent_runs).AtMostOnce :=
  nodeBroadcasts_atMostOnce 4
    (Machine.executes_of_runWith (Option.some_get lostThenSent_runs).symm)

/-- The wait times out while the first frame is still held up at a sibling. -/
def heldUpThenSent : List NodeBroadcastLabel :=
  [.nodeBroadcast 0, .attempt 0, .transmit, .hop (attemptFrame 0 0), .timeout, .attemptReturns,
    .attempt 0, .transmit, .hop (attemptFrame 1 0)]

theorem nodeBroadcasts_twice :
    ¬ ∀ (siblings : Nat) (t : NodeBroadcasts), (nodeBroadcasts siblings).Reaches .start t →
      t.AtMostOnce := by
  intro h
  obtain ⟨t, ht, htwice⟩ : ∃ t, (nodeBroadcasts 4).run .start heldUpThenSent = some t ∧
      t.deliveries 0 0 = 2 := by
    refine ⟨((nodeBroadcasts 4).run .start heldUpThenSent).get (by decide), ?_, ?_⟩
    · simp
    · decide
  have honce := h 4 t (Machine.reaches_of_run ht) 0 0
  omega

end I4A
