import Mathlib

/-! # A countdown that every request starts again

Some events arm the countdown, every event lets some time pass. The state is the time
passed since the countdown was armed, unbounded, or `none` while it is idle; it goes off at
the event with which that time reaches the limit. Both are then read off the history alone.
-/

namespace I4A

/-- What arms a countdown, how long an event takes and when the countdown goes off. -/
structure Countdown (Event : Type*) where
  limit : Nat
  limit_pos : 0 < limit
  arms : Event → Bool
  duration : Event → Nat

namespace Countdown

variable {Event : Type*} (C : Countdown Event)

/-- The time a stretch of events takes. -/
def passed (events : List Event) : Nat :=
  (events.map C.duration).sum

@[simp] theorem passed_nil : C.passed [] = 0 := rfl

@[simp] theorem passed_cons (e : Event) (events : List Event) :
    C.passed (e :: events) = C.duration e + C.passed events := by
  simp [passed]

/-- No event of the stretch starts the countdown again. -/
def Unarmed (events : List Event) : Prop :=
  ∀ e ∈ events, C.arms e = false

/-- Whether the countdown goes off at an event. -/
def fires : Option Nat → Event → Bool
  | some time, e => !C.arms e && decide (C.limit ≤ time + C.duration e)
  | none, _ => false

def next (state : Option Nat) (e : Event) : Option Nat :=
  if C.arms e then some 0
  else if C.fires state e then none
  else state.map (· + C.duration e)

/-- The state after a history. -/
def after (state : Option Nat) (history : List Event) : Option Nat :=
  history.foldl C.next state

/-- How often the countdown goes off in a history. -/
def firings : Option Nat → List Event → Nat
  | _, [] => 0
  | state, e :: rest => (if C.fires state e then 1 else 0) + firings (C.next state e) rest

/-- An armed countdown has not reached its limit. -/
def Waiting (state : Option Nat) : Prop :=
  ∀ time, state = some time → time < C.limit

/-! ## One event -/

@[simp] theorem next_of_arms (state : Option Nat) {e : Event} (h : C.arms e = true) :
    C.next state e = some 0 := by
  simp [next, h]

@[simp] theorem next_none {e : Event} (h : C.arms e = false) : C.next none e = none := by
  simp [next, fires, h]

theorem next_some {time : Nat} {e : Event} (h : C.arms e = false) :
    C.next (some time) e =
      if C.limit ≤ time + C.duration e then none else some (time + C.duration e) := by
  simp [next, fires, h]

theorem Waiting.next {state : Option Nat} (inv : C.Waiting state) (e : Event) :
    C.Waiting (C.next state e) := by
  intro time h
  cases harm : C.arms e with
  | true =>
      rw [C.next_of_arms state harm] at h
      cases h
      exact C.limit_pos
  | false =>
      cases state with
      | none => simp [harm] at h
      | some before =>
          rw [C.next_some harm] at h
          split at h
          · cases h
          · cases h
            omega

/-! ## A history -/

theorem after_append (state : Option Nat) (first second : List Event) :
    C.after state (first ++ second) = C.after (C.after state first) second := by
  simp [after]

theorem Waiting.after {state : Option Nat} (inv : C.Waiting state) (history : List Event) :
    C.Waiting (C.after state history) := by
  induction history generalizing state with
  | nil => exact inv
  | cons e rest ih => exact ih (inv.next C e)

theorem waiting_none : C.Waiting none := by
  intro time h
  cases h

theorem after_none {events : List Event} (h : C.Unarmed events) : C.after none events = none := by
  induction events with
  | nil => rfl
  | cons e rest ih =>
      have hnext : C.next none e = none := C.next_none (h e List.mem_cons_self)
      have hrest : C.Unarmed rest := fun e' he' => h e' (List.mem_cons_of_mem e he')
      simpa [Countdown.after, hnext] using ih hrest

theorem firings_none {events : List Event} (h : C.Unarmed events) : C.firings none events = 0 := by
  induction events with
  | nil => rfl
  | cons e rest ih =>
      have hrest : C.Unarmed rest := fun e' he' => h e' (List.mem_cons_of_mem e he')
      simp [firings, fires, C.next_none (h e List.mem_cons_self), ih hrest]

/-- An armed countdown that is left alone waits until the limit and is idle from then on. -/
theorem after_some {events : List Event} (h : C.Unarmed events) {time : Nat}
    (before : time < C.limit) :
    C.after (some time) events =
      if C.limit ≤ time + C.passed events then none else some (time + C.passed events) := by
  induction events generalizing time with
  | nil =>
      rw [passed_nil, if_neg (by omega)]
      rfl
  | cons e rest ih =>
      have hrest : C.Unarmed rest := fun e' he' => h e' (List.mem_cons_of_mem e he')
      have hnext : C.next (some time) e = _ := C.next_some (h e List.mem_cons_self)
      have hcons : C.after (some time) (e :: rest) = C.after (C.next (some time) e) rest := rfl
      rw [hcons, hnext, passed_cons]
      by_cases hlim : C.limit ≤ time + C.duration e
      · rw [if_pos hlim, C.after_none hrest, if_pos (by omega)]
      · rw [if_neg hlim, ih hrest (by omega)]
        simp only [Nat.add_assoc]

/-- Left alone, an armed countdown goes off once if it is given the time, and else not. -/
theorem firings_some {events : List Event} (h : C.Unarmed events) {time : Nat}
    (before : time < C.limit) :
    C.firings (some time) events = if C.limit ≤ time + C.passed events then 1 else 0 := by
  induction events generalizing time with
  | nil =>
      rw [passed_nil, if_neg (by omega)]
      rfl
  | cons e rest ih =>
      have harm : C.arms e = false := h e List.mem_cons_self
      have hrest : C.Unarmed rest := fun e' he' => h e' (List.mem_cons_of_mem e he')
      rw [firings, C.next_some harm, passed_cons]
      by_cases hlim : C.limit ≤ time + C.duration e
      · rw [if_pos hlim, C.firings_none hrest, if_pos (by simp [fires, harm, hlim]),
          if_pos (by omega)]
      · rw [if_neg hlim, ih hrest (by omega), if_neg (by simp [fires, harm, hlim])]
        simp only [Nat.zero_add, Nat.add_assoc]

/-- A history is idle, or it has a last arming event. -/
theorem unarmed_or_last (history : List Event) :
    C.Unarmed history ∨
      ∃ first request events, history = first ++ request :: events ∧ C.arms request = true ∧
        C.Unarmed events := by
  induction history with
  | nil => exact .inl (by simp [Unarmed])
  | cons e rest ih =>
      rcases ih with hrest | ⟨first, request, events, heq, harm, hev⟩
      · cases harm : C.arms e with
        | true => exact .inr ⟨[], e, rest, rfl, harm, hrest⟩
        | false =>
            left
            intro e' he'
            rcases List.mem_cons.mp he' with rfl | he'
            · exact harm
            · exact hrest e' he'
      · exact .inr ⟨e :: first, request, events, by rw [heq, List.cons_append], harm, hev⟩

theorem after_armed (state : Option Nat) (first : List Event) {request : Event}
    {events : List Event} (harm : C.arms request = true) (hev : C.Unarmed events) :
    C.after state (first ++ request :: events) =
      if C.limit ≤ C.passed events then none else some (C.passed events) := by
  have hcons : C.after (C.after state first) (request :: events) =
      C.after (C.next (C.after state first) request) events := rfl
  rw [after_append, hcons, C.next_of_arms _ harm, C.after_some hev C.limit_pos, Nat.zero_add]

/-- A countdown started idle waits after exactly the histories whose last arming event is
less than the limit ago. -/
theorem after_eq_some_iff {history : List Event} {time : Nat} :
    C.after none history = some time ↔
      ∃ first request events, history = first ++ request :: events ∧ C.arms request = true ∧
        C.Unarmed events ∧ C.passed events = time ∧ time < C.limit := by
  constructor
  · intro h
    have hlt : time < C.limit := (C.waiting_none.after C history) time h
    rcases C.unarmed_or_last history with hun | ⟨first, request, events, rfl, harm, hev⟩
    · rw [C.after_none hun] at h
      cases h
    · refine ⟨first, request, events, rfl, harm, hev, ?_, hlt⟩
      rw [C.after_armed none first harm hev] at h
      split at h
      · cases h
      · exact Option.some.inj h
  · rintro ⟨first, request, events, rfl, harm, hev, rfl, hlt⟩
    rw [C.after_armed none first harm hev, if_neg (by omega)]

end Countdown

end I4A
