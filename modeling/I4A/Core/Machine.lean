import Mathlib.Data.List.Basic
import Mathlib.Data.List.Induction

/-! # Labelled machines and their guarded executions

A machine is an executable partial step. Executions carry a guard on every
step, read in the state the step starts from, so that one induction serves
unrestricted runs (the guard `True`) and runs that keep to a side condition.
Nothing here mentions a particular system.
-/

namespace I4A

/-- An executable transition system: `none` means that the label is not enabled. -/
structure Machine (State Label : Type*) where
  step : State → Label → Option State

namespace Machine

variable {State Label : Type*} {M : Machine State Label}

/-- Executions of `M` whose every step satisfies `guard` in its pre-state. -/
inductive Executes (M : Machine State Label) (guard : State → Label → Prop) :
    State → State → Prop where
  | refl (s : State) : Executes M guard s s
  | tail {s t u : State} {l : Label} :
      Executes M guard s t → guard t l → M.step t l = some u → Executes M guard s u

/-- The guard of an unrestricted execution. -/
def free : State → Label → Prop := fun _ _ => True

/-- Execution without any side condition. -/
abbrev Reaches (M : Machine State Label) : State → State → Prop := M.Executes free

/-- Package of the induction on executions: what one guarded step preserves, a whole
guarded execution preserves. -/
theorem Executes.invariant {guard : State → Label → Prop} {Inv : State → Prop}
    {s t : State} (run : M.Executes guard s t) (start : Inv s)
    (preserved : ∀ s l t, Inv s → guard s l → M.step s l = some t → Inv t) : Inv t := by
  induction run with
  | refl => exact start
  | tail _ hg hs ih => exact preserved _ _ _ ih hg hs

theorem Executes.trans {guard : State → Label → Prop} {s t u : State}
    (first : M.Executes guard s t) (second : M.Executes guard t u) :
    M.Executes guard s u := by
  induction second with
  | refl => exact first
  | tail _ hg hs ih => exact ih.tail hg hs

theorem Executes.single {guard : State → Label → Prop} {s t : State} {l : Label}
    (hg : guard s l) (hs : M.step s l = some t) : M.Executes guard s t :=
  (Executes.refl s).tail hg hs

theorem Executes.cases_head {guard : State → Label → Prop} {s u : State}
    (run : M.Executes guard s u) :
    s = u ∨ ∃ l t, guard s l ∧ M.step s l = some t ∧ M.Executes guard t u := by
  induction run with
  | refl => exact .inl rfl
  | tail _ hg hs ih =>
      right
      rcases ih with rfl | ⟨l, t, hguard, hstep, hrest⟩
      · exact ⟨_, _, hg, hs, .refl _⟩
      · exact ⟨l, t, hguard, hstep, hrest.tail hg hs⟩

theorem Executes.to_stuck {M : Machine State Unit} {s t u : State} (run : M.Reaches s u)
    (stops : M.Reaches s t) (stuck : M.step t () = none) : M.Reaches u t := by
  induction run with
  | refl => exact stops
  | tail _ _ hstep ih =>
      rcases ih.cases_head with rfl | ⟨l, v, -, hv, hrest⟩
      · rw [stuck] at hstep
        cases hstep
      · rw [hstep] at hv
        cases hv
        exact hrest

theorem Executes.mono {guard guard' : State → Label → Prop} {s t : State}
    (run : M.Executes guard s t) (weaker : ∀ s l, guard s l → guard' s l) :
    M.Executes guard' s t := by
  induction run with
  | refl => exact .refl _
  | tail _ hg hs ih => exact ih.tail (weaker _ _ hg) hs

theorem Executes.reaches {guard : State → Label → Prop} {s t : State}
    (run : M.Executes guard s t) : M.Reaches s t :=
  run.mono fun _ _ _ => trivial

/-- Run a schedule of labels; it stops with `none` at the first label that is not enabled
or does not pass the check. -/
def runWith (M : Machine State Label) (check : State → Label → Bool) :
    State → List Label → Option State
  | s, [] => some s
  | s, l :: ls => if check s l then (M.step s l).bind (runWith M check · ls) else none

/-- Run a schedule of labels without a check. -/
def run (M : Machine State Label) (s : State) (ls : List Label) : Option State :=
  M.runWith (fun _ _ => true) s ls

theorem runWith_append {check : State → Label → Bool} (s : State) (first second : List Label) :
    M.runWith check s (first ++ second) =
      (M.runWith check s first).bind (M.runWith check · second) := by
  induction first generalizing s with
  | nil => rfl
  | cons l ls ih =>
      simp only [List.cons_append, runWith]
      split
      · rw [Option.bind_assoc]
        congr
        funext u
        exact ih u
      · rfl

theorem executes_of_runWith {check : State → Label → Bool} {s t : State} {ls : List Label}
    (h : M.runWith check s ls = some t) : M.Executes (fun s l => check s l = true) s t := by
  induction ls generalizing s with
  | nil =>
      simp only [runWith, Option.some.injEq] at h
      subst h
      exact .refl s
  | cons l ls ih =>
      by_cases hc : check s l = true
      · rw [runWith, if_pos hc] at h
        obtain ⟨u, hu, hrest⟩ := Option.bind_eq_some_iff.mp h
        have first : M.Executes (fun s l => check s l = true) s u := .single hc hu
        exact first.trans (ih hrest)
      · rw [runWith, if_neg hc] at h
        cases h

theorem reaches_of_run {s t : State} {ls : List Label} (h : M.run s ls = some t) :
    M.Reaches s t :=
  (executes_of_runWith h).reaches

theorem run_concat (s : State) (ls : List Label) (l : Label) :
    M.run s (ls ++ [l]) = (M.run s ls).bind (M.step · l) := by
  rw [run, runWith_append]
  congr
  funext t
  simp [runWith]

theorem run_induction {P : List Label → State → Prop} {s : State} (start : P [] s)
    (preserved : ∀ ls t l u, M.run s ls = some t → P ls t → M.step t l = some u →
      P (ls ++ [l]) u) {ls : List Label} {t : State} (h : M.run s ls = some t) : P ls t := by
  induction ls using List.reverseRecOn generalizing t with
  | nil =>
      cases h
      exact start
  | append_singleton ls l ih =>
      rw [run_concat] at h
      obtain ⟨u, hu, hstep⟩ := Option.bind_eq_some_iff.mp h
      exact preserved ls u l t hu (ih hu) hstep

/-- Two machines side by side, one step of one of them at a time. -/
def prod {State' Label' : Type*} (M : Machine State Label) (N : Machine State' Label') :
    Machine (State × State') (Label ⊕ Label') :=
  ⟨fun s l =>
    match l with
    | .inl l => (M.step s.1 l).map fun u => (u, s.2)
    | .inr l => (N.step s.2 l).map fun u => (s.1, u)⟩

end Machine

end I4A
