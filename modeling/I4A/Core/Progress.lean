import I4A.Core.Machine
import Mathlib.Tactic.Common

/-! # Endless executions

An endless execution takes a step from every state. A number that no step raises
and some steps lower bounds how often those are taken, so that they stop.
-/

namespace I4A.Machine

variable {State Label : Type*} {M : Machine State Label} {guard : State → Label → Prop}

/-- An execution without end whose every step satisfies `guard`. -/
structure Endless (M : Machine State Label) (guard : State → Label → Prop)
    (states : Nat → State) (labels : Nat → Label) : Prop where
  guarded : ∀ n, guard (states n) (labels n)
  step : ∀ n, M.step (states n) (labels n) = some (states (n + 1))

namespace Endless

variable {states : Nat → State} {labels : Nat → Label}

/-- A schedule whose last state has a step to itself goes on for ever. -/
theorem exists_of_runWith {check : State → Label → Bool} {s t : State} {ls : List Label}
    (idle : Label) (h : M.runWith check s ls = some t) (hcheck : check t idle = true)
    (hidle : M.step t idle = some t) :
    ∃ states labels, M.Endless (fun s l => check s l = true) states labels ∧ states 0 = s ∧
      ∀ n l, ls[n]? = some l → labels n = l := by
  induction ls generalizing s with
  | nil =>
      cases h
      exact ⟨fun _ => t, fun _ => idle, ⟨fun _ => hcheck, fun _ => hidle⟩, rfl, nofun⟩
  | cons l ls ih =>
      by_cases hc : check s l = true
      · rw [runWith, if_pos hc] at h
        obtain ⟨u, hu, hrest⟩ := Option.bind_eq_some_iff.mp h
        obtain ⟨states, labels, run, rfl, hlabels⟩ := ih hrest
        refine ⟨fun n => n.casesOn s states, fun n => n.casesOn l labels, ⟨?_, ?_⟩, rfl, ?_⟩
        · rintro (_ | n)
          · exact hc
          · exact run.guarded n
        · rintro (_ | n)
          · exact hu
          · exact run.step n
        · rintro (_ | n) l' hl'
          · exact Option.some.inj hl'
          · exact hlabels n l' hl'
      · rw [runWith, if_neg hc] at h
        cases h

theorem executes (run : M.Endless guard states labels) (n : Nat) :
    M.Executes guard (states 0) (states n) := by
  induction n with
  | zero => exact .refl _
  | succ n ih => exact ih.tail (run.guarded n) (run.step n)

/-- What every step leaves or lowers, and a counted step lowers, bounds the counted steps. -/
theorem count_le (run : M.Endless guard states labels) (weight : State → Nat)
    (counted : Label → Bool)
    (falls : ∀ s l t, M.Executes guard (states 0) s → guard s l → M.step s l = some t →
      weight t + (counted l).toNat ≤ weight s) (n : Nat) :
    weight (states n) + (List.range n).countP (fun i => counted (labels i)) ≤
      weight (states 0) := by
  induction n with
  | zero => exact Nat.le_refl _
  | succ n ih =>
      have hstep := falls _ _ _ (run.executes n) (run.guarded n) (run.step n)
      rw [List.range_succ, List.countP_append, List.countP_singleton]
      cases hcounted : counted (labels n) with
      | true =>
          rw [hcounted] at hstep
          simp only [Bool.toNat_true, if_true] at hstep ⊢
          omega
      | false =>
          rw [hcounted] at hstep
          simp only [Bool.toNat_false, Bool.false_eq_true, if_false] at hstep ⊢
          omega

/-- So counted steps stop. -/
theorem eventually_not (run : M.Endless guard states labels) (weight : State → Nat)
    (counted : Label → Bool)
    (falls : ∀ s l t, M.Executes guard (states 0) s → guard s l → M.step s l = some t →
      weight t + (counted l).toNat ≤ weight s) :
    ∃ n, ∀ m, n ≤ m → counted (labels m) = false := by
  by_contra hinfinite
  have often : ∀ n, ∃ m, n ≤ m ∧ counted (labels m) = true := by
    intro n
    by_contra hnone
    apply hinfinite
    refine ⟨n, fun m hm => ?_⟩
    cases hcounted : counted (labels m) with
    | true => exact absurd ⟨m, hm, hcounted⟩ hnone
    | false => rfl
  have many : ∀ k, ∃ n, k ≤ (List.range n).countP fun i => counted (labels i) := by
    intro k
    induction k with
    | zero => exact ⟨0, Nat.zero_le _⟩
    | succ k ih =>
        obtain ⟨n, hn⟩ := ih
        obtain ⟨m, hm, hcounted⟩ := often n
        refine ⟨m + 1, ?_⟩
        have hmono : (List.range n).countP (fun i => counted (labels i)) ≤
            (List.range m).countP fun i => counted (labels i) :=
          (List.range_sublist.mpr hm).countP_le
        rw [List.range_succ, List.countP_append, List.countP_singleton, if_pos hcounted]
        omega
  obtain ⟨n, hn⟩ := many (weight (states 0) + 1)
  have := run.count_le weight counted falls n
  omega

/-- And an execution of counted steps alone has an end. -/
theorem false_of_falls (run : M.Endless guard states labels) (weight : State → Nat)
    (falls : ∀ s l t, M.Executes guard (states 0) s → guard s l → M.step s l = some t →
      weight t < weight s) : False := by
  obtain ⟨n, hn⟩ := run.eventually_not weight (fun _ => true) falls
  exact absurd (hn n (Nat.le_refl n)) (by decide)

end Endless

end I4A.Machine
