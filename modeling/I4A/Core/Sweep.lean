import I4A.Core.Machine

/-! # One thing after another

What a machine can bring about for one part of its state without undoing it for the others, it
can bring about for all of them.
-/

namespace I4A.Machine

variable {State Label Part : Type*} {M : Machine State Label} {guard : State → Label → Prop}

/-- From `s` an execution can come to a state with the property. -/
def CanReach (M : Machine State Label) (guard : State → Label → Prop) (s : State)
    (P : State → Prop) : Prop :=
  ∃ t, M.Executes guard s t ∧ P t

namespace CanReach

variable {s : State} {P Q : State → Prop}

theorem here (h : P s) : M.CanReach guard s P := ⟨s, .refl s, h⟩

theorem mono (h : M.CanReach guard s P) (weaker : ∀ t, P t → Q t) : M.CanReach guard s Q := by
  obtain ⟨t, run, ht⟩ := h
  exact ⟨t, run, weaker t ht⟩

/-- First to a state with one property, from there to one with the other. -/
theorem bind (h : M.CanReach guard s P) (next : ∀ t, P t → M.CanReach guard t Q) :
    M.CanReach guard s Q := by
  obtain ⟨t, run, ht⟩ := h
  obtain ⟨u, run', hu⟩ := next t ht
  exact ⟨u, run.trans run', hu⟩

theorem step {l : Label} {t : State} (hg : guard s l) (hs : M.step s l = some t)
    (h : M.CanReach guard t P) : M.CanReach guard s P := by
  obtain ⟨u, run, hu⟩ := h
  exact ⟨u, (Executes.single hg hs).trans run, hu⟩

/-- `Inv` is kept while the parts of the list get their property one after another. -/
theorem sweep (Inv : State → Prop) (Settled : Part → State → Prop)
    (settle : ∀ s a, Inv s → M.CanReach guard s fun t =>
      Inv t ∧ Settled a t ∧ ∀ b, Settled b s → Settled b t)
    (parts : List Part) (h : Inv s) :
    M.CanReach guard s fun t => Inv t ∧ (∀ a ∈ parts, Settled a t) ∧
      ∀ b, Settled b s → Settled b t := by
  induction parts with
  | nil => exact here ⟨h, fun a ha => (List.not_mem_nil ha).elim, fun b hb => hb⟩
  | cons a rest ih =>
      refine ih.bind fun t ht => ?_
      obtain ⟨hinv, hrest, hkept⟩ := ht
      refine (settle t a hinv).mono fun u hu => ?_
      obtain ⟨hinv', ha, hkept'⟩ := hu
      refine ⟨hinv', fun b hb => ?_, fun b hb => hkept' b (hkept b hb)⟩
      rcases List.mem_cons.mp hb with rfl | hb
      · exact ha
      · exact hkept' b (hrest b hb)

/-- Steps that lower a number, and of which one can be taken until the property holds. -/
theorem of_falls (Inv : State → Prop) (weight : State → Nat)
    (falls : ∀ s, Inv s → P s ∨ ∃ l t, guard s l ∧ M.step s l = some t ∧ Inv t ∧
      weight t < weight s) (h : Inv s) : M.CanReach guard s fun t => Inv t ∧ P t := by
  induction hw : weight s using Nat.strongRecOn generalizing s with
  | _ w ih =>
      rcases falls s h with hp | ⟨l, t, hg, hs, ht, hlt⟩
      · exact here ⟨h, hp⟩
      · exact step hg hs (ih (weight t) (hw ▸ hlt) ht rfl)

end CanReach

end I4A.Machine
