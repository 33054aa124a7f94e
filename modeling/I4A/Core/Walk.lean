import Mathlib.Computability.StateTransition

/-! # Walks along a next hop

A function `α → Option α` walks from node to node until it gives `none`. A walk
that ends never meets a node twice, and a rank that falls at every hop leaves
no room for a second visit either.
-/

namespace I4A

open StateTransition

variable {α : Type*} {next : α → Option α} {a b : α}

/-- No node that the walk from `a` comes to is met again further on. -/
def NeverRevisits (next : α → Option α) (a : α) : Prop :=
  ∀ b, Reaches next a b → ¬ Reaches₁ next b b

/-- A walk inside a cycle never leaves it. -/
theorem reaches₁_self_of_reaches (cycle : Reaches₁ next a a) (h : Reaches next a b) :
    Reaches₁ next b b := by
  induction h with
  | refl => exact cycle
  | tail _ hop ih => exact Relation.TransGen.tail' (reaches₁_fwd ih hop) hop

theorem neverRevisits_of_ends (h : Reaches next a b) (last : next b = none) :
    NeverRevisits next a := by
  intro c hac cycle
  have hend : b ∈ eval next a := mem_eval.mpr ⟨h, last⟩
  rcases reaches_total hac h with hcb | hbc
  · exact eval_maximal₁ hend b (reaches₁_self_of_reaches cycle hcb)
  · obtain rfl : c = b := (eval_maximal hend).mp hbc
    exact eval_maximal₁ hend c cycle

theorem neverRevisits_of_rank (rank : α → Nat)
    (falls : ∀ a b, next a = some b → rank b < rank a) : NeverRevisits next a := by
  have lower : ∀ b c, Reaches₁ next b c → rank c < rank b := by
    intro b c h
    induction h with
    | single hop => exact falls _ _ hop
    | tail _ hop ih => exact Nat.lt_trans (falls _ _ hop) ih
  intro b _ cycle
  exact Nat.lt_irrefl _ (lower b b cycle)

theorem not_neverRevisits_of_bounce (h : Reaches next a b) {c : α} (there : next b = some c)
    (back : next c = some b) : ¬ NeverRevisits next a := by
  intro never
  have first : Reaches₁ next b c := .single there
  exact never b h (Relation.TransGen.tail first back)

end I4A
