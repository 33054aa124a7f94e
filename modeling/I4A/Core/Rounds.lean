import Mathlib.Data.List.Iterate
import Mathlib.Data.List.Count

/-! # Going round

A sequence that starts somewhere and always takes the `next` element, over a
`next` that runs once through all elements before it comes back. Every window of
one round's length holds each element once, wherever it begins, and in a sequence
of any length every element has had its share of the whole rounds and at most one
turn more.
-/

namespace I4A

variable {α : Type*} {next : α → α} {k : Nat}

/-- The sequence starts at `a` and goes on by `next`. -/
def GoesRound (next : α → α) (a : α) (seq : List α) : Prop :=
  seq = List.iterate next a seq.length

theorem GoesRound.nil (a : α) : GoesRound next a [] := rfl

theorem GoesRound.concat {a : α} {seq : List α} (h : GoesRound next a seq) :
    GoesRound next a (seq ++ [next^[seq.length] a]) := by
  unfold GoesRound at h ⊢
  rw [List.length_append, List.length_singleton, List.iterate_add, ← h]
  rfl

/-- What follows the first part goes round from the element whose turn it then is. -/
theorem GoesRound.suffix {a : α} {first rest : List α} (h : GoesRound next a (first ++ rest)) :
    GoesRound next (next^[first.length] a) rest := by
  unfold GoesRound at h ⊢
  rw [List.length_append, List.iterate_add] at h
  exact (List.append_inj h (by rw [List.length_iterate])).2

theorem GoesRound.take {a : α} {first rest : List α} (h : GoesRound next a (first ++ rest)) :
    GoesRound next a first := by
  unfold GoesRound at h ⊢
  rw [List.length_append, List.iterate_add] at h
  exact (List.append_inj h (by rw [List.length_iterate])).1

section Fair

variable [DecidableEq α]

/-- `k` steps from anywhere pass every element exactly once. -/
def IsRound (next : α → α) (k : Nat) : Prop :=
  ∀ a b, (List.iterate next a k).count b = 1

/-- Any `k` elements in a row hold every element once. -/
theorem GoesRound.window (hround : IsRound next k) {a : α} {first window rest : List α}
    (h : GoesRound next a (first ++ window ++ rest)) (hk : window.length = k) (b : α) :
    window.count b = 1 := by
  have hwindow : GoesRound next (next^[first.length] a) window := h.take.suffix
  rw [hwindow, hk]
  exact hround _ b

theorem count_rounds (hround : IsRound next k) (a b : α) (rounds : Nat) :
    (List.iterate next a (k * rounds)).count b = rounds := by
  induction rounds generalizing a with
  | zero => simp
  | succ r ih =>
      have hsplit : k * (r + 1) = k + k * r := by rw [Nat.mul_succ, Nat.add_comm]
      rw [hsplit, List.iterate_add, List.count_append, hround a b, ih]
      exact Nat.add_comm 1 r

theorem count_part_le (hround : IsRound next k) (a b : α) {n : Nat} (hn : n ≤ k) :
    (List.iterate next a n).count b ≤ 1 := by
  have hk : n + (k - n) = k := Nat.add_sub_cancel' hn
  have hall := hround a b
  rw [← hk, List.iterate_add, List.count_append] at hall
  omega

/-- Turns are shared out evenly: the whole rounds to everyone, and one more to some. -/
theorem GoesRound.share (hround : IsRound next k) {a : α} {seq : List α}
    (h : GoesRound next a seq) (b : α) :
    seq.length / k ≤ seq.count b ∧ seq.count b ≤ seq.length / k + 1 := by
  have hk : 0 < k := by
    rcases Nat.eq_zero_or_pos k with rfl | hpos
    · exact absurd (hround a a) (by simp)
    · exact hpos
  have hlen : k * (seq.length / k) + seq.length % k = seq.length := Nat.div_add_mod _ _
  have hcount : seq.count b = seq.length / k +
      (List.iterate next (next^[k * (seq.length / k)] a) (seq.length % k)).count b := by
    conv_lhs => rw [h, ← hlen]
    rw [List.iterate_add, List.count_append, count_rounds hround]
  have hpart := count_part_le hround (next^[k * (seq.length / k)] a) b
    (Nat.mod_lt seq.length hk).le
  omega

end Fair

end I4A
