import Mathlib

/-! # Bytes, words and records of a stream

Little-endian 32-bit words, as a writer and a reader that returns what it leaves
over, and streams cut into pieces. Nothing here mentions a particular system.
-/

namespace I4A

/-! ## Words -/

/-- The four bytes of a word, lowest first. -/
def putWord (w : BitVec 32) : List UInt8 :=
  [.ofNat w.toNat, .ofNat (w.toNat / 2 ^ 8), .ofNat (w.toNat / 2 ^ 16), .ofNat (w.toNat / 2 ^ 24)]

/-- Read a word; a byte that is missing is read as zero. -/
def takeWord (bytes : List UInt8) : BitVec 32 × List UInt8 :=
  (.ofNat 32 ((bytes.getD 0 0).toNat + 2 ^ 8 * (bytes.getD 1 0).toNat +
    2 ^ 16 * (bytes.getD 2 0).toNat + 2 ^ 24 * (bytes.getD 3 0).toNat), bytes.drop 4)

@[simp] theorem putWord_length (w : BitVec 32) : (putWord w).length = 4 := rfl

@[simp] theorem takeWord_putWord (w : BitVec 32) (rest : List UInt8) :
    takeWord (putWord w ++ rest) = (w, rest) := by
  have hw : w.toNat < 2 ^ 32 := w.isLt
  have hword : takeWord (putWord w ++ rest) = (BitVec.ofNat 32 (w.toNat % 2 ^ 8 +
      2 ^ 8 * (w.toNat / 2 ^ 8 % 2 ^ 8) + 2 ^ 16 * (w.toNat / 2 ^ 16 % 2 ^ 8) +
        2 ^ 24 * (w.toNat / 2 ^ 24 % 2 ^ 8)), rest) := by
    simp [takeWord, putWord]
  have hsum : w.toNat % 2 ^ 8 + 2 ^ 8 * (w.toNat / 2 ^ 8 % 2 ^ 8) +
      2 ^ 16 * (w.toNat / 2 ^ 16 % 2 ^ 8) + 2 ^ 24 * (w.toNat / 2 ^ 24 % 2 ^ 8) = w.toNat := by
    omega
  rw [hword, hsum]
  simp

/-! ## Streams in pieces -/

section Pieces

variable {α : Type*}

/-- Pieces picked from others make up the whole stream only if none is left out. -/
theorem eq_of_sublist_of_flatten_length {picked pieces : List (List α)}
    (hsub : picked.Sublist pieces) (nonempty : ∀ piece ∈ pieces, 0 < piece.length)
    (hlength : picked.flatten.length = pieces.flatten.length) : picked = pieces := by
  induction hsub with
  | slnil => rfl
  | @cons picked pieces piece hsub ih =>
      have hle : picked.flatten.length ≤ pieces.flatten.length :=
        hsub.flatten.length_le
      have hpos := nonempty piece List.mem_cons_self
      rw [List.flatten_cons, List.length_append] at hlength
      omega
  | @cons_cons picked pieces piece hsub ih =>
      rw [List.flatten_cons, List.flatten_cons, List.length_append, List.length_append] at hlength
      rw [ih (fun p hp => nonempty p (List.mem_cons_of_mem _ hp)) (by omega)]

theorem flatten_length_of_forall {pieces : List (List α)} {n : Nat}
    (width : ∀ piece ∈ pieces, piece.length = n) : pieces.flatten.length = pieces.length * n := by
  rw [List.length_flatten, List.eq_replicate_of_mem (l := pieces.map List.length) (a := n)]
  · simp
  · simpa using width

theorem eq_of_flatten_of_width {first second : List (List α)} {n : Nat} (hn : 0 < n)
    (hfirst : ∀ piece ∈ first, piece.length = n) (hsecond : ∀ piece ∈ second, piece.length = n)
    (h : first.flatten = second.flatten) : first = second := by
  have hcount : first.length = second.length := by
    have hlength := congrArg List.length h
    rw [flatten_length_of_forall hfirst, flatten_length_of_forall hsecond] at hlength
    exact Nat.eq_of_mul_eq_mul_right hn hlength
  refine List.eq_iff_flatten_eq.mpr ⟨h, ?_⟩
  rw [List.eq_replicate_of_mem (l := first.map List.length) (a := n) (by simpa using hfirst),
    List.eq_replicate_of_mem (l := second.map List.length) (a := n) (by simpa using hsecond)]
  simp [hcount]

end Pieces

end I4A
