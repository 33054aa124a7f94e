import Mathlib.Data.List.Basic

/-! # Arrays whose accesses are checked

A computation stops at its first access outside an array. Code translated with these
operations says where an access can go wrong; `Safe` says that none did.
-/

namespace I4A

/-- An access at an index that the array does not have. -/
structure OutOfBounds where
  index : Nat
  size : Nat
  deriving DecidableEq, Repr

/-- A computation that stops at an access out of bounds. -/
abbrev Checked := Except OutOfBounds

namespace Checked

variable {α β : Type} {n : Nat}

def load (xs : Vector α n) (i : Nat) : Checked α :=
  if h : i < n then .ok xs[i] else .error ⟨i, n⟩

def store (xs : Vector α n) (i : Nat) (x : α) : Checked (Vector α n) :=
  if h : i < n then .ok (xs.set i x h) else .error ⟨i, n⟩

/-- No access was out of bounds. -/
def Safe (c : Checked α) : Prop :=
  ∃ a, c = .ok a

/-- The index that a check `if (i >= size) i = size - 1` leaves. -/
def clamp (size i : Nat) : Nat :=
  if size ≤ i then size - 1 else i

/-! ## Rules -/

theorem load_of_lt (xs : Vector α n) {i : Nat} (h : i < n) : load xs i = .ok xs[i] :=
  dif_pos h

theorem load_of_le (xs : Vector α n) {i : Nat} (h : n ≤ i) : load xs i = .error ⟨i, n⟩ :=
  dif_neg (Nat.not_lt.mpr h)

theorem store_of_lt (xs : Vector α n) {i : Nat} (h : i < n) (x : α) :
    store xs i x = .ok (xs.set i x h) :=
  dif_pos h

theorem clamp_lt {size : Nat} (pos : 0 < size) (i : Nat) : clamp size i < size := by
  unfold clamp
  split <;> omega

theorem clamp_of_lt {size i : Nat} (h : i < size) : clamp size i = i :=
  if_neg (Nat.not_le.mpr h)

theorem safe_ok (a : α) : Safe (.ok a) := ⟨a, rfl⟩

theorem not_safe_error (e : OutOfBounds) : ¬ Safe (.error e : Checked α) := by
  rintro ⟨a, h⟩
  cases h

/-- A sequence is safe if its first part is, and its second part from what the first leaves. -/
theorem safe_bind_iff {c : Checked α} {f : α → Checked β} :
    Safe (c >>= f) ↔ ∃ a, c = .ok a ∧ Safe (f a) := by
  cases c with
  | ok a =>
      constructor
      · intro h
        exact ⟨a, rfl, h⟩
      · rintro ⟨a', h, hsafe⟩
        cases h
        exact hsafe
  | error e =>
      constructor
      · intro h
        exact absurd h (not_safe_error e)
      · rintro ⟨a, h, -⟩
        cases h

end Checked

end I4A
