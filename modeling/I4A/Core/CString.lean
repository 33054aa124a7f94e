import Mathlib.Data.List.Infix

/-! # C strings

Text in a buffer of bytes ends at the first zero byte. `strstr` and `strncpy` on such
buffers, and what they come to on lists.
-/

namespace I4A

/-- The text that starts a buffer. -/
def cString (buffer : List UInt8) : List UInt8 := buffer.takeWhile (· ≠ 0)

/-- ASCII characters as bytes. -/
def ascii (chars : List Char) : List UInt8 := chars.map fun c => UInt8.ofNat c.toNat

/-- `strstr(haystack, needle) != NULL` on texts. -/
def strstr (haystack needle : List UInt8) : Bool :=
  needle.isPrefixOf haystack ||
    match haystack with
    | [] => false
    | _ :: rest => strstr rest needle

/-- `strncpy` of `n` bytes: the text, cut or padded with zeros. -/
def strncpy (n : Nat) (src : List UInt8) : List UInt8 :=
  (cString src).take n ++ List.replicate (n - (cString src).length) 0

theorem strstr_iff {haystack needle : List UInt8} :
    strstr haystack needle = true ↔ needle <:+: haystack := by
  induction haystack with
  | nil => simp [strstr]
  | cons b rest ih =>
      rw [strstr, Bool.or_eq_true, ih, List.isPrefixOf_iff_prefix, List.infix_cons_iff]

@[simp] theorem length_strncpy (n : Nat) (src : List UInt8) : (strncpy n src).length = n := by
  rw [strncpy, List.length_append, List.length_take, List.length_replicate]
  omega

theorem cString_append_zero {text : List UInt8} (h : ∀ b ∈ text, b ≠ 0) (rest : List UInt8) :
    cString (text ++ 0 :: rest) = text := by
  induction text with
  | nil => rfl
  | cons b text ih =>
      have hb : b ≠ 0 := h b List.mem_cons_self
      have htext : ∀ b ∈ text, b ≠ 0 := fun b' hb' => h b' (List.mem_cons_of_mem b hb')
      have hcons : cString (b :: (text ++ 0 :: rest)) = b :: cString (text ++ 0 :: rest) :=
        List.takeWhile_cons_of_pos (by simpa using hb)
      rw [List.cons_append, hcons, ih htext]

theorem length_cString_le (text rest : List UInt8) :
    (cString (text ++ 0 :: rest)).length ≤ text.length := by
  induction text with
  | nil => exact Nat.le_refl 0
  | cons b text ih =>
      rw [List.cons_append, cString, List.takeWhile_cons]
      split
      · exact Nat.succ_le_succ ih
      · exact Nat.zero_le _

end I4A
