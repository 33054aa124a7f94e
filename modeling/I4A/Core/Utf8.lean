import I4A.Core.CString

/-! # UTF-8

Decoding of whole texts, which have one encoding each, and texts of ASCII characters.
-/

namespace I4A

/-- `text.encode("utf-8")`. -/
def encodeUtf8 (text : List Char) : List UInt8 := text.flatMap String.utf8EncodeChar

/-- `bytes.decode("utf-8")`. -/
def decodeUtf8 (bytes : List UInt8) : Option (List Char) :=
  bytes.toByteArray.utf8Decode?.map Array.toList

/-- Characters that are one byte each. -/
def Ascii (text : List Char) : Prop := ∀ c ∈ text, c.toNat < 128

instance (text : List Char) : Decidable (Ascii text) :=
  List.decidableBAll (fun c : Char => c.toNat < 128) text

theorem toByteArray_injective {first second : List UInt8}
    (h : first.toByteArray = second.toByteArray) : first = second := by
  have hdata := congrArg (fun bytes => bytes.data.toList) h
  simpa only [List.toList_data_toByteArray] using hdata

theorem utf8Encode_eq (text : List Char) : text.utf8Encode = (encodeUtf8 text).toByteArray := rfl

theorem decodeUtf8_encodeUtf8 (text : List Char) : decodeUtf8 (encodeUtf8 text) = some text := by
  rw [decodeUtf8, ← utf8Encode_eq, List.utf8Decode?_utf8Encode]
  rfl

theorem decodeUtf8_eq_some_iff {bytes : List UInt8} {text : List Char} :
    decodeUtf8 bytes = some text ↔ encodeUtf8 text = bytes := by
  constructor
  · intro h
    obtain ⟨chars, hchars, rfl⟩ := Option.map_eq_some_iff.mp h
    have hsome : bytes.toByteArray.utf8Decode?.isSome := by rw [hchars]; rfl
    have hencode : (bytes.toByteArray.utf8Decode?.get hsome).toList.utf8Encode =
        bytes.toByteArray := ByteArray.utf8Encode_get_utf8Decode?
    simp only [hchars, Option.get_some] at hencode
    exact toByteArray_injective hencode
  · rintro rfl
    exact decodeUtf8_encodeUtf8 text

theorem encodeUtf8_append (first second : List Char) :
    encodeUtf8 (first ++ second) = encodeUtf8 first ++ encodeUtf8 second := List.flatMap_append

theorem encodeUtf8_injective {first second : List Char} (h : encodeUtf8 first = encodeUtf8 second) :
    first = second := by
  have hdecode := decodeUtf8_encodeUtf8 first
  rw [h, decodeUtf8_encodeUtf8] at hdecode
  exact (Option.some.inj hdecode).symm

/-! ## ASCII -/

theorem utf8EncodeChar_ascii {c : Char} (h : c.toNat < 128) :
    String.utf8EncodeChar c = [UInt8.ofNat c.toNat] := if_pos (Nat.le_of_lt_succ h)

theorem encodeUtf8_ascii {text : List Char} (h : Ascii text) : encodeUtf8 text = ascii text := by
  induction text with
  | nil => rfl
  | cons c text ih =>
      have htail := ih fun d hd => h d (List.mem_cons_of_mem c hd)
      unfold encodeUtf8 ascii at htail ⊢
      rw [List.flatMap_cons, List.map_cons, utf8EncodeChar_ascii (h c List.mem_cons_self), htail]
      rfl

end I4A
