import I4A.Core.JsonSize

/-! # Texts that are read as they were written

Strings without characters that need an escape, decimal integers, arrays and objects, written
without space. A text followed by a comma, a bracket or a brace reads as the value it was made of.
-/

namespace I4A

namespace Json

/-! ## Writing -/

def strText (s : List Char) : List Char := quote :: (s ++ [quote])

/-- The texts with commas between them. -/
def joinComma : List (List Char) → List Char
  | [] => []
  | [text] => text
  | text :: texts => text ++ comma :: joinComma texts

def arrText (texts : List (List Char)) : List Char :=
  openBracket :: (joinComma texts ++ [closeBracket])

/-- A key and the text of its value. -/
def entryText (entry : List Char × List Char) : List Char := strText entry.1 ++ colon :: entry.2

def objText (entries : List (List Char × List Char)) : List Char :=
  openBrace :: (joinComma (entries.map entryText) ++ [closeBrace])

/-- The code points of a string. -/
def codes (s : List Char) : JsonText := s.map Char.toNat

theorem length_strText (s : List Char) : (strText s).length = s.length + 2 := by
  rw [strText, List.length_cons, List.length_append, List.length_singleton]

theorem length_joinComma (text : List Char) (texts : List (List Char)) :
    (joinComma (text :: texts)).length + 1 =
      ((text :: texts).map fun text => text.length + 1).sum := by
  induction texts generalizing text with
  | nil => simp [joinComma]
  | cons next texts ih =>
      have hrest := ih next
      rw [joinComma, List.length_append, List.length_cons, List.map_cons, List.sum_cons, ← hrest]
      · omega
      · simp

theorem length_arrText (text : List Char) (texts : List (List Char)) :
    (arrText (text :: texts)).length =
      1 + ((text :: texts).map fun text => text.length + 1).sum := by
  rw [arrText, List.length_cons, List.length_append, List.length_singleton, length_joinComma]
  exact Nat.add_comm _ _

theorem length_entryText (entry : List Char × List Char) :
    (entryText entry).length = entry.1.length + 3 + entry.2.length := by
  rw [entryText, List.length_append, length_strText, List.length_cons]
  omega

theorem length_objText (entry : List Char × List Char) (entries : List (List Char × List Char)) :
    (objText (entry :: entries)).length =
      1 + ((entry :: entries).map fun entry => (entryText entry).length + 1).sum := by
  have hjoin := length_joinComma (entryText entry) (entries.map entryText)
  rw [← List.map_cons, List.map_map] at hjoin
  rw [objText, List.length_cons, List.length_append, List.length_singleton, hjoin]
  exact Nat.add_comm _ _

theorem codeSize_pos (code : Nat) : 0 < codeSize code := by
  unfold codeSize
  split
  · exact Nat.one_pos
  · exact Nat.two_pos

theorem length_strText_le (s : List Char) : (strText s).length ≤ textSize (codes s) := by
  rw [length_strText, textSize, Nat.add_comm]
  refine Nat.add_le_add_left ?_ 2
  induction s with
  | nil => exact Nat.le_refl 0
  | cons c s ih =>
      have hpos := codeSize_pos c.toNat
      rw [codes, List.map_cons, List.map_cons, List.sum_cons, List.length_cons]
      unfold codes at ih
      omega

/-- A string has room enough only if no character needs an escape. -/
theorem plain_of_textSize_le {s : List Char} (h : textSize (codes s) ≤ (strText s).length) :
    AllPlain s := by
  induction s with
  | nil => exact fun c hc => absurd hc List.not_mem_nil
  | cons c s ih =>
      have hrest := length_strText_le s
      have hpos := codeSize_pos c.toNat
      have hcons : textSize (codes (c :: s)) = textSize (codes s) + codeSize c.toNat := by
        simp only [textSize, codes, List.map_cons, List.sum_cons]
        omega
      rw [hcons, length_strText, List.length_cons] at h
      rw [length_strText] at hrest
      have hc : Plain c.toNat := by
        by_contra hnot
        rw [codeSize, if_neg hnot] at h
        omega
      have htail := ih (by
        rw [length_strText]
        omega)
      intro d hd
      rcases List.mem_cons.mp hd with rfl | hd
      · exact hc
      · exact htail d hd

/-! ## Scanning what was written -/

theorem skipSpace_cons {c : Char} (h : isSpace c = false) (rest : List Char) :
    skipSpace (c :: rest) = c :: rest := by
  rw [skipSpace, List.dropWhile_cons, if_neg (by rw [h]; decide)]

theorem expect_self (c : Char) (rest : List Char) : expect c (c :: rest) = some rest := if_pos rfl

theorem expect_ne {c d : Char} (h : d ≠ c) (rest : List Char) : expect c (d :: rest) = none :=
  if_neg h

theorem scanChars_plain {s : List Char} (plain : AllPlain s) (rest : List Char)
    {fuel : Nat} (h : s.length < fuel) :
    scanChars fuel (s ++ quote :: rest) = some (codes s, rest) := by
  induction s generalizing fuel with
  | nil =>
      cases fuel with
      | zero => exact absurd h (Nat.not_lt_zero _)
      | succ fuel => rfl
  | cons c s ih =>
      obtain ⟨hquote, hbackslash, hcontrol⟩ := plain c List.mem_cons_self
      have hchar : scanChar (c :: (s ++ quote :: rest)) =
          some (some c.toNat, s ++ quote :: rest) := by
        rw [scanChar, if_neg, if_neg, if_neg (Nat.not_lt.mpr hcontrol)]
        · rintro rfl
          exact hbackslash rfl
        · rintro rfl
          exact hquote rfl
      cases fuel with
      | zero => exact absurd h (Nat.not_lt_zero _)
      | succ fuel =>
          have htail := ih (fun d hd => plain d (List.mem_cons_of_mem c hd))
            (Nat.lt_of_succ_lt_succ h)
          rw [List.cons_append, scanChars, hchar]
          simp only [htail]
          rfl

theorem scanString_plain {s : List Char} (plain : AllPlain s) (rest : List Char) :
    scanString (s ++ quote :: rest) = some (codes s, rest) := by
  refine scanChars_plain plain rest ?_
  rw [List.length_append, List.length_cons]
  omega

/-- What may follow a number. -/
def Stops : List Char → Prop
  | [] => True
  | c :: _ => c.isDigit = false ∧ c ≠ '.' ∧ c ≠ 'e' ∧ c ≠ 'E'

theorem stops_comma (rest : List Char) : Stops (comma :: rest) := by
  refine ⟨?_, ?_, ?_, ?_⟩ <;> decide

theorem stops_closeBracket (rest : List Char) : Stops (closeBracket :: rest) := by
  refine ⟨?_, ?_, ?_, ?_⟩ <;> decide

theorem stops_closeBrace (rest : List Char) : Stops (closeBrace :: rest) := by
  refine ⟨?_, ?_, ?_, ?_⟩ <;> decide

/-- A text that is read as a value wherever it stands in an array or an object. -/
structure Reads (text : List Char) (value : Json) : Prop where
  starts : ∃ c rest, text = c :: rest ∧ isSpace c = false ∧ c ≠ closeBracket
  reads : ∀ fuel rest, fuelFor text ≤ fuel → Stops rest →
    scanOnce fuel (text ++ rest) = some (value, rest)

theorem reads_str {s : List Char} (plain : AllPlain s) :
    Reads (strText s) (.str (codes s)) := by
  refine ⟨⟨quote, s ++ [quote], rfl, by decide, by decide⟩, fun fuel rest h _ => ?_⟩
  cases fuel with
  | zero => exact absurd h (Nat.not_succ_le_zero _)
  | succ fuel =>
      rw [strText, List.cons_append, List.append_assoc, scanOnce, if_pos rfl]
      rw [List.singleton_append, scanString_plain plain]
      rfl

/-! ## Integers -/

theorem toDigits_cons (n : Nat) :
    ∃ c digits, Nat.toDigits 10 n = c :: digits ∧ (0 < n → c ≠ '0') := by
  induction n using Nat.strong_induction_on with
  | _ n ih =>
      by_cases h : n < 10
      · refine ⟨Nat.digitChar n, [], Nat.toDigits_of_lt_base h, ?_⟩
        have all : ∀ n, n < 10 → 0 < n → Nat.digitChar n ≠ '0' := by decide
        exact all n h
      · obtain ⟨c, digits, hdigits, hzero⟩ := ih (n / 10) (by omega)
        refine ⟨c, digits ++ [Nat.digitChar (n % 10)], ?_, fun _ => hzero (by omega)⟩
        rw [Nat.toDigits_of_base_le (by decide) (Nat.le_of_not_lt h), hdigits, List.cons_append]

theorem isDigit_toDigits {n : Nat} {c : Char} (h : c ∈ Nat.toDigits 10 n) : c.isDigit = true :=
  Nat.isDigit_of_mem_toDigits (by decide) (by decide) h

theorem takeWhile_digits {digits rest : List Char} (h : ∀ c ∈ digits, c.isDigit = true)
    (stops : Stops rest) :
    (digits ++ rest).takeWhile Char.isDigit = digits ∧
      (digits ++ rest).dropWhile Char.isDigit = rest := by
  have hrest : rest.takeWhile Char.isDigit = [] ∧ rest.dropWhile Char.isDigit = rest := by
    cases rest with
    | nil => exact ⟨rfl, rfl⟩
    | cons c rest =>
        have hc : ¬ c.isDigit = true := by
          rw [stops.1]
          decide
        exact ⟨List.takeWhile_cons_of_neg hc, List.dropWhile_cons_of_neg hc⟩
  rw [List.takeWhile_append_of_pos h, List.dropWhile_append_of_pos h, hrest.1, hrest.2,
    List.append_nil]
  exact ⟨rfl, rfl⟩

theorem scanDigits_toDigits (n : Nat) {rest : List Char} (stops : Stops rest) :
    scanDigits (Nat.toDigits 10 n ++ rest) = some (Nat.toDigits 10 n, rest) := by
  rcases Nat.eq_zero_or_pos n with rfl | hpos
  · rfl
  · obtain ⟨c, digits, hdigits, hzero⟩ := toDigits_cons n
    have hall : ∀ d ∈ c :: digits, d.isDigit = true := by
      rw [← hdigits]
      exact fun d hd => isDigit_toDigits hd
    obtain ⟨htake, hdrop⟩ := takeWhile_digits
      (fun d hd => hall d (List.mem_cons_of_mem c hd)) stops
    rw [hdigits, List.cons_append, scanDigits, if_neg (hzero hpos),
      if_pos (hall c List.mem_cons_self), htake, hdrop]

theorem scanFraction_stops {rest : List Char} (stops : Stops rest) :
    scanFraction rest = ([], rest) := by
  cases rest with
  | nil => rfl
  | cons c rest => rw [scanFraction, expect_ne stops.2.1]

theorem scanExponent_stops {rest : List Char} (stops : Stops rest) :
    scanExponent rest = ([], rest) := by
  cases rest with
  | nil => rfl
  | cons c rest =>
      rw [scanExponent, if_neg]
      rintro (h | h)
      · exact stops.2.2.1 h
      · exact stops.2.2.2 h

theorem scanUnsigned_toDigits (negative : Bool) (n : Nat) {rest : List Char}
    (stops : Stops rest) :
    scanUnsigned negative (Nat.toDigits 10 n ++ rest) =
      some (.int (if negative then -(n : Int) else n), rest) := by
  rw [scanUnsigned, scanDigits_toDigits n stops]
  simp only [Option.bind_eq_bind, Option.bind_some, scanFraction_stops stops,
    scanExponent_stops stops, List.append_nil, if_true, Nat.ofDigitChars_ten_toDigits]
  rfl

theorem scanNumber_intText (n : Int) {rest : List Char} (stops : Stops rest) :
    scanNumber (intText n ++ rest) = some (.int n, rest) := by
  unfold intText
  split
  · rename_i hneg
    rw [List.cons_append, scanNumber, expect_self]
    dsimp only
    rw [scanUnsigned_toDigits true _ stops, if_pos rfl, Int.ofNat_natAbs_of_nonpos (by omega),
      Int.neg_neg]
  · rename_i hneg
    obtain ⟨c, digits, hdigits, -⟩ := toDigits_cons n.natAbs
    have hc : c.isDigit = true := isDigit_toDigits (by rw [hdigits]; exact List.mem_cons_self)
    have hminus : c ≠ '-' := by
      rintro rfl
      exact absurd hc (by decide)
    have hexpect : expect '-' (Nat.toDigits 10 n.natAbs ++ rest) = none := by
      rw [hdigits, List.cons_append, expect_ne hminus]
    rw [scanNumber, hexpect]
    dsimp only
    rw [scanUnsigned_toDigits false _ stops, if_neg (by decide),
      Int.natAbs_of_nonneg (Int.not_lt.mp hneg)]

theorem intText_cons (n : Int) :
    ∃ c rest, intText n = c :: rest ∧ (c.isDigit = true ∨ c = '-' ∧
      ∃ d digits, rest = d :: digits ∧ d.isDigit = true) := by
  obtain ⟨c, digits, hdigits, -⟩ := toDigits_cons n.natAbs
  have hc : c.isDigit = true := isDigit_toDigits (by rw [hdigits]; exact List.mem_cons_self)
  unfold intText
  split
  · exact ⟨'-', _, rfl, .inr ⟨rfl, c, digits, hdigits, hc⟩⟩
  · exact ⟨c, digits, hdigits, .inl hc⟩

theorem constants_spec :
    ∀ constant ∈ constants,
      constant.1.head?.map Char.isDigit = some false ∧
        (constant.1.head? = some '-' → constant.1[1]?.map Char.isDigit = some false) := by
  decide

theorem scanConstant_intText (n : Int) (rest : List Char) :
    scanConstant (intText n ++ rest) = none := by
  obtain ⟨c, tail, htext, hc⟩ := intText_cons n
  rw [scanConstant, Option.map_eq_none_iff, List.find?_eq_none]
  intro constant hmem hfound
  obtain ⟨behind, hbehind⟩ := List.isPrefixOf_iff_prefix.mp hfound
  obtain ⟨hfirst, hsecond⟩ := constants_spec constant hmem
  rw [htext, List.cons_append] at hbehind
  have hhead : constant.1.head? = some c := by
    cases hname : constant.1 with
    | nil => rw [hname] at hfirst; cases hfirst
    | cons a more =>
        rw [hname, List.cons_append] at hbehind
        rw [(List.cons.inj hbehind).1]
        rfl
  rcases hc with hdigit | ⟨rfl, d, digits, rfl, hdigit⟩
  · rw [hhead, Option.map_some, hdigit] at hfirst
    cases hfirst
  · have hnot := hsecond hhead
    cases hname : constant.1 with
    | nil => rw [hname] at hhead; cases hhead
    | cons a more =>
        cases more with
        | nil => rw [hname] at hnot; cases hnot
        | cons b more =>
            rw [hname, List.cons_append, List.cons_append] at hbehind
            have hb : b = d := (List.cons.inj (List.cons.inj hbehind).2).1
            rw [hname, hb] at hnot
            simp only [List.getElem?_cons_succ, List.getElem?_cons_zero, Option.map_some, hdigit,
              Option.some.injEq, Bool.true_eq_false] at hnot

theorem reads_int (n : Int) : Reads (intText n) (.int n) := by
  obtain ⟨c, tail, htext, hc⟩ := intText_cons n
  have hspace : isSpace c = false ∧ c ≠ closeBracket ∧ c ≠ quote ∧ c ≠ openBrace ∧
      c ≠ openBracket := by
    rcases hc with hdigit | ⟨rfl, -⟩
    · have hne : ∀ d : Char, d.isDigit = false → c ≠ d := by
        rintro d hd rfl
        rw [hd] at hdigit
        cases hdigit
      refine ⟨?_, hne _ (by decide), hne _ (by decide), hne _ (by decide), hne _ (by decide)⟩
      simp [isSpace, hne]
    · decide
  refine ⟨⟨c, tail, htext, hspace.1, hspace.2.1⟩, fun fuel rest h stops => ?_⟩
  cases fuel with
  | zero => exact absurd h (Nat.not_succ_le_zero _)
  | succ fuel =>
      have hnumber := scanNumber_intText n stops
      have hconstant := scanConstant_intText n rest
      rw [htext, List.cons_append] at hnumber hconstant ⊢
      rw [scanOnce, if_neg hspace.2.2.1, if_neg hspace.2.2.2.1, if_neg hspace.2.2.2.2, hconstant,
        hnumber]
      rfl

/-! ## Arrays and objects -/

theorem Reads.skipSpace {text : List Char} {value : Json} (reads : Reads text value)
    (rest : List Char) : Json.skipSpace (text ++ rest) = text ++ rest := by
  obtain ⟨c, tail, rfl, hspace, -⟩ := reads.starts
  exact skipSpace_cons hspace _

theorem skipSpace_comma (rest : List Char) : skipSpace (comma :: rest) = comma :: rest :=
  skipSpace_cons (by decide) rest

theorem skipSpace_closeBracket (rest : List Char) :
    skipSpace (closeBracket :: rest) = closeBracket :: rest :=
  skipSpace_cons (by decide) rest

theorem skipSpace_closeBrace (rest : List Char) :
    skipSpace (closeBrace :: rest) = closeBrace :: rest :=
  skipSpace_cons (by decide) rest

/-- The texts are read as the values, one by one. -/
abbrev ReadsAll : List (List Char) → List Json → Prop := List.Forall₂ Reads

theorem joinComma_cons (text next : List Char) (texts : List (List Char)) :
    joinComma (text :: next :: texts) = text ++ comma :: joinComma (next :: texts) := rfl

theorem joinComma_eq_append (text : List Char) (texts : List (List Char)) :
    ∃ tail, joinComma (text :: texts) = text ++ tail := by
  cases texts with
  | nil => exact ⟨[], (List.append_nil text).symm⟩
  | cons next texts => exact ⟨_, joinComma_cons text next texts⟩

theorem Reads.skipSpace_join {text : List Char} {value : Json} (reads : Reads text value)
    (texts : List (List Char)) (rest : List Char) :
    Json.skipSpace (joinComma (text :: texts) ++ rest) = joinComma (text :: texts) ++ rest := by
  obtain ⟨tail, htail⟩ := joinComma_eq_append text texts
  rw [htail, List.append_assoc, reads.skipSpace]

theorem scanElements_join {text : List Char} {value : Json} {texts : List (List Char)}
    {values : List Json} (first : Reads text value) (others : ReadsAll texts values) {fuel : Nat}
    (h : 2 * (joinComma (text :: texts)).length + 2 ≤ fuel) (rest : List Char) :
    scanElements fuel (joinComma (text :: texts) ++ closeBracket :: rest) =
      some (value :: values, rest) := by
  induction others generalizing text value fuel with
  | nil =>
      cases fuel with
      | zero => exact absurd h (Nat.not_succ_le_zero _)
      | succ fuel =>
          have hfuel : fuelFor text ≤ fuel := by
            have hjoin : joinComma [text] = text := rfl
            rw [hjoin] at h
            unfold fuelFor
            omega
          have hread := first.reads fuel (closeBracket :: rest) hfuel (stops_closeBracket rest)
          rw [joinComma, scanElements, hread]
          simp only [Option.bind_eq_bind, Option.bind_some, skipSpace_closeBracket, expect_self]
          rfl
  | @cons next nextValue texts values hnext hothers ih =>
      cases fuel with
      | zero => exact absurd h (Nat.not_succ_le_zero _)
      | succ fuel =>
          rw [joinComma_cons, List.length_append, List.length_cons] at h
          have hfuel : fuelFor text ≤ fuel := by
            unfold fuelFor
            omega
          have hread := first.reads fuel
            (comma :: (joinComma (next :: texts) ++ closeBracket :: rest)) hfuel
            (stops_comma _)
          have hrest : scanElements fuel (joinComma (next :: texts) ++ closeBracket :: rest) =
              some (nextValue :: values, rest) := ih hnext (by omega)
          rw [joinComma_cons, List.append_assoc, List.cons_append, scanElements, hread]
          simp only [Option.bind_eq_bind, Option.bind_some, skipSpace_comma, expect_self,
            hnext.skipSpace_join, hrest]
          rfl

theorem reads_arr {text : List Char} {value : Json} {texts : List (List Char)}
    {values : List Json} (first : Reads text value) (others : ReadsAll texts values) :
    Reads (arrText (text :: texts)) (.arr (value :: values)) := by
  refine ⟨⟨openBracket, _, rfl, by decide, by decide⟩, fun fuel rest h _ => ?_⟩
  cases fuel with
  | zero => exact absurd h (Nat.not_succ_le_zero _)
  | succ fuel =>
      have hlength : 2 * (joinComma (text :: texts)).length + 2 ≤ fuel := by
        rw [fuelFor, arrText, List.length_cons, List.length_append, List.length_singleton] at h
        omega
      have hclose : expect closeBracket (joinComma (text :: texts) ++ closeBracket :: rest) =
          none := by
        obtain ⟨c, tail, htext, -, hne⟩ := first.starts
        obtain ⟨behind, hjoin⟩ := joinComma_eq_append text texts
        rw [hjoin, htext, List.cons_append, List.cons_append, expect_ne hne]
      rw [arrText, List.cons_append, List.append_assoc, List.singleton_append, scanOnce,
        if_neg (by decide), if_neg (by decide), if_pos rfl, first.skipSpace_join, hclose]
      simp only [scanElements_join first others hlength rest]
      rfl

/-! ## Objects -/

/-- An entry as it is written and as it is read. -/
structure ReadsEntry (written : List Char × List Char) (entry : JsonText × Json) : Prop where
  plain : AllPlain written.1
  key : entry.1 = codes written.1
  reads : Reads written.2 entry.2

/-- An entry is read up to what follows it. -/
theorem scanMembers_entry {written : List Char × List Char} {entry : JsonText × Json}
    (reads : ReadsEntry written entry) {fuel : Nat} {rest : List Char}
    (h : fuelFor written.2 ≤ fuel) (stops : Stops rest) :
    scanMembers (fuel + 1) (entryText written ++ rest) =
      match expect comma (skipSpace rest) with
      | some rest => do
          let (entries, rest) ← scanMembers fuel (skipSpace rest)
          return (entry :: entries, rest)
      | none => do
          let rest ← expect closeBrace (skipSpace rest)
          return ([entry], rest) := by
  have hstring : scanString (written.1 ++ quote :: colon :: (written.2 ++ rest)) =
      some (codes written.1, colon :: (written.2 ++ rest)) := scanString_plain reads.plain _
  have hvalue := reads.reads.reads fuel rest h stops
  have hentry : (codes written.1, entry.2) = entry := by rw [← reads.key]
  rw [entryText, strText, List.cons_append, List.cons_append, List.append_assoc,
    List.append_assoc, List.singleton_append, List.cons_append, scanMembers, expect_self]
  cases hcomma : expect comma (skipSpace rest) <;>
    simp only [Option.bind_eq_bind, Option.bind_some, hstring,
      skipSpace_cons (by decide : isSpace colon = false), expect_self, reads.reads.skipSpace,
      hvalue, hentry, hcomma]

theorem skipSpace_entries (written : List Char × List Char) (texts : List (List Char))
    (rest : List Char) :
    skipSpace (joinComma (entryText written :: texts) ++ rest) =
      joinComma (entryText written :: texts) ++ rest := by
  obtain ⟨tail, htail⟩ := joinComma_eq_append (entryText written) texts
  rw [htail]
  exact skipSpace_cons (by decide) _

theorem scanMembers_join {written : List Char × List Char} {entry : JsonText × Json}
    {others : List (List Char × List Char)} {entries : List (JsonText × Json)}
    (first : ReadsEntry written entry) (hothers : List.Forall₂ ReadsEntry others entries)
    {fuel : Nat} (h : 2 * (joinComma ((written :: others).map entryText)).length + 2 ≤ fuel)
    (rest : List Char) :
    scanMembers fuel (joinComma ((written :: others).map entryText) ++ closeBrace :: rest) =
      some (entry :: entries, rest) := by
  have hentry : ∀ written : List Char × List Char,
      written.2.length + 1 ≤ (entryText written).length := by
    intro written
    rw [entryText, List.length_append, List.length_cons]
    omega
  have hlength := hentry written
  induction hothers generalizing written entry fuel with
  | nil =>
      cases fuel with
      | zero => exact absurd h (Nat.not_succ_le_zero _)
      | succ fuel =>
          have hfuel : fuelFor written.2 ≤ fuel := by
            have hjoin : joinComma ([written].map entryText) = entryText written := rfl
            rw [hjoin] at h
            unfold fuelFor
            omega
          have hstep := scanMembers_entry first hfuel (stops_closeBrace rest)
          rw [skipSpace_closeBrace, expect_ne (by decide)] at hstep
          simp only [expect_self] at hstep
          exact hstep
  | @cons next nextEntry others entries hnext hothers ih =>
      cases fuel with
      | zero => exact absurd h (Nat.not_succ_le_zero _)
      | succ fuel =>
          rw [List.map_cons, List.map_cons, joinComma_cons, List.length_append,
            List.length_cons, ← List.map_cons] at h
          have hfuel : fuelFor written.2 ≤ fuel := by
            unfold fuelFor
            omega
          have hrest : scanMembers fuel
              (joinComma ((next :: others).map entryText) ++ closeBrace :: rest) =
                some (nextEntry :: entries, rest) := ih hnext (by omega) (hentry next)
          have hstep := scanMembers_entry first hfuel
            (stops_comma (joinComma ((next :: others).map entryText) ++ closeBrace :: rest))
          rw [skipSpace_comma, expect_self] at hstep
          simp only [List.map_cons, skipSpace_entries] at hstep hrest
          rw [hrest] at hstep
          rw [List.map_cons, List.map_cons, joinComma_cons, List.append_assoc, List.cons_append]
          exact hstep

theorem insert_of_notMem {α : Type} {entries : List (JsonText × α)} {key : JsonText}
    (h : key ∉ entries.map Prod.fst) (value : α) :
    insert entries key value = entries ++ [(key, value)] := by
  induction entries with
  | nil => rfl
  | cons entry entries ih =>
      rw [List.map_cons, List.mem_cons, not_or] at h
      rw [insert, if_neg (Ne.symm h.1), ih h.2, List.cons_append]

theorem dict_of_nodup {α : Type} {pairs : List (JsonText × α)}
    (distinct : (pairs.map Prod.fst).Nodup) : dict pairs = pairs := by
  induction pairs using List.reverseRecOn with
  | nil => rfl
  | append_singleton pairs pair ih =>
      rw [List.map_append, List.map_singleton, List.nodup_append] at distinct
      have hdict := ih distinct.1
      have hnew : pair.1 ∉ pairs.map Prod.fst :=
        fun hmem => distinct.2.2 _ hmem _ List.mem_cons_self rfl
      unfold dict at hdict ⊢
      rw [List.foldl_append, List.foldl_cons, List.foldl_nil, hdict, insert_of_notMem hnew]

theorem reads_obj {written : List Char × List Char} {entry : JsonText × Json}
    {others : List (List Char × List Char)} {entries : List (JsonText × Json)}
    (first : ReadsEntry written entry) (hothers : List.Forall₂ ReadsEntry others entries)
    (distinct : ((entry :: entries).map Prod.fst).Nodup) :
    Reads (objText (written :: others)) (.obj (entry :: entries)) := by
  refine ⟨⟨openBrace, _, rfl, by decide, by decide⟩, fun fuel rest h _ => ?_⟩
  cases fuel with
  | zero => exact absurd h (Nat.not_succ_le_zero _)
  | succ fuel =>
      have hlength : 2 * (joinComma ((written :: others).map entryText)).length + 2 ≤ fuel := by
        rw [fuelFor, objText, List.length_cons, List.length_append, List.length_singleton] at h
        omega
      have hmembers := scanMembers_join first hothers hlength rest
      have hspace := skipSpace_entries written (others.map entryText) (closeBrace :: rest)
      have hclose : expect closeBrace
          (joinComma ((written :: others).map entryText) ++ closeBrace :: rest) = none := by
        obtain ⟨tail, htail⟩ := joinComma_eq_append (entryText written) (others.map entryText)
        rw [List.map_cons, htail]
        exact expect_ne (by decide) _
      rw [← List.map_cons] at hspace
      rw [objText, List.cons_append, List.append_assoc, List.singleton_append, scanOnce,
        if_neg (by decide), if_pos rfl, hspace, hclose]
      simp only [hmembers, Option.map_some, dict_of_nodup distinct]

/-! ## Whole texts -/

/-- A text that was written is loaded as its value. -/
theorem Reads.loads {text : List Char} {value : Json} (reads : Reads text value)
    (bom : text.head?.map Char.toNat ≠ some 0xfeff) : Json.loads text = some value := by
  have hspace := reads.skipSpace []
  have hread := reads.reads (fuelFor text) [] (Nat.le_refl _) trivial
  rw [List.append_nil] at hspace hread
  rw [Json.loads, if_neg bom, hspace, hread]
  rfl

end Json

end I4A
