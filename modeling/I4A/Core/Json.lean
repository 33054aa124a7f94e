import Mathlib.Data.List.Basic

/-! # Reading JSON

The values of a JSON text, and a reader that takes texts as Python's `json.loads` does. Beyond the
grammar it accepts `NaN` and the infinities, escapes of lone surrogates, and a key that occurs twice
in an object, where the last value stands at the first place. Nothing here mentions a particular
text.
-/

namespace I4A

/-- The code points of a string; an escape may name a surrogate. -/
abbrev JsonText := List Nat

/-- A value that was read. Numbers with a fraction or an exponent are kept as they are written. -/
inductive Json where
  | null
  | bool (b : Bool)
  | int (n : Int)
  | float (text : List Char)
  | str (s : JsonText)
  | arr (xs : List Json)
  | obj (entries : List (JsonText × Json))

namespace Json

def quote : Char := '\x22'
def backslash : Char := '\x5c'
def openBrace : Char := '\x7b'
def closeBrace : Char := '\x7d'
def openBracket : Char := '\x5b'
def closeBracket : Char := '\x5d'
def comma : Char := '\x2c'
def colon : Char := '\x3a'

/-! ## Dictionaries -/

section Dict

variable {α : Type}

/-- Set a key: the value changes in place, a new key goes to the end. -/
def insert (entries : List (JsonText × α)) (key : JsonText) (value : α) : List (JsonText × α) :=
  match entries with
  | [] => [(key, value)]
  | entry :: rest =>
      if entry.1 = key then (key, value) :: rest else entry :: insert rest key value

/-- `dict(pairs)`. -/
def dict (pairs : List (JsonText × α)) : List (JsonText × α) :=
  pairs.foldl (fun entries pair => insert entries pair.1 pair.2) []

/-- `entries.get(key)`. -/
def get? (entries : List (JsonText × α)) (key : JsonText) : Option α :=
  (entries.find? fun entry => entry.1 = key).map Prod.snd

end Dict

/-! ## Characters -/

def isSpace (c : Char) : Bool := c = ' ' || c = '\t' || c = '\n' || c = '\r'

def skipSpace (text : List Char) : List Char := text.dropWhile isSpace

/-- What follows a character that is expected. -/
def expect (c : Char) : List Char → Option (List Char)
  | [] => none
  | d :: rest => if d = c then some rest else none

def hexValue (c : Char) : Option Nat :=
  if '0' ≤ c ∧ c ≤ '9' then some (c.toNat - 0x30)
  else if 'a' ≤ c ∧ c ≤ 'f' then some (c.toNat - 0x57)
  else if 'A' ≤ c ∧ c ≤ 'F' then some (c.toNat - 0x37)
  else none

/-! ## Strings -/

/-- The four digits of an escape. -/
def scanHex : List Char → Option (Nat × List Char)
  | a :: b :: c :: d :: rest => do
      let a ← hexValue a
      let b ← hexValue b
      let c ← hexValue c
      let d ← hexValue d
      return (0x1000 * a + 0x100 * b + 0x10 * c + d, rest)
  | _ => none

/-- The escapes of one character. -/
def escapes : List (Char × Nat) :=
  [(quote, 0x22), (backslash, 0x5c), ('/', 0x2f), ('b', 0x08), ('f', 0x0c), ('n', 0x0a),
    ('r', 0x0d), ('t', 0x09)]

/-- The second half of a surrogate pair, if there is one. -/
def scanLow (text : List Char) : Option (Option (Nat × List Char)) :=
  match expect backslash text >>= expect 'u' with
  | none => some none
  | some digits => do
      let low ← scanHex digits
      if 0xdc00 ≤ low.1 ∧ low.1 ≤ 0xdfff then return some low else return none

/-- What follows a backslash. -/
def scanEscape : List Char → Option (Nat × List Char)
  | [] => none
  | c :: rest =>
      if c = 'u' then do
        let high ← scanHex rest
        if 0xd800 ≤ high.1 ∧ high.1 ≤ 0xdbff then
          let low ← scanLow high.2
          match low with
          | some low =>
              return (0x10000 + 0x400 * (high.1 - 0xd800) + (low.1 - 0xdc00), low.2)
          | none => return high
        else return high
      else (escapes.lookup c).map fun code => (code, rest)

/-- One step of a string: a code point, or `none` for the quote that ends it. -/
def scanChar : List Char → Option (Option Nat × List Char)
  | [] => none
  | c :: rest =>
      if c = quote then some (none, rest)
      else if c = backslash then (scanEscape rest).map fun r => (some r.1, r.2)
      else if c.toNat < 0x20 then none
      else some (some c.toNat, rest)

/-- The string after its first quote; every step takes a character, so that the fuel is the length
of the text. -/
def scanChars : Nat → List Char → Option (JsonText × List Char)
  | 0, _ => none
  | fuel + 1, text =>
      match scanChar text with
      | none => none
      | some (none, rest) => some ([], rest)
      | some (some code, rest) => (scanChars fuel rest).map fun r => (code :: r.1, r.2)

def scanString (text : List Char) : Option (JsonText × List Char) := scanChars text.length text

/-! ## Numbers and constants -/

/-- Digits without a leading zero. -/
def scanDigits : List Char → Option (List Char × List Char)
  | [] => none
  | c :: rest =>
      if c = '0' then some (['0'], rest)
      else if c.isDigit then some (c :: rest.takeWhile Char.isDigit, rest.dropWhile Char.isDigit)
      else none

/-- A fraction, empty if no digit follows the point. -/
def scanFraction (text : List Char) : List Char × List Char :=
  match expect '.' text with
  | none => ([], text)
  | some rest =>
      match rest.takeWhile Char.isDigit with
      | [] => ([], text)
      | digits => ('.' :: digits, rest.dropWhile Char.isDigit)

/-- An exponent, empty if it has no digits. -/
def scanExponent (text : List Char) : List Char × List Char :=
  match text with
  | [] => ([], text)
  | e :: rest =>
      if e = 'e' ∨ e = 'E' then
        let sign := rest.takeWhile (fun c => c = '+' ∨ c = '-') |>.take 1
        let rest := rest.drop sign.length
        match rest.takeWhile Char.isDigit with
        | [] => ([], text)
        | digits => (e :: sign ++ digits, rest.dropWhile Char.isDigit)
      else ([], text)

/-- A number after its sign. -/
def scanUnsigned (negative : Bool) (text : List Char) : Option (Json × List Char) := do
  let integer ← scanDigits text
  let fraction := scanFraction integer.2
  let exponent := scanExponent fraction.2
  if fraction.1 ++ exponent.1 = [] then
    let n : Int := Nat.ofDigitChars 10 integer.1 0
    return (.int (if negative then -n else n), integer.2)
  else
    let sign := if negative then ['-'] else []
    return (.float (sign ++ integer.1 ++ fraction.1 ++ exponent.1), exponent.2)

def scanNumber (text : List Char) : Option (Json × List Char) :=
  match expect '-' text with
  | some rest => scanUnsigned true rest
  | none => scanUnsigned false text

def constants : List (List Char × Json) :=
  [(['n', 'u', 'l', 'l'], .null), (['t', 'r', 'u', 'e'], .bool true),
    (['f', 'a', 'l', 's', 'e'], .bool false), (['N', 'a', 'N'], .float ['N', 'a', 'N']),
    (['I', 'n', 'f', 'i', 'n', 'i', 't', 'y'], .float ['I', 'n', 'f', 'i', 'n', 'i', 't', 'y']),
    (['-', 'I', 'n', 'f', 'i', 'n', 'i', 't', 'y'],
      .float ['-', 'I', 'n', 'f', 'i', 'n', 'i', 't', 'y'])]

def scanConstant (text : List Char) : Option (Json × List Char) :=
  (constants.find? fun constant => constant.1.isPrefixOf text).map fun constant =>
    (constant.2, text.drop constant.1.length)

/-! ## Values -/

mutual

/-- The value at the start of a text, and what follows it. Every value takes a character, and so
does every comma, so that twice the length of the text is enough fuel. -/
def scanOnce : Nat → List Char → Option (Json × List Char)
  | 0, _ => none
  | _ + 1, [] => none
  | fuel + 1, c :: rest =>
      if c = quote then (scanString rest).map fun r => (.str r.1, r.2)
      else if c = openBrace then
        match expect closeBrace (skipSpace rest) with
        | some rest => some (.obj [], rest)
        | none => (scanMembers fuel (skipSpace rest)).map fun r => (.obj (dict r.1), r.2)
      else if c = openBracket then
        match expect closeBracket (skipSpace rest) with
        | some rest => some (.arr [], rest)
        | none => (scanElements fuel (skipSpace rest)).map fun r => (.arr r.1, r.2)
      else (scanConstant (c :: rest)).or (scanNumber (c :: rest))

/-- The elements of an array and its bracket. -/
def scanElements : Nat → List Char → Option (List Json × List Char)
  | 0, _ => none
  | fuel + 1, text => do
      let (value, rest) ← scanOnce fuel text
      match expect comma (skipSpace rest) with
      | some rest => do
          let (values, rest) ← scanElements fuel (skipSpace rest)
          return (value :: values, rest)
      | none => do
          let rest ← expect closeBracket (skipSpace rest)
          return ([value], rest)

/-- The entries of an object and its brace. -/
def scanMembers : Nat → List Char → Option (List (JsonText × Json) × List Char)
  | 0, _ => none
  | fuel + 1, text => do
      let rest ← expect quote text
      let (key, rest) ← scanString rest
      let rest ← expect colon (skipSpace rest)
      let (value, rest) ← scanOnce fuel (skipSpace rest)
      match expect comma (skipSpace rest) with
      | some rest => do
          let (entries, rest) ← scanMembers fuel (skipSpace rest)
          return ((key, value) :: entries, rest)
      | none => do
          let rest ← expect closeBrace (skipSpace rest)
          return ([(key, value)], rest)

end

def fuelFor (text : List Char) : Nat := 2 * text.length + 1

/-- `json.loads`: one value, with space around it. -/
def loads (text : List Char) : Option Json :=
  if (text.head?.map Char.toNat) = some 0xfeff then none
  else do
    let (value, rest) ← scanOnce (fuelFor (skipSpace text)) (skipSpace text)
    if (skipSpace rest).isEmpty then return value else none

end Json

end I4A
