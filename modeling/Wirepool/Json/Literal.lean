/-!
# Numbers and strings of JSON

The reader is exact about the grammar and lazy about meaning. A number is kept
as the characters it was written with, so `65536` and `65536.0` stay apart. A
string may spell half of a surrogate pair; that is within the grammar, but the
string is then no text, and it is up to whoever needs the text to refuse it.

Each function gives the characters that are left, and nothing at all if the
grammar is not met.
-/

namespace Wirepool

namespace Json

/-! ## Blanks and numbers -/

/-- The blanks of JSON. -/
def isBlank (c : Char) : Bool :=
  c = ' ' || c = '\n' || c = '\t' || c = '\r'

/-- The input behind leading blanks. -/
def skipBlanks (cs : List Char) : List Char := cs.dropWhile isBlank

/-- The leading ASCII digits and what follows them. -/
def digits (cs : List Char) : List Char × List Char :=
  (cs.takeWhile Char.isDigit, cs.dropWhile Char.isDigit)

/-- At least one digit. -/
def someDigits (cs : List Char) : Option (List Char × List Char) :=
  match digits cs with
  | ([], _) => none
  | found => some found

/-- The digits in front of the point: zero alone or a row that starts with
another digit. -/
def wholePart : List Char → Option (List Char × List Char)
  | '0' :: cs => some (['0'], cs)
  | cs => someDigits cs

/-- The point and the digits behind it, if there is a point. -/
def fraction : List Char → Option (List Char × List Char)
  | '.' :: cs => (someDigits cs).map fun (ds, cs) => ('.' :: ds, cs)
  | cs => some ([], cs)

/-- The exponent, if there is one. -/
def exponent : List Char → Option (List Char × List Char)
  | c :: cs =>
    if c = 'e' || c = 'E' then
      match cs with
      | '+' :: cs => (someDigits cs).map fun (ds, cs) => (c :: '+' :: ds, cs)
      | '-' :: cs => (someDigits cs).map fun (ds, cs) => (c :: '-' :: ds, cs)
      | cs => (someDigits cs).map fun (ds, cs) => (c :: ds, cs)
    else some ([], c :: cs)
  | [] => some ([], [])

/-- A number. -/
def readNumber (cs : List Char) : Option (List Char × List Char) := do
  let (sign, cs) := match cs with
    | '-' :: cs => (['-'], cs)
    | cs => ([], cs)
  let (whole, cs) ← wholePart cs
  let (part, cs) ← fraction cs
  let (power, cs) ← exponent cs
  return (sign ++ whole ++ part ++ power, cs)

/-! ## Strings -/

/-- **What a string is written with**: characters, and UTF-16 units by number. -/
inductive Unit16 where
  | char (c : Char)
  | unit (n : Nat)

/-- The value of a hexadecimal digit. -/
def hexValue? (c : Char) : Option Nat :=
  if '0' ≤ c ∧ c ≤ '9' then some (c.toNat - '0'.toNat)
  else if 'a' ≤ c ∧ c ≤ 'f' then some (c.toNat - 'a'.toNat + 10)
  else if 'A' ≤ c ∧ c ≤ 'F' then some (c.toNat - 'A'.toNat + 10)
  else none

/-- What stands for itself behind a backslash, and the short escapes. -/
def shortEscape? : Char → Option Char
  | '"' => some '"'
  | '\\' => some '\\'
  | '/' => some '/'
  | 'b' => some '\x08'
  | 'f' => some '\x0c'
  | 'n' => some '\n'
  | 'r' => some '\r'
  | 't' => some '\t'
  | _ => none

/-- The rest of a string up to its closing quote. Control characters must be
escaped. -/
def stringUnits : List Char → Option (List Unit16 × List Char)
  | [] => none
  | '"' :: cs => some ([], cs)
  | '\\' :: 'u' :: a :: b :: c :: d :: cs => do
    let n := ((← hexValue? a) * 4096 + (← hexValue? b) * 256 + (← hexValue? c) * 16
      + (← hexValue? d))
    let (units, cs) ← stringUnits cs
    return (.unit n :: units, cs)
  | '\\' :: e :: cs => do
    let c ← shortEscape? e
    let (units, cs) ← stringUnits cs
    return (.char c :: units, cs)
  | c :: cs =>
    if c.toNat < 0x20 || c = '\\' then none
    else do
      let (units, cs) ← stringUnits cs
      return (.char c :: units, cs)

/-- **The text that units spell.** A unit that announces a pair must be followed
by the other half, which must not stand alone. -/
def textOfUnits : List Unit16 → Option (List Char)
  | [] => some []
  | .char c :: units => (textOfUnits units).map (c :: ·)
  | .unit n :: units =>
    if 0xDC00 ≤ n ∧ n ≤ 0xDFFF then none
    else if 0xD800 ≤ n ∧ n ≤ 0xDBFF then
      match units with
      | .unit m :: units =>
        if 0xDC00 ≤ m ∧ m ≤ 0xDFFF then
          (textOfUnits units).map (Char.ofNat (0x10000 + (n - 0xD800) * 0x400 + (m - 0xDC00)) :: ·)
        else none
      | _ => none
    else (textOfUnits units).map (Char.ofNat n :: ·)

/-- A string whose opening quote is read already. -/
def string? (cs : List Char) : Option (Option String × List Char) := do
  let (units, cs) ← stringUnits cs
  return ((textOfUnits units).map String.ofList, cs)

end Json

end Wirepool
