import PromptAssembly.Json
import PromptAssembly.Text.Number

/-!
# Reading JSON

A reader takes a value off the front of a text and returns the rest. Objects come out with their
keys sorted, and of two fields with one key the later wins. Containers may nest `maxNesting` deep.
-/
namespace PromptAssembly.Json
open Text (digits? digitsValue isDigit isInt64 readExponent wordBound)

def isBlank (c : Char) : Bool := c = ' ' || c = '\n' || c = '\r' || c = '\t'

def skipBlanks (s : List Char) : List Char := s.dropWhile isBlank

/-- The characters after `\u`: four digits, or two times four for a surrogate pair. -/
def unicodeEscape? : List Char → Option (Char × List Char)
  | a :: b :: c :: d :: s => do
    let n ← digits? 16 [a, b, c, d]
    if n < 0xD800 ∨ 0xDFFF < n then return (Char.ofNat n, s)
    match s with
    | '\\' :: 'u' :: e :: f :: g :: h :: s =>
      let m ← digits? 16 [e, f, g, h]
      if n < 0xDC00 ∧ 0xDC00 ≤ m ∧ m ≤ 0xDFFF then
        return (Char.ofNat (0x10000 + (n - 0xD800) * 0x400 + (m - 0xDC00)), s)
      none
    | _ => none
  | _ => none

def simpleEscape? : Char → Option Char
  | '"' => some '"'
  | '\\' => some '\\'
  | '/' => some '/'
  | 'b' => some '\x08'
  | 'f' => some '\x0c'
  | 'n' => some '\n'
  | 'r' => some '\r'
  | 't' => some '\t'
  | _ => none

/-- The rest of a string whose opening quote has been read; `done` holds the characters so far,
last first. -/
def readString (fuel : Nat) (done : List Char) (s : List Char) : Option (String × List Char) :=
  match fuel, s with
  | _, '"' :: s => some (String.ofList done.reverse, s)
  | fuel + 1, '\\' :: 'u' :: s => do
    let (c, s) ← unicodeEscape? s
    readString fuel (c :: done) s
  | fuel + 1, '\\' :: e :: s => do readString fuel ((← simpleEscape? e) :: done) s
  | fuel + 1, c :: s => if c.toNat < 0x20 then none else readString fuel (c :: done) s
  | _, _ => none

/-- A number in decimal notation: sign, digits before and after the point, and the power of ten.
`fraction` and `exponent` are absent where the text has none. -/
structure Numeral where
  negative : Bool
  whole : List Char
  fraction : Option (List Char)
  exponent : Option Int
  deriving DecidableEq, Repr

/-- A leading zero stands alone, and a point or an exponent mark is followed by a digit. -/
def readNumeral (s : List Char) : Option (Numeral × List Char) := do
  let (negative, s) := match s with
    | '-' :: s => (true, s)
    | s => (false, s)
  let (whole, s) ← match s with
    | '0' :: s => if (s.head?.map isDigit).getD false then none else some (['0'], s)
    | s => if (s.takeWhile isDigit).isEmpty then none
           else some (s.takeWhile isDigit, s.dropWhile isDigit)
  let (fraction, s) ← match s with
    | '.' :: s => if (s.takeWhile isDigit).isEmpty then none
                  else some (some (s.takeWhile isDigit), s.dropWhile isDigit)
    | s => some (none, s)
  let (exponent, s) ← match s with
    | 'e' :: s | 'E' :: s => (readExponent s).map fun (e, s) => (some e, s)
    | s => some (none, s)
  return (⟨negative, whole, fraction, exponent⟩, s)

/-- Digits are taken while the number they form stays below `2 ^ 64`; returned with the count of
those left out. -/
def significand (ds : List Char) (start : Nat) : Nat × Nat :=
  match ds with
  | [] => (start, 0)
  | d :: rest =>
    let next := 10 * start + digitsValue [d]
    if next < wordBound then significand rest next else (start, ds.length)

/-- Significand and power of ten are each rounded to binary64 before they meet. -/
def scaleFloat (negative : Bool) (fuel : Nat) (x : Nat) (exponent : Int) : Option Binary64 :=
  let power (k : Nat) : Nat := match Binary64.ofDecimal false 1 k with
    | .finite _ w => w
    | _ => 0
  if exponent.natAbs ≤ 308 then
    if 0 ≤ exponent then match Binary64.mulWords negative x (power exponent.natAbs) with
      | .finite s w => some (.finite s w)
      | _ => none
    else some (Binary64.divWords negative x (power exponent.natAbs))
  else if x = 0 then some (.finite negative 0)
  else if 0 ≤ exponent then none
  else match fuel, Binary64.divWords false x (power 308) with
    | fuel + 1, .finite _ w => scaleFloat negative fuel w (exponent + 308)
    | _, _ => some (.finite negative 0)

def Numeral.toFloat? (n : Numeral) : Option Binary64 :=
  let (whole, dropped) := significand n.whole 0
  let fraction := if dropped = 0 then n.fraction.getD [] else []
  let (digits, left) := significand fraction whole
  let exponent := (dropped : Int) - (fraction.length - left : Nat) + n.exponent.getD 0
  match Binary64.ofNat digits with
  | .finite _ w => scaleFloat n.negative (exponent.natAbs / 308 + 1) w exponent
  | _ => none

/-- A numeral without point and exponent is a whole number if 64 bits hold it. -/
def Numeral.toJson? (n : Numeral) : Option Json :=
  let k := digitsValue n.whole
  let fits := if n.negative then 0 < k && isInt64 (-(k : Int)) else k < wordBound
  if n.fraction.isNone && n.exponent.isNone && fits then
    some (.int (if n.negative then -(k : Int) else k))
  else n.toFloat?.map .float

def maxNesting : Nat := 127

mutual

def readValue (fuel depth : Nat) (s : List Char) : Option (Json × List Char) :=
  match fuel with
  | 0 => none
  | fuel + 1 =>
    match skipBlanks s with
    | 'n' :: 'u' :: 'l' :: 'l' :: s => some (.null, s)
    | 't' :: 'r' :: 'u' :: 'e' :: s => some (.bool true, s)
    | 'f' :: 'a' :: 'l' :: 's' :: 'e' :: s => some (.bool false, s)
    | '"' :: s => (readString s.length [] s).map fun (t, s) => (.string t, s)
    | '[' :: s =>
      match depth, skipBlanks s with
      | 0, _ => none
      | _, ']' :: s => some (.array [], s)
      | depth + 1, s => (readItems fuel depth s).map fun (items, s) => (.array items, s)
    | '{' :: s =>
      match depth, skipBlanks s with
      | 0, _ => none
      | _, '}' :: s => some (.object [], s)
      | depth + 1, s =>
        (readFields fuel depth s).map fun (fields, s) =>
          (.object (Dict.ofList fields).entries, s)
    | s => do
      let (n, s) ← readNumeral s
      return (← n.toJson?, s)

/-- One or more values up to the closing bracket. -/
def readItems (fuel depth : Nat) (s : List Char) : Option (List Json × List Char) :=
  match fuel with
  | 0 => none
  | fuel + 1 => do
    let (item, s) ← readValue fuel depth s
    match skipBlanks s with
    | ']' :: s => return ([item], s)
    | ',' :: s =>
      let (items, s) ← readItems fuel depth s
      return (item :: items, s)
    | _ => none

/-- One or more fields up to the closing brace. -/
def readFields (fuel depth : Nat) (s : List Char) : Option (List (String × Json) × List Char) :=
  match fuel with
  | 0 => none
  | fuel + 1 =>
    match skipBlanks s with
    | '"' :: s => do
      let (key, s) ← readString s.length [] s
      match skipBlanks s with
      | ':' :: s =>
        let (value, s) ← readValue fuel depth s
        match skipBlanks s with
        | '}' :: s => return ([(key, value)], s)
        | ',' :: s =>
          let (fields, s) ← readFields fuel depth s
          return ((key, value) :: fields, s)
        | _ => none
      | _ => none
    | _ => none

end

def parse? (text : String) : Option Json := do
  let s := text.toList
  let (j, rest) ← readValue (2 * s.length + 1) maxNesting s
  if (skipBlanks rest).isEmpty then some j else none

end PromptAssembly.Json
