import PromptAssembly.Json
import PromptAssembly.Text.Number

/-!
# Scalars without quotes

Flags, whole numbers, floating point numbers and moments in time, each written as one word. Moments
become texts in a normal form.
-/
namespace PromptAssembly.Toml
open Text (digits? decimal? splitSign isDigit digitsValue isInt64)

/-- The digits of a group of digits that underscores may divide. -/
def ungrouped? (s : List Char) : Option (List Char) :=
  if (s.splitOn '_').all (!·.isEmpty) then some (s.filter (· ≠ '_')) else none

def isPadded : List Char → Bool
  | '0' :: _ :: _ => true
  | _ => false

/-- Whole numbers have 64 bits. A number with a base mark has no sign. -/
def int? (s : List Char) : Option Int := do
  let number (base : Nat) (ds : List Char) : Option Int :=
    ((ungrouped? ds).bind (digits? base)).map fun n => (n : Int)
  let n ← match s with
    | '0' :: 'x' :: ds => number 16 ds
    | '0' :: 'o' :: ds => number 8 ds
    | '0' :: 'b' :: ds => number 2 ds
    | s =>
      let (negative, ds) := splitSign s
      if isPadded ds then none
      else (number 10 ds).map fun n => if negative then -n else n
  if isInt64 n then some n else none

def isGrouped (c : Char) : Bool := isDigit c || c = '_'

/-- Digits with a fraction, an exponent or both. -/
def isFloat (s : List Char) : Bool :=
  let isGroup (s : List Char) : Bool := !s.isEmpty && (ungrouped? s).isSome
  let isExponent : List Char → Bool
    | 'e' :: s | 'E' :: s => isGroup (splitSign s).2 && (splitSign s).2.all isGrouped
    | _ => false
  let s := (splitSign s).2
  let whole := s.takeWhile isGrouped
  isGroup whole && !isPadded whole &&
    match s.dropWhile isGrouped with
    | '.' :: s =>
      let fraction := s.takeWhile isGrouped
      let rest := s.dropWhile isGrouped
      isGroup fraction && (rest.isEmpty || isExponent rest)
    | s => isExponent s

def float? (s : List Char) : Option Binary64 :=
  let (negative, t) := splitSign s
  if t = "inf".toList then some (.infinite negative)
  else if t = "nan".toList then some .nan
  else if isFloat s then
    match decimal? (s.filter (· ≠ '_')) with
    | some (.infinite false) => none
    | x => x
  else none

def isBetween (low high : Nat) (ds : List Char) : Bool :=
  ds.all isDigit && low ≤ digitsValue ds && digitsValue ds ≤ high

def daysOf (year month : Nat) : Nat :=
  let leap := year % 4 = 0 ∧ (year % 100 ≠ 0 ∨ year % 400 = 0)
  if month = 2 then if leap then 29 else 28
  else if [4, 6, 9, 11].contains month then 30 else 31

def isDate : List Char → Bool
  | [a, b, c, d, '-', e, f, '-', g, h] =>
    [a, b, c, d].all isDigit && isBetween 1 12 [e, f] &&
      isBetween 1 (daysOf (digitsValue [a, b, c, d]) (digitsValue [e, f])) [g, h]
  | _ => false

/-- A fraction of a second: at most nine places count, and no idle zeros at the end. -/
def fractionText (ds : List Char) : List Char :=
  match ((ds.take 9).reverse.dropWhile (· = '0')).reverse with
  | [] => []
  | ds => '.' :: ds

/-- A time of day in normal form, and what follows it. -/
def readTime : List Char → Option (List Char × List Char)
  | a :: b :: ':' :: c :: d :: ':' :: e :: f :: s =>
    if isBetween 0 23 [a, b] && isBetween 0 59 [c, d] && isBetween 0 60 [e, f] then
      let time := [a, b, ':', c, d, ':', e, f]
      match s with
      | '.' :: s =>
        let fraction := s.takeWhile isDigit
        if fraction.isEmpty then none
        else some (time ++ fractionText fraction, s.dropWhile isDigit)
      | s => some (time, s)
    else none
  | _ => none

/-- The offset of a time zone in normal form. -/
def offset? : List Char → Option (List Char)
  | [] => some []
  | ['Z'] | ['z'] => some ['Z']
  | [sign, a, b, ':', c, d] =>
    if (sign = '+' || sign = '-') && isBetween 0 23 [a, b] && isBetween 0 59 [c, d] then
      let sign := if digitsValue [a, b, c, d] = 0 then '+' else sign
      some [sign, a, b, ':', c, d]
    else none
  | _ => none

def timeWithOffset? (s : List Char) : Option (List Char) := do
  let (time, rest) ← readTime s
  return time ++ (← offset? rest)

/-- A date, a time of day, or both with `T` or a blank between them and perhaps an offset. -/
def moment? (s : List Char) : Option (List Char) :=
  if isDate (s.take 10) then
    match s.drop 10 with
    | [] => some s
    | mark :: t =>
      if mark = 'T' || mark = 't' || mark = ' ' then
        (timeWithOffset? t).map fun t => s.take 10 ++ 'T' :: t
      else none
  else match readTime s with
    | some (time, []) => some time
    | _ => none

def scalar? (s : List Char) : Option Json :=
  if s = "true".toList then some (.bool true)
  else if s = "false".toList then some (.bool false)
  else match int? s with
  | some n => some (.int n)
  | none =>
    match float? s with
    | some x => some (.float x)
    | none => (moment? s).map fun t => .string (String.ofList t)

def endsWord (c : Char) : Bool := " \t\n,]\x7d#".toList.contains c

/-- A word and its value. A blank may stand between a date and a time. -/
def readScalar (s : List Char) : Option (Json × List Char) :=
  let word (s : List Char) : List Char := s.takeWhile fun c => !endsWord c
  let first := word s
  let rest := s.drop first.length
  let longer : Option (Json × List Char) :=
    match rest with
    | ' ' :: t =>
      if isDate first && (timeWithOffset? (word t)).isSome then
        (scalar? (first ++ ' ' :: word t)).map (·, t.drop (word t).length)
      else none
    | _ => none
  longer.orElse fun _ => (scalar? first).map (·, rest)

end PromptAssembly.Toml
