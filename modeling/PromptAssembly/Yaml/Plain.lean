import PromptAssembly.Text.Number

/-!
# The meaning of plain scalars

A scalar without quotes stands for null, a flag, a whole number, a floating point number or a text,
by its spelling alone.
-/
namespace PromptAssembly.Yaml
open Text (digits? decimal? splitSign isInt64 wordBound)

inductive Meaning where
  | null
  | bool (b : Bool)
  | int (n : Int)
  /-- A whole number that 64 bits do not hold, but 128 bits do. -/
  | wideInt
  | float (x : Binary64)
  | text
  deriving DecidableEq, Repr

def isNull (s : String) : Bool := ["null", "Null", "NULL", "~"].contains s

def bool? (s : String) : Option Bool :=
  if ["true", "True", "TRUE"].contains s then some true
  else if ["false", "False", "FALSE"].contains s then some false
  else none

/-- Digits with a needless zero in front. -/
def isPaddedNumber (s : List Char) : Bool :=
  match (splitSign s).2 with
  | '0' :: d :: ds => (d :: ds).all Char.isDigit
  | _ => false

/-- A magnitude: a base mark and digits of that base, or decimal digits. -/
def magnitude? (padded : Bool) (s : List Char) : Option Nat :=
  let based := match s with
    | '0' :: 'x' :: ds => digits? 16 ds
    | '0' :: 'o' :: ds => digits? 8 ds
    | '0' :: 'b' :: ds => digits? 2 ds
    | _ => none
  based.orElse fun _ => if padded then none else digits? 10 s

def int? (s : List Char) : Option Int :=
  let (negative, t) := splitSign s
  (magnitude? (isPaddedNumber s) t).map fun n => if negative then -(n : Int) else n

def float? (s : String) : Option Binary64 :=
  if [".inf", ".Inf", ".INF", "+.inf", "+.Inf", "+.INF"].contains s then some (.infinite false)
  else if ["-.inf", "-.Inf", "-.INF"].contains s then some (.infinite true)
  else if [".nan", ".NaN", ".NAN"].contains s then some .nan
  else match decimal? s.toList with
  | some (.finite negative word) => some (.finite negative word)
  | _ => none

def meaningOfInt (n : Int) : Option Meaning :=
  let bound : Int := wordBound
  if isInt64 n || (0 ≤ n && n < bound) then some (.int n)
  else if -(bound * bound) ≤ 2 * n && n < bound * bound then some .wideInt
  else none

def meaning (s : String) : Meaning :=
  if s.isEmpty || isNull s then .null
  else match bool? s with
  | some b => .bool b
  | none =>
    match (int? s.toList).bind meaningOfInt with
    | some m => m
    | none =>
      if isPaddedNumber s.toList then .text
      else match float? s with
      | some x => .float x
      | none => .text

end PromptAssembly.Yaml
