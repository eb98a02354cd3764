import PromptAssembly.Binary64

/-!
# Numbers

The numbers that digits stand for, most significant digit first.
-/
namespace PromptAssembly.Text

def hexValue? (c : Char) : Option Nat :=
  if '0' ≤ c ∧ c ≤ '9' then some (c.toNat - '0'.toNat)
  else if 'a' ≤ c ∧ c ≤ 'f' then some (c.toNat - 'a'.toNat + 10)
  else if 'A' ≤ c ∧ c ≤ 'F' then some (c.toNat - 'A'.toNat + 10)
  else none

/-- One or more digits of a base up to sixteen. -/
def digits? (base : Nat) : List Char → Option Nat
  | [] => none
  | ds => ds.foldlM (fun n d => do
      let v ← hexValue? d
      if v < base then some (base * n + v) else none) 0

def isDigit (c : Char) : Bool := '0' ≤ c && c ≤ '9'

def digitsValue (ds : List Char) : Nat := ds.foldl (fun n d => 10 * n + (d.toNat - '0'.toNat)) 0

/-- Whether a number is negative, and the text behind its sign. -/
def splitSign : List Char → Bool × List Char
  | '-' :: s => (true, s)
  | '+' :: s => (false, s)
  | s => (false, s)

/-- One more than the greatest number of 64 bits. -/
def wordBound : Nat := 0x10000000000000000

/-- Whether 64 bits with sign hold a number. -/
def isInt64 (n : Int) : Bool := -0x8000000000000000 ≤ n && n < 0x8000000000000000

def integer? (s : List Char) : Option Int :=
  let (negative, ds) := splitSign s
  (digits? 10 ds).map fun n => if negative then -(n : Int) else n

/-- An exponent of ten, its mark already read. -/
def readExponent (s : List Char) : Option (Int × List Char) :=
  let (negative, s) := splitSign s
  match s.takeWhile isDigit with
  | [] => none
  | ds => some (if negative then -(digitsValue ds : Int) else digitsValue ds, s.dropWhile isDigit)

/-- A decimal with digits before or behind the point, and perhaps a sign and an exponent. -/
def decimal? (s : List Char) : Option Binary64 := do
  let (negative, s) := splitSign s
  let whole := s.takeWhile isDigit
  let s := s.dropWhile isDigit
  let (fraction, s) := match s with
    | '.' :: s => (s.takeWhile isDigit, s.dropWhile isDigit)
    | s => ([], s)
  if whole.isEmpty && fraction.isEmpty then none
  let exponent ← match s with
    | [] => some 0
    | 'e' :: s | 'E' :: s => do
      let (e, rest) ← readExponent s
      if rest.isEmpty then some e else none
    | _ => none
  return Binary64.ofDecimal negative (digitsValue (whole ++ fraction)) (exponent - fraction.length)

end PromptAssembly.Text
