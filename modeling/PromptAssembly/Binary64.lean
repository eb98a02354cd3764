/-!
# Binary floating point numbers

IEEE 754 binary64 numbers as data. A finite number is a sign and the word of its magnitude (biased
exponent above a 52-bit fraction); its value is a significand times a power of two. All rounding is
to nearest, a tie to the even neighbour, in exact arithmetic on natural numbers.
-/
namespace PromptAssembly

inductive Binary64 where
  | finite (negative : Bool) (word : Nat)
  | infinite (negative : Bool)
  | nan
  deriving DecidableEq, Repr

namespace Binary64

def zero : Binary64 := .finite false 0

instance : Inhabited Binary64 := ⟨zero⟩

/-- The bit in front of the fraction, which a word does not hold: `2 ^ 52`. -/
def hiddenBit : Nat := 0x10000000000000

/-- Significand and exponent of two of a magnitude. -/
def unpack (word : Nat) : Nat × Int :=
  match word / hiddenBit with
  | 0 => (word, -1074)
  | e + 1 => (hiddenBit + word % hiddenBit, (e : Int) - 1074)

def scaled (m : Nat) (e : Int) : Nat × Nat := (m * Nat.pow 2 e.toNat, Nat.pow 2 (-e).toNat)

def ratio (word : Nat) : Nat × Nat :=
  let (m, e) := unpack word
  scaled m e

def roundHalfEven (num den : Nat) : Nat :=
  let q := num / den
  let r := num % den
  if 2 * r < den then q
  else if den < 2 * r then q + 1
  else if q % 2 = 0 then q else q + 1

/-- The greatest `k` with `2 ^ k ≤ num / den`, for positive `num` and `den`. -/
def floorLog2 (num den : Nat) : Int :=
  let k : Int := (num.log2 : Int) - den.log2
  let (p, q) := scaled 1 k
  if num * q < den * p then k - 1 else k

/-- The binary64 number nearest to a ratio. A significand that rounds up to the next power of two
carries into the exponent by itself, since the two stand side by side in the word. -/
def ofRatio (negative : Bool) (num den : Nat) : Binary64 :=
  if num = 0 then .finite negative 0 else
  let e := max (floorLog2 num den - 52) (-1074)
  let (p, q) := scaled 1 e
  let word := (e + 1074).toNat * hiddenBit + roundHalfEven (num * q) (den * p)
  if word < 2047 * hiddenBit then .finite negative word else .infinite negative

def ofNat (n : Nat) : Binary64 := ofRatio false n 1

def ofInt (n : Int) : Binary64 := ofRatio (decide (n < 0)) n.natAbs 1

def decimalLength (n : Nat) : Nat := (Nat.toDigits 10 n).length

/-- The binary64 number nearest to `digits * 10 ^ exponent`. Magnitudes beyond `10 ^ ±400` are
settled without forming the power. -/
def ofDecimal (negative : Bool) (digits : Nat) (exponent : Int) : Binary64 :=
  if digits = 0 then .finite negative 0
  else if exponent + decimalLength digits > 400 then .infinite negative
  else if exponent + decimalLength digits < -400 then .finite negative 0
  else ofRatio negative (digits * Nat.pow 10 exponent.toNat) (Nat.pow 10 (-exponent).toNat)

def mulWords (negative : Bool) (a b : Nat) : Binary64 :=
  ofRatio negative ((ratio a).1 * (ratio b).1) ((ratio a).2 * (ratio b).2)

def divWords (negative : Bool) (a b : Nat) : Binary64 :=
  ofRatio negative ((ratio a).1 * (ratio b).2) ((ratio a).2 * (ratio b).1)

def isZero : Binary64 → Bool
  | .finite _ word => word = 0
  | _ => false

/-- The nearest natural number, a half going up; what is below zero counts as zero, and the result
stays below `bound`. -/
def toNatBelow (bound : Nat) : Binary64 → Nat
  | .finite false word =>
    let (num, den) := ratio word
    min ((2 * num + den) / (2 * den)) (bound - 1)
  | .infinite false => bound - 1
  | _ => 0

end Binary64
end PromptAssembly
