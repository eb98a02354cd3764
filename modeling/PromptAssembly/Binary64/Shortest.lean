import PromptAssembly.Binary64

/-!
# Shortest decimals

The fewest digits that read back as the same number, and of the candidates with so few digits the
one nearest to the number. A `Layout` says how the digits are written down.
-/
namespace PromptAssembly.Binary64

/-- The candidates `c * 10 ^ t` next to the magnitude that round to it, nearest first. The reals
that round to `m * 2 ^ e` are measured in quarters of `2 ^ e`; the ends count if `m` is even. -/
def onGrid? (word : Nat) (t : Int) : Option Nat :=
  let (m, e) := unpack word
  let below := if m = hiddenBit ∧ e > -1074 then 4 * m - 1 else 4 * m - 2
  let above := 4 * m + 2
  let (un, ud) := scaled 1 (e - 2)
  let unit := un * Nat.pow 10 (-t).toNat
  let step := ud * Nat.pow 10 t.toNat
  let inside (c : Nat) : Bool :=
    if m % 2 = 0 then below * unit ≤ c * step && c * step ≤ above * unit
    else below * unit < c * step && c * step < above * unit
  let value := 4 * m * unit
  let c := value / step
  let nearer : Nat :=
    let low := value - c * step
    let high := (c + 1) * step - value
    if low < high || (low = high && c % 2 = 0) then c else c + 1
  match inside c, inside (c + 1) with
  | true, true => some nearer
  | true, false => some c
  | false, true => some (c + 1)
  | false, false => none

def shortest (word : Nat) : Nat × Int :=
  if word = 0 then (0, 0) else
  let (m, e) := unpack word
  let top : Int := (((m.log2 : Int) + e) * 30103) / 100000 + 2
  let candidate (i : Nat) : Option (Nat × Int) := (onGrid? word (top - i)).map (·, top - i)
  ((List.range 30).findSome? candidate).getD (0, 0)

/-- The point of a number stands some places to the right (or, counted negative, to the left) of
its first digit's left edge. From `pointFrom` to `pointTo` places the notation is positional,
elsewhere there is an exponent. -/
structure Layout where
  pointFrom : Int
  pointTo : Int
  /-- Whether a whole number ends in `.0`. -/
  keepPoint : Bool
  infinity : String
  nan : String
  deriving DecidableEq, Repr

def zeros (n : Nat) : String := String.ofList (List.replicate n '0')

def Layout.magnitude (l : Layout) (word : Nat) : String :=
  let (n, t) := shortest word
  let digits := toString n
  let point : Int := digits.length + t
  let whole := if l.keepPoint then ".0" else ""
  if n = 0 then "0" ++ whole
  else if point < l.pointFrom || l.pointTo < point then
    let fraction := digits.drop 1
    let mantissa := if fraction.isEmpty then digits else s!"{digits.take 1}.{fraction}"
    s!"{mantissa}e{point - 1}"
  else if 0 ≤ t then digits ++ zeros t.toNat ++ whole
  else if 0 < point then s!"{digits.take point.toNat}.{digits.drop point.toNat}"
  else "0." ++ zeros (-point).toNat ++ digits

def Layout.text (l : Layout) : Binary64 → String
  | .finite negative word => (if negative then "-" else "") ++ l.magnitude word
  | .infinite negative => (if negative then "-" else "") ++ l.infinity
  | .nan => l.nan

/-- Documents write `0.00001` and `1000000000000000.0` positionally, `1e-6` and `1e16` with an
exponent, and keep the point of a whole number. -/
def document : Layout := ⟨-4, 16, true, ".inf", ".nan"⟩

/-- A number turned into the text of a setting has no exponent and no idle point. -/
def setting : Layout := ⟨-400, 400, false, "inf", "NaN"⟩

end PromptAssembly.Binary64
