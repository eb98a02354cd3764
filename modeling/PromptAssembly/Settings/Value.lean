import PromptAssembly.Binary64.Shortest
import PromptAssembly.Document
import PromptAssembly.Text.LowerCase
import PromptAssembly.Text.Number

/-!
# Values of settings

Settings are lenient: a text may spell a number or a flag, and a number or a flag may stand for a
text. A text from the environment is taken for a flag or a number wherever it can be one.
-/
namespace PromptAssembly.Settings
open Text (integer? decimal? digits? isInt64 splitSign lower wordBound)

structure Value where
  json : Json
  deriving DecidableEq, Repr

namespace Value

def trueWords : List String := ["true", "on", "yes"]

def falseWords : List String := ["false", "off", "no"]

def text? : Json → Option String
  | .string s => some s
  | .bool b => some (if b then "true" else "false")
  | .int n => some (toString n)
  | .float x => some (Binary64.setting.text x)
  | _ => none

def flag? : Json → Option Bool
  | .bool b => some b
  | .int n => some (n ≠ 0)
  | .float x => some (!x.isZero)
  | .string s =>
    if ("1" :: trueWords).contains (lower s) then some true
    else if ("0" :: falseWords).contains (lower s) then some false
    else none
  | _ => none

/-- The digits of a natural number, perhaps behind a plus sign. -/
def naturalText? (s : List Char) : Option Nat :=
  match s with
  | '+' :: ds => digits? 10 ds
  | ds => digits? 10 ds

/-- A natural number of 64 bits. A floating point number is rounded, and cut off at the ends of the
range. -/
def natural? : Json → Option Nat
  | .int n => if 0 ≤ n then some n.toNat else none
  | .bool b => some b.toNat
  | .float x => some (x.toNatBelow wordBound)
  | .string s =>
    if trueWords.contains (lower s) then some 1
    else if falseWords.contains (lower s) then some 0
    else (naturalText? s.toList).filter (· < wordBound)
  | _ => none

def fields? (names : List String) : Json → Option (List (String × Value))
  | .object fields => some (fields.map fun (k, v) => (k, ⟨v⟩))
  | .array items => some (names.zip (items.map Value.mk))
  | _ => none

instance : Document Value where
  text? v := text? v.json
  flag? v := flag? v.json
  natural? v := natural? v.json
  isNull? v := some (v.json == .null)
  items? v := match v.json with
    | .array items => some (items.map Value.mk)
    | _ => none
  entries? v := match v.json with
    | .object fields => some (fields.map fun (k, j) => (k, ⟨j⟩))
    | _ => none
  fields? names v := fields? names v.json

def floatText? (s : String) : Option Binary64 :=
  let (negative, t) := splitSign s.toList
  let word := String.ofList (t.map Char.toLower)
  if word = "inf" ∨ word = "infinity" then some (.infinite negative)
  else if word = "nan" then some .nan
  else decimal? s.toList

def ofText (s : String) : Json :=
  if lower s = "true" then .bool true
  else if lower s = "false" then .bool false
  else match (integer? s.toList).filter isInt64 with
  | some n => .int n
  | none =>
    match floatText? s with
    | some x => .float x
    | none => .string s

end Value
end PromptAssembly.Settings
