import PromptAssembly.Document
import PromptAssembly.Yaml.Node
import PromptAssembly.Yaml.Plain

/-!
# Reading records from YAML

Where a text is wanted, any scalar serves as it is spelled. An empty value may stand for an empty
list, mapping or record.
-/
namespace PromptAssembly.Yaml.Node

def boolTag : String := "tag:yaml.org,2002:bool"
def intTag : String := "tag:yaml.org,2002:int"
def floatTag : String := "tag:yaml.org,2002:float"
def nullTag : String := "tag:yaml.org,2002:null"

def text? : Node → Option String
  | .scalar _ _ s => some s
  | _ => none

def flag? : Node → Option Bool
  | .scalar _ .plain s => bool? s
  | .scalar tag .literal s => if tag = some boolTag then bool? s else none
  | _ => none

def natural? : Node → Option Nat
  | .scalar _ .plain s => (int? s.toList).bind fun n => if 0 ≤ n then some n.toNat else none
  | .scalar tag .literal s =>
    if tag = some intTag then
      (int? s.toList).bind fun n => if 0 ≤ n then some n.toNat else none
    else none
  | _ => none

/-- A tag that says null has to be right. -/
def isNull? : Node → Option Bool
  | .scalar none .plain s => some (s.isEmpty || isNull s)
  | .scalar (some tag) .plain s =>
    if tag = nullTag then if isNull s then some true else none else some false
  | .alias _ => none
  | _ => some false

def isEmptyPlain : Node → Bool
  | .scalar _ .plain s => s.isEmpty
  | _ => false

def items? : Node → Option (List Node)
  | .sequence _ items => some items
  | n => if n.isEmptyPlain then some [] else none

def entries? : Node → Option (List (String × Node))
  | .mapping _ entries => entries.mapM fun e => return (← e.1.text?, e.2)
  | n => if n.isEmptyPlain then some [] else none

def fields? (names : List String) (n : Node) : Option (List (String × Node)) := do
  let entries ← n.entries?
  if names.any fun name => 1 < entries.countP (·.1 = name) then none else some entries

/-- The value of a scalar. A tag of a program's own cannot be read. -/
def scalarValue? (tag : Option String) (style : ScalarStyle) (s : String) : Option Json :=
  let float : Binary64 → Json
    | .finite negative word => .float (.finite negative word)
    | _ => .null
  match tag with
  | some tag =>
    if tag.startsWith "!" then none
    else if tag = boolTag then (bool? s).map .bool
    else if tag = intTag then
      match (int? s.toList).bind meaningOfInt with
      | some (.int n) => some (.int n)
      | _ => none
    else if tag = floatTag then (float? s).map float
    else if tag = nullTag then if isNull s then some .null else none
    else some (.string s)
  | none =>
    if style ≠ .plain then some (.string s)
    else match meaning s with
    | .null => some .null
    | .bool b => some (.bool b)
    | .int n => some (.int n)
    | .wideInt => none
    | .float x => some (float x)
    | .text => some (.string s)

def isOwnTag (tag : Option String) : Bool := tag.any (·.startsWith "!")

mutual

/-- Any value. `textKeys` says that keys have to mean texts, and not only be spelled like any. -/
def value? (textKeys : Bool) : Node → Option Json
  | .scalar tag style s => scalarValue? tag style s
  | .sequence tag items =>
    if isOwnTag tag then none else (itemValues? textKeys items).map .array
  | .mapping tag entries =>
    if isOwnTag tag then none
    else (entryValues? textKeys entries).map fun es => .object (Dict.ofList es).entries
  | .alias _ => none

def itemValues? (textKeys : Bool) : List Node → Option (List Json)
  | [] => some []
  | n :: ns => do return (← n.value? textKeys) :: (← itemValues? textKeys ns)

def entryValues? (textKeys : Bool) : List (Node × Node) → Option (List (String × Json))
  | [] => some []
  | (k, v) :: es => do
    let key ← match textKeys, k with
      | false, k => k.text?
      | true, .scalar tag style s =>
        match scalarValue? tag style s with
        | some (.string s) => some s
        | _ => none
      | true, _ => none
    return (key, ← v.value? textKeys) :: (← entryValues? textKeys es)

end

instance : FreeDocument Node where
  text? := text?
  flag? := flag?
  natural? := natural?
  isNull? := isNull?
  items? := items?
  entries? := entries?
  fields? := fields?
  value? := value? false
  extra? := value? true

end PromptAssembly.Yaml.Node
