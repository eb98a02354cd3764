import PromptAssembly.Json
import PromptAssembly.Text.LowerCase
import PromptAssembly.Text.Number

/-!
# Trees of settings

Sources are laid over each other: a table is merged into the table that is there, and anything else
replaces what is there. Names are kept in lower case. A source may give its entries places inside the
tree, such as `render.strict` or `list[2]`.
-/
namespace PromptAssembly.Settings
open Text (lower)

abbrev Table := List (String × Json)

/-- The entries of a table; what is no table has none. -/
def tableOf : Json → Table
  | .object entries => entries
  | _ => []

def itemsOf : Json → List Json
  | .array items => items
  | _ => []

def Table.put (key : String) (j : Json) : Table → Table
  | [] => [(key, j)]
  | e :: es => if e.1 = key then (key, j) :: es else e :: Table.put key j es

theorem Table.lookup_put (t : Table) (key : String) (j : Json) (k : String) :
    (t.put key j).lookup k = if k = key then some j else t.lookup k := by
  induction t with
  | nil => grind [Table.put]
  | cons e es ih => grind [Table.put]

mutual

def Table.set (t : Table) (key : String) : Json → Table
  | .object entries => t.put key (merge ((t.lookup key).getD (.object [])) entries)
  | j => t.put key j

/-- Sets all entries in what is made a table if there are any. -/
def merge (target : Json) : Table → Json
  | [] => target
  | (key, j) :: entries => merge (.object ((tableOf target).set (lower key) j)) entries

end

/-- A step into a tree. A negative index counts from the end. -/
inductive Step where
  | entry (key : String)
  | item (index : Int)
  deriving DecidableEq, Repr

def isNameChar (c : Char) : Bool := c.isAlphanum || c = ' ' || c = '_' || c = '-'

def readSteps (fuel : Nat) (s : List Char) : Option (List Step) :=
  match fuel, s with
  | _, [] => some []
  | 0, _ => none
  | fuel + 1, '.' :: s => do
    let name := s.takeWhile isNameChar
    if name.isEmpty then none
    return .entry (String.ofList name) :: (← readSteps fuel (s.drop name.length))
  | fuel + 1, '[' :: s => do
    let digits := s.takeWhile (· ≠ ']')
    let index ← if digits.head? = some '+' then none else Text.integer? digits
    match s.drop digits.length with
    | _ :: s => return .item index :: (← readSteps fuel s)
    | [] => none
  | _, _ => none

/-- The place that a source means by the name of an entry. What is no place is a plain name. -/
def place (s : String) : List Step :=
  let name := s.toList.takeWhile isNameChar
  match if name.isEmpty then none else readSteps s.length (s.toList.drop name.length) with
  | some steps => .entry (String.ofList name) :: steps
  | none => [.entry s]

/-- Changes an item of a list, which is filled up with nulls if it is too short. -/
def changeItem (index : Int) (change : Json → Json) (items : List Json) : List Json :=
  let i := if 0 ≤ index then index.toNat else items.length - index.natAbs
  let items := items ++ List.replicate (i + 1 - items.length) .null
  items.modify i change

/-- Sets the value at a place. Only the last name on the way is put into lower case. -/
def setAt (j : Json) : List Step → Json → Json
  | [], _ => j
  | [.entry key], node => .object ((tableOf node).set (lower key) j)
  | .entry key :: steps, node =>
    let entries := tableOf node
    .object (entries.put key (setAt j steps ((entries.lookup key).getD .null)))
  | .item index :: steps, node => .array (changeItem index (setAt j steps) (itemsOf node))

def overlay (tree : Json) (source : Table) : Json :=
  source.foldl (fun tree (key, j) => setAt j (place key) tree) tree

end PromptAssembly.Settings
