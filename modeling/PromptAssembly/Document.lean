import PromptAssembly.Json

/-!
# Documents

What a document format has to offer for the library's records to be read from it. A record is read
through the names of its fields, so that its reader is written once and serves every format; how
lenient a format is with texts, flags or empty values is its own affair.
-/
namespace PromptAssembly

class Document (σ : Type) where
  text? : σ → Option String
  flag? : σ → Option Bool
  natural? : σ → Option Nat
  /-- Whether the value stands for an optional value that is absent, if that can be told. -/
  isNull? : σ → Option Bool
  items? : σ → Option (List σ)
  /-- All entries of a mapping, keys given twice included. -/
  entries? : σ → Option (List (String × σ))
  /-- The fields of a record, given the names it knows. No such name comes twice. -/
  fields? : List String → σ → Option (List (String × σ))

/-- A format in which any value at all can stand where one is expected. -/
class FreeDocument (σ : Type) extends Document σ where
  value? : σ → Option Json
  /-- Any value at all, where it stands among the named fields of a record. -/
  extra? : σ → Option Json

namespace Document
variable {σ α : Type} [Document σ]

def optional? (read : σ → Option α) (s : σ) : Option (Option α) := do
  if ← isNull? s then return none
  return some (← read s)

def list? (read : σ → Option α) (s : σ) : Option (List α) := do (← items? s).mapM read

def pairs? (read : σ → Option α) (s : σ) : Option (List (String × α)) := do
  (← entries? s).mapM fun e => return (e.1, ← read e.2)

/-- Of several entries for one key the last counts, though all have to be readable. -/
def dict? (read : σ → Option α) (s : σ) : Option (Dict α) := (pairs? read s).map Dict.ofList

/-- A field that has to be there. -/
def needed? (fields : List (String × σ)) (name : String) (read : σ → Option α) : Option α :=
  (fields.lookup name).bind read

/-- A field that may be left out. -/
def field? (fields : List (String × σ)) (name : String) (default : α) (read : σ → Option α) :
    Option α :=
  match fields.lookup name with
  | none => some default
  | some s => read s

end Document

namespace Json

/-- A record may also be given as an array, which holds its first fields in order. -/
def recordFields? (names : List String) : Json → Option (List (String × Json))
  | .object fields => some fields
  | .array items => if items.length ≤ names.length then some (names.zip items) else none
  | _ => none

instance : FreeDocument Json where
  text?
    | .string s => some s
    | _ => none
  flag?
    | .bool b => some b
    | _ => none
  natural?
    | .int n => if 0 ≤ n then some n.toNat else none
    | _ => none
  isNull? j := some (j == .null)
  items?
    | .array items => some items
    | _ => none
  entries?
    | .object fields => some fields
    | _ => none
  fields? := recordFields?
  value? := some
  extra? := some

/-- Fields as they are written. What is empty is left out. -/
abbrev Fields := List (String × Json)

def textField (name : String) (s : String) : Fields := if s.isEmpty then [] else [(name, .string s)]

def listField {α : Type} (name : String) (f : α → Json) (xs : List α) : Fields :=
  if xs.isEmpty then [] else [(name, .array (xs.map f))]

def dictField {α : Type} (name : String) (f : α → Json) (d : Dict α) : Fields :=
  if d.isEmpty then [] else [(name, ofDict f d)]

def optionField {α : Type} (name : String) (f : α → Json) : Option α → Fields
  | none => []
  | some a => [(name, f a)]

end Json
end PromptAssembly
