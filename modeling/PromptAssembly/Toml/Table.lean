import PromptAssembly.Json

/-!
# Tables

What the statements of a document build up. A table is opened once by a header; before that headers
of its subtables may imply it, and the keys of an entry may lead through tables that such keys alone
have made. Values are closed: nothing is added to an array or an inline table.
-/
namespace PromptAssembly.Toml

/-- A dotted key: the tables it leads through, and a name in the last of them. -/
structure Key where
  tables : List String
  name : String
  deriving DecidableEq, Repr

inductive Origin where
  | header
  /-- Implied by the header of a subtable. -/
  | implied
  /-- Made by the keys of an entry. -/
  | dotted
  deriving DecidableEq, Repr

inductive Item where
  | value (j : Json)
  | table (origin : Origin) (entries : List (String × Item))
  /-- An array of tables, to the last of which entries are added. -/
  | tables (earlier : List (List (String × Item))) (last : List (String × Item))
  deriving Repr

abbrev Entries := List (String × Item)

def Entries.put (key : String) (item : Item) : Entries → Entries
  | [] => [(key, item)]
  | e :: es => if e.1 = key then (key, item) :: es else e :: Entries.put key item es

/-- Changes the table at the end of a path; missing tables are made. `change` gets to know what the
table comes from. -/
def Entries.within (missing : Origin) (change : Origin → Entries → Option Entries) :
    List String → Origin → Entries → Option Entries
  | [], origin, es => change origin es
  | key :: path, _, es =>
    match es.lookup key with
    | none => do
      let inner ← Entries.within missing change path missing []
      return es.put key (.table missing inner)
    | some (.table origin inner) =>
      if missing = .dotted && origin = .header then none
      else do return es.put key (.table origin (← Entries.within missing change path origin inner))
    | some (.tables earlier last) => do
      return es.put key (.tables earlier (← Entries.within missing change path .header last))
    | some (.value _) => none

/-- Adds an entry. A dotted key has to end in a table that dotted keys have made. -/
def Entries.add (key : Key) (j : Json) : Entries → Option Entries :=
  Entries.within .dotted (fun origin es =>
    if (origin == .dotted) != key.tables.isEmpty && (es.lookup key.name).isNone then
      some (es.put key.name (.value j))
    else none) key.tables .header

/-- Opens a table by its header. -/
def Entries.openTable (key : Key) : Entries → Option Entries :=
  Entries.within .implied (fun _ es =>
    match es.lookup key.name with
    | none => some (es.put key.name (.table .header []))
    | some (.table .implied inner) => some (es.put key.name (.table .header inner))
    | _ => none) key.tables .header

/-- Opens the next table of an array of tables. -/
def Entries.openElement (key : Key) : Entries → Option Entries :=
  Entries.within .implied (fun _ es =>
    match es.lookup key.name with
    | none => some (es.put key.name (.tables [] []))
    | some (.tables earlier last) => some (es.put key.name (.tables (earlier ++ [last]) []))
    | _ => none) key.tables .header

mutual

def Item.toJson : Item → Json
  | .value j => j
  | .table _ entries => .object (fieldsJson entries)
  | .tables earlier last => .array (tablesJson earlier ++ [.object (fieldsJson last)])

def fieldsJson : List (String × Item) → List (String × Json)
  | [] => []
  | (key, item) :: es => (key, item.toJson) :: fieldsJson es

def tablesJson : List (List (String × Item)) → List Json
  | [] => []
  | t :: ts => .object (fieldsJson t) :: tablesJson ts

end

inductive Statement where
  | table (key : Key)
  | element (key : Key)
  | entry (key : Key) (value : Json)
  deriving Repr

/-- A document as far as it is read, and the path of the table that entries go to. -/
structure Draft where
  entries : Entries := []
  path : List String := []
  deriving Repr

def Draft.apply (d : Draft) : Statement → Option Draft
  | .table key => do return { entries := ← d.entries.openTable key, path := key.tables ++ [key.name] }
  | .element key => do
    return { entries := ← d.entries.openElement key, path := key.tables ++ [key.name] }
  | .entry key value => do
    let add (_ : Origin) (es : Entries) : Option Entries := es.add key value
    return { d with entries := ← d.entries.within .implied add d.path .header }

def fieldsOf? (statements : List Statement) : Option (List (String × Json)) := do
  return fieldsJson (← statements.foldlM Draft.apply {}).entries

end PromptAssembly.Toml
