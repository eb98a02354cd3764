import PromptAssembly.Files
import PromptAssembly.Json.Reader
import PromptAssembly.Settings.Tree
import PromptAssembly.Text
import PromptAssembly.Toml.Reader
import PromptAssembly.Yaml.Node

/-!
# Formats of settings files

A settings file is TOML, JSON, YAML, INI, RON or JSON5, as the extension of its name says, and holds a
table. Whole numbers have 64 bits with sign; greater ones in JSON become floating point numbers. How
the last three formats are read is left open, and so is whatever follows the order of a hash map
(`Reader`).
-/
namespace PromptAssembly.Settings
open Files (Path)
open Text (isInt64)

inductive Format where
  | toml
  | json
  | yaml
  | ini
  | ron
  | json5
  deriving DecidableEq, Repr

def Format.ofExtension? : String → Option Format
  | "toml" => some .toml
  | "json" => some .json
  | "yaml" | "yml" => some .yaml
  | "ini" => some .ini
  | "ron" => some .ron
  | "json5" => some .json5
  | _ => none

def extensions : List String := ["toml", "json", "yaml", "yml", "ini", "ron", "json5"]

inductive Source where
  | globalFile
  | explicitFile
  | environment
  deriving DecidableEq, Repr

/-- A table with its entries, and those of the tables in it, in another order. -/
inductive Rearranged : Table → Table → Prop where
  | order {t u : Table} : t.Perm u → Rearranged t u
  | inside {entries entries' : Table} (before : Table) (name : String) (after : Table) :
    Rearranged entries entries' →
    Rearranged (before ++ (name, .object entries) :: after)
      (before ++ (name, .object entries') :: after)
  | trans {t u v : Table} : Rearranged t u → Rearranged u v → Rearranged t v

/-- What the reading of settings leaves open. -/
structure Reader where
  /-- How texts of formats that are not read here are read. -/
  parseOther? : Format → String → Option Table := fun _ _ => none
  /-- The extensions, in the order in which they are tried. -/
  tried : List String := extensions
  all_tried : tried.Perm extensions := by exact List.Perm.refl _
  /-- The order in which the entries of a source are laid over others. -/
  arrange : Source → Table → Table := fun _ t => t
  rearranged : ∀ s t, Rearranged t (arrange s t) := by exact fun _ _ => .order (List.Perm.refl _)

mutual

def narrow : Json → Json
  | .int n => if isInt64 n then .int n else .float (.ofInt n)
  | .array items => .array (narrowItems items)
  | .object fields => .object (narrowFields fields)
  | j => j

def narrowItems : List Json → List Json
  | [] => []
  | j :: js => narrow j :: narrowItems js

def narrowFields : List (String × Json) → List (String × Json)
  | [] => []
  | (k, j) :: fs => (k, narrow j) :: narrowFields fs

end

/-- What a plain scalar of a YAML file stands for. -/
def ofPlain (s : String) : Json :=
  let int? : Option Int :=
    match s.toList with
    | '0' :: 'x' :: ds => (Text.digits? 16 ds).map fun n => (n : Int)
    | '0' :: 'o' :: ds => (Text.digits? 8 ds).map fun n => (n : Int)
    | ds => Text.integer? ds
  if ["", "~", "null"].contains s then .null
  else if s = "true" then .bool true
  else if s = "false" then .bool false
  else match int?.filter isInt64 with
  | some n => .int n
  | none =>
    match Text.decimal? s.toList with
    | some x => .float x
    | none => .string s

mutual

def ofYaml? : Yaml.Node → Option Json
  | .scalar none .plain s => some (ofPlain s)
  | .scalar _ _ s => some (.string s)
  | .sequence _ items => (itemsOfYaml? items).map .array
  | .mapping _ entries => (entriesOfYaml? entries).map fun es => .object (Dict.ofList es).entries
  | .alias _ => none

def itemsOfYaml? : List Yaml.Node → Option (List Json)
  | [] => some []
  | n :: ns => do return (← ofYaml? n) :: (← itemsOfYaml? ns)

def entriesOfYaml? : List (Yaml.Node × Yaml.Node) → Option (List (String × Json))
  | [] => some []
  | (k, v) :: es => do
    let key ← match k with
      | .scalar _ _ s => some s
      | _ => none
    return (key, ← ofYaml? v) :: (← entriesOfYaml? es)

end

/-- A byte order mark in front of a text does not belong to it. -/
def withoutMark (s : String) : String :=
  match s.toList with
  | '\uFEFF' :: rest => String.ofList rest
  | _ => s

def textOf? (f : Files) (p : Path) : Option String :=
  match f.find p with
  | .ok (.file content) => some (withoutMark (Text.lossy content))
  | _ => none

namespace Reader

def parse? (r : Reader) (format : Format) (text : String) : Option Table := do
  let table? : Json → Option Table
    | .object entries => some entries
    | _ => none
  match format with
  | .toml => Toml.parse? text
  | .json => table? (narrow (← Json.parse? text))
  | .yaml =>
    match ← Yaml.Node.parse? text with
    | .scalar none .plain "" => return []
    | node => table? (← ofYaml? node)
  | _ => r.parseOther? format text

/-- The file that a name means: itself, or else itself with an extension added. -/
def locate? (r : Reader) (f : Files) (p : Path) : Option Path :=
  (p :: r.tried.map fun ext => s!"{p}.{ext}").find? f.isFile

def readTable? (r : Reader) (f : Files) (p : Path) : Option Table := do
  let format ← Format.ofExtension? (← p.extension?)
  r.parse? format (← textOf? f p)

end Reader
end PromptAssembly.Settings
