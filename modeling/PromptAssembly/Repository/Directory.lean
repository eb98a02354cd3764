import PromptAssembly.Files
import PromptAssembly.Prompt.Manifest
import PromptAssembly.Repository

/-!
# Directories of manifests

Configurations are manifests directly below a root directory. A task type is looked up where a mapping
says, else in the file that has its name, else among all manifests by what they declare. Fragments
have a directory of their own, or are found by path. No look-up leaves these directories.

All that is said of a directory here and elsewhere is within the limits of `Files`: permissions hide
nothing, so that listing a root fails neither in part nor as a whole.
-/
namespace PromptAssembly.Repository
open Prompt (Config Fragment)
open Files (Path)

structure Directory where
  root : Path
  fragmentsDir : Path := root.join "fragments"
  mappings : Dict String := Dict.empty
  deriving DecidableEq, Repr

namespace Directory

def extensions : List String := ["yaml", "yml"]

def hasManifestExtension (p : Path) : Bool := p.extension?.any extensions.contains

/-- What a look-up by a text of this kind is confined to. -/
def confine (what : String) (value : Path) : Except Error Unit :=
  if value.isConfined then .ok ()
  else .error (.invalid s!"{what} '{value}' must stay inside the prompts directory")

def readFile (f : Files) (p : Path) : Except Error String :=
  match f.readText p with
  | .ok text => .ok text
  | .error .notFound => .error (.notFound p)
  | .error e => .error (.io e.message)

def readManifest (f : Files) (p : Path) : Except Error Config := do
  match Config.parse (← readFile f p) with
  | .ok c => return c
  | .error e => throw (.invalid s!"{p}: {e.message}")

/-- The manifests below the root, by file name. A link is none, wherever it leads. -/
def manifestFiles (d : Directory) (f : Files) : List Path :=
  (f.list d.root).filterMap fun (name, e) =>
    if e.isFile && hasManifestExtension name then some (d.root.join name) else none

/-- The file of the root that has the name of a task type. -/
def named (d : Directory) (taskType ext : String) : Path := d.root.join s!"{taskType}.{ext}"

/-- The first file with the task type's name that declares it. -/
def loadNamed (d : Directory) (f : Files) (taskType : String) :
    List String → Except Error (Option Config)
  | [] => .ok none
  | ext :: exts => do
    let path := d.named taskType ext
    if !f.isFile path then d.loadNamed f taskType exts
    else
      let c ← readManifest f path
      if c.taskType = taskType then return some c
      d.loadNamed f taskType exts

def readable (d : Directory) (f : Files) : List Config :=
  (d.manifestFiles f).filterMap fun p => (readManifest f p).toOption

def loadPrompt (d : Directory) (taskType : String) (f : Files) : Except Error Config :=
  match d.mappings.get? taskType with
  | some file => readManifest f (d.root.join file)
  | none => do
    confine "task type" taskType
    match ← d.loadNamed f taskType extensions with
    | some c => return c
    | none =>
      match (d.readable f).find? fun c => c.taskType = taskType with
      | some c => return c
      | none => throw (.notFound s!"prompt '{taskType}' in {d.root}")

def fragmentPath (d : Directory) (name : String) (path : Option String) (base : Option Path)
    (f : Files) : Except Error Path := do
  match path.filter fun p => !p.isEmpty with
  | some p =>
    confine "fragment path" p
    return (base.getD d.root).join p
  | none =>
    confine "fragment name" name
    let candidates := extensions.map fun ext => d.fragmentsDir.join s!"{name}.{ext}"
    return (candidates.find? f.contains).getD (d.fragmentsDir.join s!"{name}.yaml")

/-- A file without a manifest's extension is a fragment's bare text. -/
def loadFragment (d : Directory) (name : String) (path : Option String) (base : Option Path)
    (f : Files) : Except Error Fragment := do
  let p ← d.fragmentPath name path base f
  let text ← readFile f p
  let fragment ←
    if hasManifestExtension p then
      match (Yaml.Node.parse? text).bind Fragment.read? with
      | some fragment => pure fragment
      | none => throw (.invalid s!"Failed to parse fragment {p}")
    else pure { content := text }
  return { fragment with sourceFile := some p }

/-- The task types with a mapping, or else those that manifests declare. -/
def listPrompts (d : Directory) (f : Files) : List String :=
  if !d.mappings.isEmpty then d.mappings.keys
  else (Dict.ofList ((d.readable f).map fun c => (c.taskType, ()))).keys

def pathFor (d : Directory) (taskType : String) : Except Error Path := do
  confine "task type" taskType
  return d.named taskType "yaml"

/-- The root is made first, whatever becomes of the rest, and a file that is there is emptied before
it is written. -/
def savePrompt (d : Directory) (c : Config) (f : Files) : Except Error Unit × Files :=
  if c.taskType.isEmpty then (.error (.invalid "task_type cannot be empty"), f) else
  match f.createAll d.root with
  | (.error e, f) =>
    (.error (.storage s!"Failed to create prompts directory {d.root}: {e.message}"), f)
  | (.ok (), f) =>
    match d.pathFor c.taskType with
    | .error e => (.error e, f)
    | .ok path =>
      match f.overwrite path c.print.toUTF8 with
      | (.ok (), f) => (.ok (), f)
      | (.error e, f) =>
        (.error (.storage s!"Failed to write prompt config to {path}: {e.message}"), f)

def repository (d : Directory) : Repository Files where
  loadPrompt taskType := reading (d.loadPrompt taskType)
  loadFragment name path base := reading (d.loadFragment name path base)
  listPrompts := reading fun f => .ok (d.listPrompts f)
  savePrompt c := changing (d.savePrompt c)

end Directory
end PromptAssembly.Repository
