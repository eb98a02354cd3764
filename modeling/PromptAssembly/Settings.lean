import PromptAssembly.Document
import PromptAssembly.Files.Path
import PromptAssembly.Settings.Format
import PromptAssembly.Settings.Locations
import PromptAssembly.Settings.Value
import PromptAssembly.Template.Renderer

/-!
# Settings

Where prompts are kept, how they are rendered and what is logged. Settings are laid over each other
in the order built-in values, the user's global file, a file asked for, and the environment; each
setting comes from the last of these that has it.
-/
namespace PromptAssembly
open Document
open Files (Path)
open Template (Renderer)

structure Logging where
  enabled : Bool := true
  level : String := "warn"
  format : String := "text"
  output : String := "stderr"
  file : Option Files.Path := none
  color : Bool := true
  /-- Levels of single modules. -/
  modules : Dict String := Dict.empty
  deriving DecidableEq, Repr

namespace Logging

def read? {σ : Type} [Document σ] (s : σ) : Option Logging := do
  let fields ← fields? ["enabled", "level", "format", "output", "file", "color", "modules"] s
  let default : Logging := {}
  return {
    enabled := ← field? fields "enabled" default.enabled flag?
    level := ← field? fields "level" default.level text?
    format := ← field? fields "format" default.format text?
    output := ← field? fields "output" default.output text?
    file := ← field? fields "file" default.file (optional? text?)
    color := ← field? fields "color" default.color flag?
    modules := ← field? fields "modules" default.modules (dict? text?) }

def toJson (l : Logging) : Json := .object
  [("enabled", .bool l.enabled), ("level", .string l.level), ("format", .string l.format),
   ("output", .string l.output), ("file", Json.ofOption .string l.file), ("color", .bool l.color),
   ("modules", Json.ofDict .string l.modules)]

end Logging
structure RepositorySettings where
  promptsDir : Option Path := none
  fragmentsDir : Option Path := none
  /-- The manifests of task types, below the directory of prompts. -/
  mappings : Dict String := Dict.empty
  deriving DecidableEq, Repr

namespace RepositorySettings

def read? {σ : Type} [Document σ] (s : σ) : Option RepositorySettings := do
  let fields ← fields? ["prompts_dir", "fragments_dir", "mappings"] s
  return {
    promptsDir := ← field? fields "prompts_dir" none (optional? text?)
    fragmentsDir := ← field? fields "fragments_dir" none (optional? text?)
    mappings := ← field? fields "mappings" Dict.empty (dict? text?) }

def toJson (r : RepositorySettings) : Json := .object
  [("prompts_dir", Json.ofOption .string r.promptsDir),
   ("fragments_dir", Json.ofOption .string r.fragmentsDir),
   ("mappings", Json.ofDict .string r.mappings)]

end RepositorySettings

structure RenderSettings where
  maxDepth : Nat := 64
  strict : Bool := false
  deriving DecidableEq, Repr

namespace RenderSettings

def read? {σ : Type} [Document σ] (s : σ) : Option RenderSettings := do
  let fields ← fields? ["max_depth", "strict"] s
  let default : RenderSettings := {}
  return {
    maxDepth := ← field? fields "max_depth" default.maxDepth natural?
    strict := ← field? fields "strict" default.strict flag? }

def toJson (r : RenderSettings) : Json := .object
  [("max_depth", .int r.maxDepth), ("strict", .bool r.strict)]

def renderer (r : RenderSettings) : Renderer :=
  (Renderer.withMaxDepth {} r.maxDepth).withStrict r.strict

end RenderSettings

structure Settings where
  repository : RepositorySettings := {}
  render : RenderSettings := {}
  logging : Logging := {}
  deriving DecidableEq, Repr

namespace Settings

def read? {σ : Type} [Document σ] (s : σ) : Option Settings := do
  let fields ← fields? ["repository", "render", "logging"] s
  return {
    repository := ← field? fields "repository" {} RepositorySettings.read?
    render := ← field? fields "render" {} RenderSettings.read?
    logging := ← field? fields "logging" {} Logging.read? }

def toJson (s : Settings) : Json := .object
  [("repository", s.repository.toJson), ("render", s.render.toJson),
   ("logging", s.logging.toJson)]

/-- The tree below all sources. -/
def builtIn : Json :=
  overlay (.object [])
    [("render.max_depth", .int ({} : RenderSettings).maxDepth), ("render.strict", .bool false)]

/-- Two underscores in a row stand for a point. -/
def dotted : List Char → List Char
  | '_' :: '_' :: cs => '.' :: dotted cs
  | c :: cs => c :: dotted cs
  | [] => []

/-- The setting that a variable of an environment stands for: `PROMPTLOOM__RENDER__STRICT` in any
case is `render.strict`. -/
def settingName? (name : String) : Option String :=
  ((Text.lower name).dropPrefix? "promptloom__").map fun key =>
    String.ofList (dotted key.copy.toList)

def ofEnvironment (vars : Dict String) : Table :=
  vars.entries.filterMap fun (name, value) => (settingName? name).map (·, Value.ofText value)

/-- The table of the global file. A missing file has no settings. -/
def globalTable (r : Reader) (e : Environment) (f : Files) : Except Error Table :=
  match e.globalConfigFile with
  | .error _ => .ok []
  | .ok p =>
    match r.locate? f p with
    | none => .ok []
    | some p =>
      match textOf? f p, r.readTable? f p with
      | none, _ => .ok []
      | some _, some table => .ok table
      | some _, none => .error .unreadable

/-- The table of a file that has to be there. -/
def explicitTable (r : Reader) (f : Files) (p : Path) : Except Error Table :=
  match r.readTable? f p with
  | some table => .ok table
  | none => .error .unreadable

def checkPresent (f : Files) (p : Path) : Except Error Unit :=
  if f.isFile p then .ok () else .error (.fileNotFound p)

/-- What sources, the last of which counts most, come to. -/
def compose (sources : List Table) : Except Error Settings :=
  match read? (Value.mk (sources.foldl overlay builtIn)) with
  | none => .error .unreadable
  | some s => if s.render.maxDepth = 0 then .error .depthTooSmall else .ok s

def load (e : Environment) (f : Files) (explicit : Option Path) (r : Reader := {}) :
    Except Error Settings := do
  explicit.forM (checkPresent f)
  let globals ← globalTable r e f
  let own ← explicit.mapM (explicitTable r f)
  compose [r.arrange .globalFile globals, r.arrange .explicitFile (own.getD []),
    r.arrange .environment (ofEnvironment e.vars)]

/-- The settings without the global file. -/
def loadWithout (vars : Dict String) (f : Files) (explicit : Option Path) (r : Reader := {}) :
    Except Error Settings := do
  explicit.forM (checkPresent f)
  let own ← explicit.mapM (explicitTable r f)
  compose [r.arrange .explicitFile (own.getD []), r.arrange .environment (ofEnvironment vars)]

end Settings
end PromptAssembly
