import PromptAssembly.Prompt.Printer
import PromptAssembly.Prompt.Reader
import PromptAssembly.Yaml.Printer
import PromptAssembly.Yaml.Reader

/-!
# Manifests

The document in which a prompt configuration is stored: a header that says what it is, and the
configuration as its `spec`. Reading checks the header, writing provides it.
-/
namespace PromptAssembly.Prompt
open Document Json

structure Manifest where
  apiVersion : String := ""
  kind : String := ""
  name : String := ""
  labels : Dict String := Dict.empty
  spec : Config := {}
  deriving DecidableEq, Repr

inductive ManifestError where
  | unreadable
  | missingField (path : String)
  | wrongKind (found : String)
  deriving DecidableEq, Repr

namespace Manifest

def standardKind : String := "PromptConfig"
def standardVersion : String := "promptloom.dev/v1"

end Manifest

def ManifestError.message : ManifestError → String
  | .unreadable => "Failed to parse YAML"
  | .missingField path => s!"Missing required field: {path}"
  | .wrongKind found => s!"Invalid kind: expected '{Manifest.standardKind}', got '{found}'"

namespace Manifest

def toJson (m : Manifest) : Json := .object
  [("apiVersion", .string m.apiVersion), ("kind", .string m.kind),
   ("metadata", .object ([("name", .string m.name)] ++ dictField "labels" .string m.labels)),
   ("spec", m.spec.toJson)]

def readMetadata? {σ : Type} [Document σ] (s : σ) : Option (String × Dict String) := do
  let fields ← fields? ["name", "labels"] s
  return (← field? fields "name" "" text?, ← field? fields "labels" Dict.empty (dict? text?))

def read? {σ : Type} [FreeDocument σ] (s : σ) : Option Manifest := do
  let fields ← fields? ["apiVersion", "kind", "metadata", "spec"] s
  let (name, labels) ← field? fields "metadata" ("", Dict.empty) readMetadata?
  return {
    apiVersion := ← field? fields "apiVersion" "" text?
    kind := ← field? fields "kind" "" text?
    name
    labels
    spec := ← field? fields "spec" {} Config.read? }

/-- The configuration of a manifest whose header is in order. -/
def config (m : Manifest) : Except ManifestError Config :=
  if m.apiVersion.isEmpty then .error (.missingField "apiVersion")
  else if m.kind ≠ standardKind then .error (.wrongKind m.kind)
  else if m.name.isEmpty then .error (.missingField "metadata.name")
  else if m.spec.taskType.isEmpty then .error (.missingField "spec.task_type")
  else .ok m.spec

def ofConfig (c : Config) : Manifest where
  apiVersion := standardVersion
  kind := standardKind
  name := c.taskType
  spec := c

end Manifest

def Config.parse (text : String) : Except ManifestError Config :=
  match (Yaml.Node.parse? text).bind Manifest.read? with
  | some m => m.config
  | none => .error .unreadable

/-- The text of a configuration's manifest. Writing it cannot fail, since no value that a record may
hold is without a form in the document. -/
def Config.print (c : Config) : String := Yaml.print (Manifest.ofConfig c).toJson

end PromptAssembly.Prompt
