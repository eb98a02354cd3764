import PromptAssembly.Digest.Sha256
import PromptAssembly.Json.Printer
import PromptAssembly.Prompt.Printer
import PromptAssembly.Prompt.Reader

/-!
# Assembled prompts

The rendered system prompt of a task type with the metadata that travels along and the digest of
its text; and the summary of a configuration.
-/
namespace PromptAssembly.Prompt
open Document Json

def hex (bytes : List UInt8) : String :=
  String.ofList (bytes.flatMap fun b => [hexDigit (b.toNat / 16), hexDigit (b.toNat % 16)])

/-- SHA-256 of a text's UTF-8 form. -/
def contentHash (text : String) : String := hex (Sha256.digest text.toUTF8.toList)

structure Assembled where
  taskType : String
  text : String
  allowedTools : List String := []
  validators : List Validator := []
  contentHash : String
  deriving DecidableEq, Repr

namespace Assembled

def ofConfig (c : Config) (text : String) : Assembled :=
  { taskType := c.taskType, text, allowedTools := c.allowedTools, validators := c.validators
    contentHash := Prompt.contentHash text }

def usesTools (a : Assembled) : Bool := !a.allowedTools.isEmpty

/-- The first eight bytes of the digest's text, or all of it if no character ends there. -/
def shortHash (a : Assembled) : String :=
  match (List.range 9).find? fun n => (a.contentHash.take n).copy.utf8ByteSize == 8 with
  | some n => (a.contentHash.take n).copy
  | none => a.contentHash

def toJson (a : Assembled) : Json := .object <|
  [("task_type", .string a.taskType), ("system_prompt", .string a.text)] ++
  listField "allowed_tools" .string a.allowedTools ++
  listField "validators" Validator.toJson a.validators ++
  [("content_hash", .string a.contentHash)]

def read? {σ : Type} [FreeDocument σ] (s : σ) : Option Assembled := do
  let fields ←
    fields? ["task_type", "system_prompt", "allowed_tools", "validators", "content_hash"] s
  return {
    taskType := ← needed? fields "task_type" text?
    text := ← needed? fields "system_prompt" text?
    allowedTools := ← field? fields "allowed_tools" [] texts?
    validators := ← field? fields "validators" [] (list? Validator.read?)
    contentHash := ← needed? fields "content_hash" text? }

end Assembled

structure Info where
  taskType : String
  version : String
  description : String
  fragmentCount : Nat
  requiredVars : List String
  optionalVars : List String
  allowedTools : List String
  modelOverrides : List String
  deriving DecidableEq, Repr

namespace Info

def ofConfig (c : Config) : Info where
  taskType := c.taskType
  version := c.version
  description := c.description
  fragmentCount := c.fragments.length
  requiredVars := c.requiredVars
  optionalVars := c.optionalVars.keys
  allowedTools := c.allowedTools
  modelOverrides := c.modelOverrides.keys

def toJson (i : Info) : Json := .object
  [("task_type", .string i.taskType), ("version", .string i.version),
   ("description", .string i.description), ("fragment_count", .int i.fragmentCount),
   ("required_vars", strings i.requiredVars), ("optional_vars", strings i.optionalVars),
   ("tool_allowlist", strings i.allowedTools), ("model_overrides", strings i.modelOverrides)]

def read? {σ : Type} [FreeDocument σ] (s : σ) : Option Info := do
  let fields ←
    fields? ["task_type", "version", "description", "fragment_count", "required_vars",
      "optional_vars", "tool_allowlist", "model_overrides"] s
  return {
    taskType := ← needed? fields "task_type" text?
    version := ← needed? fields "version" text?
    description := ← needed? fields "description" text?
    fragmentCount := ← needed? fields "fragment_count" natural?
    requiredVars := ← needed? fields "required_vars" texts?
    optionalVars := ← needed? fields "optional_vars" texts?
    allowedTools := ← needed? fields "tool_allowlist" texts?
    modelOverrides := ← needed? fields "model_overrides" texts? }

end Info
end PromptAssembly.Prompt
