import PromptAssembly.Document
import PromptAssembly.Prompt.Config

/-!
# Reading prompt configurations

From any document format. Fields that are not known are skipped, except beside the media settings,
where they are kept as they are.
-/
namespace PromptAssembly.Prompt
open Document FreeDocument
variable {σ : Type} [FreeDocument σ]

def texts? : σ → Option (List String) := list? text?

def Variable.read? (s : σ) : Option Variable := do
  let fields ←
    fields? ["name", "type", "required", "default", "description", "example", "enum"] s
  return {
    name := ← needed? fields "name" text?
    kind := ← field? fields "type" "" text?
    required := ← field? fields "required" false flag?
    default := ← field? fields "default" none (optional? text?)
    description := ← field? fields "description" none (optional? text?)
    sample := ← field? fields "example" none (optional? text?)
    allowedValues := ← field? fields "enum" [] texts? }

def FragmentRef.read? (s : σ) : Option FragmentRef := do
  let fields ← fields? ["name", "path", "required"] s
  return {
    name := ← needed? fields "name" text?
    path := ← field? fields "path" none (optional? text?)
    required := ← field? fields "required" false flag? }

def Fragment.read? (s : σ) : Option Fragment := do
  let fields ← fields? ["fragment_type", "version", "description", "content", "source_file"] s
  return {
    kind := ← field? fields "fragment_type" "" text?
    version := ← field? fields "version" "" text?
    description := ← field? fields "description" "" text?
    content := ← field? fields "content" "" text?
    sourceFile := ← field? fields "source_file" none (optional? text?) }

def ModelOverride.read? (s : σ) : Option ModelOverride := do
  let fields ← fields? ["system_template", "system_template_suffix"] s
  return {
    template := ← field? fields "system_template" "" text?
    suffix := ← field? fields "system_template_suffix" "" text? }

def EngineInfo.read? (s : σ) : Option EngineInfo := do
  let fields ← fields? ["version", "syntax", "features"] s
  return {
    version := ← needed? fields "version" text?
    style := ← needed? fields "syntax" text?
    features := ← field? fields "features" [] texts? }

def Validator.read? (s : σ) : Option Validator := do
  let fields ← fields? ["type", "params", "enabled", "fail_on_violation"] s
  return {
    kind := ← needed? fields "type" text?
    params := ← field? fields "params" Dict.empty (dict? value?)
    enabled := ← field? fields "enabled" none (optional? flag?)
    failOnViolation := ← field? fields "fail_on_violation" none (optional? flag?) }

def Media.fieldNames : List String := ["enabled", "supported_types"]

/-- A setting given twice is an error, an extra given twice is not. -/
def Media.read? (s : σ) : Option Media := do
  let entries ← entries? s
  if Media.fieldNames.any fun name => 1 < entries.countP (·.1 = name) then none
  let extras := entries.filter (·.1 ∉ Media.fieldNames)
  return {
    enabled := ← field? entries "enabled" false flag?
    supportedTypes := ← field? entries "supported_types" [] texts?
    extras := Dict.ofList (← extras.mapM fun e => return (e.1, ← extra? e.2)) }

def Config.fieldNames : List String :=
  ["task_type", "version", "description", "system_template", "required_vars", "optional_vars",
   "variables", "fragments", "model_overrides", "template_engine", "allowed_tools", "validators",
   "media"]

def Config.read? (s : σ) : Option Config := do
  let fields ← fields? Config.fieldNames s
  return {
    taskType := ← field? fields "task_type" "" text?
    version := ← field? fields "version" "" text?
    description := ← field? fields "description" "" text?
    template := ← field? fields "system_template" "" text?
    requiredVars := ← field? fields "required_vars" [] texts?
    optionalVars := ← field? fields "optional_vars" Dict.empty (dict? text?)
    declaredVars := ← field? fields "variables" [] (list? Variable.read?)
    fragments := ← field? fields "fragments" [] (list? FragmentRef.read?)
    modelOverrides := ← field? fields "model_overrides" Dict.empty (dict? ModelOverride.read?)
    engine := ← field? fields "template_engine" none (optional? EngineInfo.read?)
    allowedTools := ← field? fields "allowed_tools" [] texts?
    validators := ← field? fields "validators" [] (list? Validator.read?)
    media := ← field? fields "media" none (optional? Media.read?) }

end PromptAssembly.Prompt
