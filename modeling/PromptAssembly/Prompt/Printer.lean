import PromptAssembly.Document
import PromptAssembly.Prompt.Config

/-!
# Writing prompt configurations

As values with fields in the order of their declaration. Fields that are empty are left out, apart
from the few that every record shows.
-/
namespace PromptAssembly.Prompt
open Json

def Variable.toJson (v : Variable) : Json := .object <|
  [("name", .string v.name)] ++ textField "type" v.kind ++ [("required", .bool v.required)] ++
  optionField "default" .string v.default ++ optionField "description" .string v.description ++
  optionField "example" .string v.sample ++ listField "enum" .string v.allowedValues

def FragmentRef.toJson (f : FragmentRef) : Json := .object <|
  [("name", .string f.name)] ++ optionField "path" .string f.path ++
  [("required", .bool f.required)]

def Fragment.toJson (f : Fragment) : Json := .object <|
  textField "fragment_type" f.kind ++ textField "version" f.version ++
  textField "description" f.description ++ [("content", .string f.content)] ++
  optionField "source_file" .string f.sourceFile

def ModelOverride.toJson (o : ModelOverride) : Json := .object <|
  textField "system_template" o.template ++ textField "system_template_suffix" o.suffix

def EngineInfo.toJson (e : EngineInfo) : Json := .object <|
  [("version", .string e.version), ("syntax", .string e.style)] ++
  listField "features" .string e.features

def Validator.toJson (v : Validator) : Json := .object <|
  [("type", .string v.kind)] ++ dictField "params" id v.params ++
  optionField "enabled" .bool v.enabled ++ optionField "fail_on_violation" .bool v.failOnViolation

def Media.toJson (m : Media) : Json := .object <|
  [("enabled", .bool m.enabled)] ++ listField "supported_types" .string m.supportedTypes ++
  m.extras.entries

def Config.toJson (c : Config) : Json := .object <|
  [("task_type", .string c.taskType)] ++ textField "version" c.version ++
  textField "description" c.description ++ [("system_template", .string c.template)] ++
  listField "required_vars" .string c.requiredVars ++
  dictField "optional_vars" .string c.optionalVars ++
  listField "variables" Variable.toJson c.declaredVars ++
  listField "fragments" FragmentRef.toJson c.fragments ++
  dictField "model_overrides" ModelOverride.toJson c.modelOverrides ++
  optionField "template_engine" EngineInfo.toJson c.engine ++
  listField "allowed_tools" .string c.allowedTools ++
  listField "validators" Validator.toJson c.validators ++
  optionField "media" Media.toJson c.media

end PromptAssembly.Prompt
