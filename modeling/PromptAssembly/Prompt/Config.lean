import PromptAssembly.Json

/-!
# Prompt configurations

What is stored for one task type: the system template, the variables and fragments it draws on, the
changes that single models ask for, and metadata that is passed through to the assembled prompt.
-/
namespace PromptAssembly.Prompt

structure Variable where
  name : String
  kind : String := ""
  required : Bool := false
  default : Option String := none
  description : Option String := none
  sample : Option String := none
  allowedValues : List String := []
  deriving DecidableEq, Repr

/-- A fragment that a template draws on, by name or by path; both may hold placeholders. -/
structure FragmentRef where
  name : String
  path : Option String := none
  required : Bool := false
  deriving DecidableEq, Repr

structure Fragment where
  kind : String := ""
  version : String := ""
  description : String := ""
  content : String := ""
  sourceFile : Option String := none
  deriving DecidableEq, Repr, Inhabited

/-- For one model: a template to use instead, and a text to put behind the template. -/
structure ModelOverride where
  template : String := ""
  suffix : String := ""
  deriving DecidableEq, Repr

def ModelOverride.isEmpty (o : ModelOverride) : Bool := o.template.isEmpty && o.suffix.isEmpty

structure EngineInfo where
  version : String
  style : String
  features : List String := []
  deriving DecidableEq, Repr

structure Validator where
  kind : String
  params : Dict Json := Dict.empty
  enabled : Option Bool := none
  failOnViolation : Option Bool := none
  deriving DecidableEq, Repr

structure Media where
  enabled : Bool := false
  supportedTypes : List String := []
  extras : Dict Json := Dict.empty
  deriving DecidableEq, Repr

structure Config where
  taskType : String := ""
  version : String := ""
  description : String := ""
  template : String := ""
  requiredVars : List String := []
  optionalVars : Dict String := Dict.empty
  declaredVars : List Variable := []
  fragments : List FragmentRef := []
  modelOverrides : Dict ModelOverride := Dict.empty
  engine : Option EngineInfo := none
  allowedTools : List String := []
  validators : List Validator := []
  media : Option Media := none
  deriving DecidableEq, Repr, Inhabited

namespace Config

def requireVar (c : Config) (name : String) : Config :=
  { c with requiredVars := c.requiredVars ++ [name] }

def offerVar (c : Config) (name default : String) : Config :=
  { c with optionalVars := c.optionalVars.insert name default }

def addFragment (c : Config) (f : FragmentRef) : Config :=
  { c with fragments := c.fragments ++ [f] }

def overrideModel (c : Config) (model : String) (o : ModelOverride) : Config :=
  { c with modelOverrides := c.modelOverrides.insert model o }

def allowTool (c : Config) (tool : String) : Config :=
  { c with allowedTools := c.allowedTools ++ [tool] }

def addValidator (c : Config) (v : Validator) : Config :=
  { c with validators := c.validators ++ [v] }

/-- The template for a model. The empty name stands for no particular model. -/
def templateFor (c : Config) (model : String) : String :=
  match if model.isEmpty then none else c.modelOverrides.get? model with
  | none => c.template
  | some o => (if o.template.isEmpty then c.template else o.template) ++ o.suffix

end Config
end PromptAssembly.Prompt
