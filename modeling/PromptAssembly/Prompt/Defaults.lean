import PromptAssembly.Prompt.Config

/-!
# Default values

A stored configuration may leave out its engine information, the metadata of its variables and the
flags of its validators. All three are filled in before the configuration is used; what is given
stays.
-/
namespace PromptAssembly.Prompt

def EngineInfo.standard : EngineInfo :=
  ⟨"v1", "\x7b\x7bvariable\x7d\x7d", ["basic_substitution"]⟩

/-- Metadata of the required variables in order, then of the optional ones by name. -/
def Config.impliedVariables (c : Config) : List Variable :=
  c.requiredVars.map (fun name => { name, kind := "string", required := true }) ++
  c.optionalVars.entries.map (fun e => { name := e.1, kind := "string", default := some e.2 })

def Validator.withDefaults (v : Validator) : Validator :=
  { v with enabled := some (v.enabled.getD true)
           failOnViolation := some (v.failOnViolation.getD true) }

def Config.withDefaults (c : Config) : Config :=
  { c with
    engine := some (c.engine.getD .standard)
    declaredVars := if c.declaredVars.isEmpty then c.impliedVariables else c.declaredVars
    validators := c.validators.map Validator.withDefaults }

@[simp] theorem Validator.withDefaults_withDefaults (v : Validator) :
    v.withDefaults.withDefaults = v.withDefaults := rfl

@[simp] theorem Config.taskType_withDefaults (c : Config) : c.withDefaults.taskType = c.taskType :=
  rfl

@[simp] theorem Config.withDefaults_withDefaults (c : Config) :
    c.withDefaults.withDefaults = c.withDefaults := by
  have declared : (if c.withDefaults.declaredVars.isEmpty then c.withDefaults.impliedVariables
      else c.withDefaults.declaredVars) = c.withDefaults.declaredVars := by
    by_cases h : c.declaredVars.isEmpty <;> simp [withDefaults, impliedVariables, h]
  have validators : c.withDefaults.validators.map Validator.withDefaults =
      c.withDefaults.validators := by
    simp [withDefaults]
  rw [withDefaults, declared, validators]
  rfl

end PromptAssembly.Prompt
