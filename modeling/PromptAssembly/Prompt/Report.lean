import PromptAssembly.Prompt.Config
import PromptAssembly.Template.Placeholder
import PromptAssembly.Text

/-!
# Validation reports

A report lists checks with their outcome, an error for every defect found, and warnings, which do
not count against a configuration.
-/
namespace PromptAssembly.Prompt

structure Report where
  taskType : String
  checks : List (String × Bool) := []
  errors : List String := []
  warnings : List String := []
  deriving DecidableEq, Repr

namespace Report

def addCheck (r : Report) (description : String) (passed : Bool) : Report :=
  { r with checks := r.checks ++ [(description, passed)] }

def addError (r : Report) (e : String) : Report := { r with errors := r.errors ++ [e] }

def addWarning (r : Report) (w : String) : Report := { r with warnings := r.warnings ++ [w] }

def totalChecks (r : Report) : Nat := r.checks.length

def passedChecks (r : Report) : Nat := r.checks.countP (·.2)

def isValid (r : Report) : Bool := r.errors.isEmpty && r.checks.all (·.2)

/-- A check that passes if there are no defects. -/
def check (r : Report) (description : String) (defects : List String) : Report :=
  { r with checks := r.checks ++ [(description, defects.isEmpty)], errors := r.errors ++ defects }

end Report

namespace Config

/-- Positions of the fragment references whose name is blank. -/
def unnamedFragments (c : Config) : List Nat :=
  (c.fragments.zipIdx.filter fun e => Text.allBlank e.1.name).map (·.2)

def emptyOverrides (c : Config) : List String :=
  (c.modelOverrides.entries.filter fun e => e.2.isEmpty).map (·.1)

def doublyDeclared (c : Config) : List String := c.requiredVars.filter c.optionalVars.contains

def knownNames (c : Config) : List String :=
  c.requiredVars ++ c.optionalVars.keys ++ c.declaredVars.map (·.name) ++ c.fragments.map (·.name)

def undeclaredPlaceholders (c : Config) : List String :=
  (Template.findPlaceholders c.template).filter (· ∉ c.knownNames)

def warnings (c : Config) : List String :=
  c.doublyDeclared.map (s!"Variable '{·}' is declared both required and optional") ++
  c.undeclaredPlaceholders.map fun name =>
    s!"Placeholder '\x7b\x7b{name}\x7d\x7d' is not a declared variable or fragment"

def report (c : Config) : Report :=
  let start : Report := { taskType := c.taskType, warnings := c.warnings }
  start
    |>.check "Task type is set" (if c.taskType.isEmpty then ["task_type is empty"] else [])
    |>.check "System template is not empty"
      (if Text.allBlank c.template then ["system_template is empty"] else [])
    |>.check "All fragment references are named"
      (c.unnamedFragments.map (s!"Fragment reference #{·} has no name"))
    |>.check "Model overrides are non-empty"
      (c.emptyOverrides.map
        (s!"Model override '{·}' sets neither system_template nor system_template_suffix"))

end Config
end PromptAssembly.Prompt
