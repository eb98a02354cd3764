import PromptAssembly.Prompt.Assembled
import PromptAssembly.Prompt.Report
import PromptAssembly.Text.Grid

/-!
# What commands print
-/
namespace PromptAssembly.CommandLine
open Prompt (Info Report)

def orDash (s : String) : String := if s.isEmpty then "-" else s

def listed : List String → String
  | [] => "-"
  | items => ", ".intercalate items

def infoText (i : Info) : String :=
  Text.drawGrid ["Field", "Value"]
    [["Task type", i.taskType],
     ["Version", orDash i.version],
     ["Description", orDash i.description],
     ["Fragments", toString i.fragmentCount],
     ["Required vars", listed i.requiredVars],
     ["Optional vars", listed i.optionalVars],
     ["Allowed tools", listed i.allowedTools],
     ["Model overrides", listed i.modelOverrides]]

/-- Checks and errors of a report, if something is wrong. -/
def findings (r : Report) : List String :=
  if r.isValid then ["All validation checks passed"]
  else
    r.checks.map (fun (description, passed) =>
      (if passed then "[ok] " else "[FAIL] ") ++ description) ++
    (if r.errors.isEmpty then [] else "" :: r.errors.map ("error: " ++ ·))

def verdict (r : Report) (verbose : Bool) : List String :=
  let score := s!"{r.passedChecks}/{r.totalChecks} checks"
  if verbose then
    r.warnings.map ("warning: " ++ ·) ++ ["", s!"Validation summary: {score} passed"]
  else if r.isValid then [s!"Validation passed: {score}"]
  else [s!"Validation failed: {r.errors.length} error(s) found"]

/-- A report, every line of it ended. Warnings are for the verbose. -/
def reportText (r : Report) (verbose : Bool) : String :=
  let lines := [s!"Validating prompt: {r.taskType}", ""] ++ findings r ++ verdict r verbose
  String.join (lines.map (· ++ "\n"))

def tasksJson (tasks : List String) : Json := .object [("task_types", Json.strings tasks)]

def tasksText : List String → String
  | [] => "No prompts found."
  | tasks => "\n".intercalate tasks

end PromptAssembly.CommandLine
