import PromptAssembly.CommandLine.Command
import PromptAssembly.CommandLine.Output
import PromptAssembly.Logging.Start
import PromptAssembly.Registry
import PromptAssembly.Repository.Directory
import PromptAssembly.Settings

/-!
# Running commands

A run loads the settings, starts logging, opens the directory of prompts and carries out its command,
and ends at the first of these that fails.
-/
namespace PromptAssembly
open Files (Path)

namespace RepositorySettings

/-- The directory of prompts, by default one among the user's settings. -/
def directory (r : RepositorySettings) (e : Environment) :
    Except Settings.Error Repository.Directory := do
  let root ← match r.promptsDir with
    | some dir => pure dir
    | none => e.promptsDir
  let d : Repository.Directory := { root, mappings := r.mappings }
  match r.fragmentsDir with
  | some fragmentsDir => return { d with fragmentsDir }
  | none => return d

end RepositorySettings

namespace CommandLine

inductive Failure where
  | settings (cause : Settings.Error)
  | assembly (cause : Assembly.Error)
  /-- The format of an answer is neither text nor JSON. -/
  | format (given : String)
  deriving DecidableEq, Repr

def Failure.message : Failure → String
  | .settings cause => s!"Configuration error: {cause.message}"
  | .assembly cause => cause.message
  | .format given => s!"Invalid argument: Invalid format: {given} (must be 'text' or 'json')"

def Invocation.settings (i : Invocation) (e : Environment) (f : Files)
    (r : Settings.Reader := {}) : Except Settings.Error Settings := do
  let s ← Settings.load e f i.config r
  match i.promptsDir with
  | some dir => return { s with repository := { s.repository with promptsDir := some dir } }
  | none => return s

/-- Fragments with a path are found below the directory of prompts. -/
def registryOf (e : Environment) (s : Settings) : Except Settings.Error (Registry Files) := do
  let d ← s.repository.directory e
  return { repository := some d.repository, renderer := s.render.renderer
           fragmentBase := some d.root }

def isJsonFormat (format : String) : Except Failure Bool :=
  if format = "json" then .ok true
  else if format = "text" then .ok false
  else .error (.format format)

def answer {α : Type} (format : String) (run : Run Files (Except Assembly.Error α))
    (json : α → Json) (text : α → String) : Run Files (Except Failure String) := do
  match isJsonFormat format with
  | .error e => return .error e
  | .ok inJson =>
    match ← run with
    | .error e => return .error (.assembly e)
    | .ok a => return .ok (if inJson then (json a).pretty else text a)

def Command.execute (r : Registry Files) : Command → Run Files (Except Failure String)
  | .render taskType bindings model format =>
    answer format (r.assemble taskType (Dict.ofList bindings) model) Prompt.Assembled.toJson
      Prompt.Assembled.text
  | .list format => answer format (.ok <$> r.listTaskTypes) tasksJson tasksText
  | .info taskType format => answer format (r.info taskType) Prompt.Info.toJson infoText
  | .validate taskType verbose => do
    match ← r.report taskType with
    | .error e => return .error (.assembly e)
    | .ok report => return .ok (reportText report verbose)

inductive Stage where
  | settings
  | logging
  | registry
  | command
  deriving DecidableEq, Repr

/-- Where a run ended, with what answer, and what it left behind. -/
structure Outcome where
  stage : Stage
  answer : Except Failure String
  settings : Settings := {}
  cache : Cache := {}
  files : Files

/-- Carries out a command by these settings. -/
def Command.run (c : Command) (e : Environment) (s : Settings) (f : Files) : Outcome :=
  match registryOf e s with
  | .error cause => ⟨.registry, .error (.settings cause), s, {}, f⟩
  | .ok r =>
    let (answer, shared) := (c.execute r).run { store := f }
    ⟨.command, answer, s, shared.cache, shared.store⟩

def Invocation.run (i : Invocation) (e : Environment) (f : Files) (r : Settings.Reader := {}) :
    Outcome :=
  match i.settings e f r with
  | .error cause => { stage := .settings, answer := .error (.settings cause), files := f }
  | .ok s =>
    let s := { s with logging := i.overLogging s.logging }
    match Logging.start e s.logging f with
    | (.error cause, f) => ⟨.logging, .error (.settings cause), s, {}, f⟩
    | (.ok (), f) => i.command.run e s f

end CommandLine
end PromptAssembly
