import PromptAssembly.CommandLine.Arguments
import PromptAssembly.Files.Path
import PromptAssembly.Settings

/-!
# Commands

What the program can be asked for, and the options that hold for all of it.
-/
namespace PromptAssembly.CommandLine
open Files (Path)

inductive Command where
  | render (taskType : String) (bindings : List (String × String)) (model format : String)
  | list (format : String)
  | info (taskType format : String)
  | validate (taskType : String) (verbose : Bool)
  deriving DecidableEq, Repr

structure Invocation where
  config : Option Path := none
  promptsDir : Option Path := none
  logLevel : Option String := none
  logFormat : Option String := none
  logOutput : Option String := none
  logFile : Option Path := none
  command : Command
  deriving DecidableEq, Repr

namespace Command

/-- The commands with what they understand. -/
def grammars : List (String × Grammar) :=
  [("render",
     { options := [("var", .binding), ("model", .text), ("format", .text)]
       positionals := ["TASK_TYPE"] }),
   ("list", { options := [("format", .text)] }),
   ("info", { options := [("format", .text)], positionals := ["TASK_TYPE"] }),
   ("validate", { options := [("verbose", .flag)], positionals := ["TASK_TYPE"] })]

def parse (name : String) (words : List String) : Except UsageError Command := do
  let s ← Scan.readAll ((grammars.lookup name).getD {}) words
  let taskType := s.positionals.headD ""
  let format := (s.value? "format").getD "text"
  match name with
  | "render" =>
    let bindings := s.options.filterMap fun (name, value) =>
      if name = "var" then binding? value else none
    return .render taskType bindings ((s.value? "model").getD "") format
  | "list" => return .list format
  | "info" => return .info taskType format
  | "validate" => return .validate taskType (s.has "verbose")
  | _ => throw (.unknownCommand name)

end Command

namespace Invocation

def grammar : Grammar where
  options := [("config", .path), ("prompts-dir", .path), ("log-level", .text),
    ("log-format", .text), ("log-output", .text), ("log-file", .path)]
  commands := Command.grammars.map (·.1) ++ ["help"]

def help : List String → UsageError
  | [] => .helpAsked
  | word :: words =>
    match grammar.commands.contains word, words with
    | true, [] => .helpAsked
    | true, next :: _ => .unknownCommand next
    | false, _ => .unknownCommand word

/-- The command is read before the last of the options in front of it is looked at. -/
def parse (words : List String) : Except UsageError Invocation := do
  match ← Scan.read grammar {} words with
  | (s, none) =>
    let s ← s.resolve
    throw (if s.options.isEmpty then .nothingGiven else .commandMissing)
  | (_, some ("help", rest)) => throw (help rest)
  | (s, some (name, rest)) =>
    let command ← Command.parse name rest
    let s ← s.resolve
    return {
      config := s.value? "config"
      promptsDir := s.value? "prompts-dir"
      logLevel := s.value? "log-level"
      logFormat := s.value? "log-format"
      logOutput := s.value? "log-output"
      logFile := s.value? "log-file"
      command }

/-- Options win over the settings. -/
def overLogging (i : Invocation) (l : Logging) : Logging :=
  { l with
    level := i.logLevel.getD l.level
    format := i.logFormat.getD l.format
    output := i.logOutput.getD l.output
    file := i.logFile.or l.file }

end Invocation
end PromptAssembly.CommandLine
