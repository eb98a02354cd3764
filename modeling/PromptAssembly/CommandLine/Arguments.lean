/-!
# Arguments

How the words of a command line are told apart: options with a value behind them or attached by an
equals sign, flags, positional arguments, and the name of a command, which the rest belongs to. After
`--` all words are positional. The value of an option is looked at only when the next word of the
same command has been, so that a fault in that word comes first.
-/
namespace PromptAssembly.CommandLine

inductive UsageError where
  | helpAsked
  | nothingGiven
  | commandMissing
  | unknownCommand (word : String)
  | unknownArgument (word : String)
  | argumentMissing (name : String)
  | valueMissing (option : String)
  | valueInvalid (option value : String)
  | repeated (option : String)
  | needlessValue (option : String)
  deriving DecidableEq, Repr

/-- A name and a value with an equals sign between them. -/
def binding? (s : String) : Option (String × String) :=
  let name := s.toList.takeWhile (· ≠ '=')
  match s.toList.drop name.length with
  | _ :: value => if name.isEmpty then none else some (String.ofList name, String.ofList value)
  | [] => none

def bindingMessage (s : String) : String := s!"invalid variable '{s}': expected name=value"

def UsageError.message : UsageError → String
  | .helpAsked => "help"
  | .nothingGiven | .commandMissing => "a command is required"
  | .unknownCommand word => s!"unrecognized command '{word}'"
  | .unknownArgument word => s!"unexpected argument '{word}'"
  | .argumentMissing name => s!"the argument <{name}> is required"
  | .valueMissing option => s!"a value is required for '--{option}'"
  | .valueInvalid _ value => bindingMessage value
  | .repeated option => s!"the option '--{option}' cannot be used more than once"
  | .needlessValue option => s!"unexpected value for '--{option}'"

inductive OptionKind where
  /-- A path, which is not empty. -/
  | path
  | text
  /-- A binding of a variable. Only such options may be repeated. -/
  | binding
  | flag
  deriving DecidableEq, Repr

/-- What a command understands, besides a question for help. -/
structure Grammar where
  options : List (String × OptionKind) := []
  positionals : List String := []
  commands : List String := []
  deriving Repr

/-- An option that waits for its value, or for its value to be looked at. -/
structure Pending where
  name : String
  kind : OptionKind
  value : Option String := none
  deriving DecidableEq, Repr

structure Scan where
  /-- Options with their values in order; a flag has none. -/
  options : List (String × String) := []
  positionals : List String := []
  pending : Option Pending := none
  onlyPositionals : Bool := false
  deriving DecidableEq, Repr

namespace Scan

def has (s : Scan) (name : String) : Bool := s.options.any (·.1 = name)

def value? (s : Scan) (name : String) : Option String := s.options.lookup name

def accept (s : Scan) (p : Pending) : Except UsageError Scan := do
  if p.kind = .flag then
    if s.has p.name then throw (.repeated p.name)
    return { s with options := s.options ++ [(p.name, "")] }
  match p.value with
  | none => throw (.valueMissing p.name)
  | some value =>
    if p.kind ≠ .binding && s.has p.name then throw (.repeated p.name)
    if p.kind = .path && value.isEmpty then throw (.valueMissing p.name)
    if p.kind = .binding && (binding? value).isNone then throw (.valueInvalid p.name value)
    return { s with options := s.options ++ [(p.name, value)] }

/-- Looks at the value that is still to be looked at. -/
def resolve (s : Scan) : Except UsageError Scan :=
  match s.pending with
  | none => .ok s
  | some p => { s with pending := none }.accept p

def awaitsValue (s : Scan) : Bool := s.pending.any (·.value.isNone)

/-- A word with two hyphens in front: its name and the value behind an equals sign. -/
def longOption (g : Grammar) (s : Scan) (name : String) (value : Option String) :
    Except UsageError Scan := do
  match (("help", .flag) :: g.options).lookup name, value with
  | none, _ => throw (.unknownArgument s!"--{name}")
  | some .flag, some _ => throw (.needlessValue name)
  | some .flag, none =>
    let s ← s.resolve
    if name = "help" then throw .helpAsked
    s.accept { name, kind := .flag }
  | some kind, some value => (← s.resolve).accept { name, kind, value := some value }
  | some kind, none => return { ← s.resolve with pending := some { name, kind } }

def shortOption (s : Scan) (word : String) : Except UsageError Scan :=
  match word.toList with
  | _ :: 'h' :: _ => do
    let _ ← s.resolve
    throw .helpAsked
  | _ => throw (.unknownArgument word)

def positional (g : Grammar) (s : Scan) (word : String) : Except UsageError Scan := do
  if s.positionals.length < g.positionals.length then
    let s ← s.resolve
    return { s with positionals := s.positionals ++ [word] }
  if g.commands.isEmpty || (s.onlyPositionals && g.commands.contains word) then
    throw (.unknownArgument word)
  throw (.unknownCommand word)

def step (g : Grammar) (s : Scan) (word : String) : Except UsageError Scan :=
  if s.onlyPositionals then s.positional g word
  else match word.toList with
  | ['-', '-'] => .ok { s with onlyPositionals := true }
  | '-' :: '-' :: long =>
    let name := long.takeWhile (· ≠ '=')
    let value := match long.drop name.length with
      | _ :: value => some (String.ofList value)
      | [] => none
    s.longOption g (String.ofList name) value
  | '-' :: _ :: _ => s.shortOption word
  | _ =>
    match s.pending with
    | some { name, kind, value := none } =>
      .ok { s with pending := some { name, kind, value := some word } }
    | _ => s.positional g word

/-- Reads words up to the name of a command; returned with the words behind it. -/
def read (g : Grammar) (s : Scan) :
    List String → Except UsageError (Scan × Option (String × List String))
  | [] => .ok (s, none)
  | word :: words =>
    if !s.onlyPositionals && !s.awaitsValue && g.commands.contains word then
      .ok (s, some (word, words))
    else do (← s.step g word).read g words

/-- All words of a command that has no commands of its own. Its positional arguments are all
required. -/
def readAll (g : Grammar) (words : List String) : Except UsageError Scan := do
  let (s, _) ← Scan.read g {} words
  let s ← s.resolve
  match g.positionals[s.positionals.length]? with
  | some name => throw (.argumentMissing name)
  | none => return s

end Scan
end PromptAssembly.CommandLine
