import PromptAssembly.Settings
import PromptAssembly.Settings.Locations
import PromptAssembly.Text

/-!
# Starting to log

Whether logging settings can be used, and the log file that they ask for. The environment has its
say over the settings: a filter or a destination replaces theirs, a format only if it is one. What is
logged is chosen by directives: a level, a target, or a target with its level (`target=level`). A
target may end in a span in square brackets, with fields of the span in curly brackets.
-/
namespace PromptAssembly.Logging
open Files (Path)
open Settings (Error)

def levelNames : List String := ["trace", "debug", "info", "warn", "error", "off"]

/-- A level is named or numbered from 0 to 5, or left empty. -/
def isLevel (s : List Char) : Bool :=
  let digits := match s with
    | '+' :: rest => rest
    | _ => s
  s.isEmpty || levelNames.contains (String.ofList (s.map Char.toLower)) ||
    (!digits.isEmpty && digits.all (fun d => '0' ≤ d && d ≤ '5') &&
      (digits.dropWhile (· = '0')).length ≤ 1)

/-- The level at the end of a directive, which a comma may follow. -/
def isLastLevel (s : List Char) : Bool :=
  isLevel (s.takeWhile (· ≠ ',')) && (s.dropWhile (· ≠ ',')).length ≤ 1

def isAfterSpan : List Char → Bool
  | [] => true
  | '=' :: level => isLastLevel level
  | _ => false

/-- The rest of a span whose bracket has been opened. -/
def isSpan (s : List Char) : Bool :=
  match s.dropWhile fun c => c ≠ ']' && c ≠ '\x7b' with
  | ']' :: rest => isAfterSpan rest
  | _ :: rest =>
    let fields := rest.takeWhile (· ≠ '\x7d')
    match rest.drop fields.length with
    | _ :: ']' :: rest => (fields.splitOn ',').all (!·.isEmpty) && isAfterSpan rest
    | _ => false
  | [] => false

/-- Letters and digits, and the marks that occur in the names of modules. -/
def startsTarget (c : Char) : Bool :=
  c.isAlphanum || 0x80 ≤ c.toNat || c = '-' || c = ':' || c = '_'

def isDirective : List Char → Bool
  | '[' :: rest => isSpan rest
  | c :: rest =>
    startsTarget c &&
      match rest.dropWhile fun c => c ≠ '=' && c ≠ '[' && c ≠ ',' with
      | [] => true
      | '=' :: level => isLastLevel level
      | '[' :: rest => isSpan rest
      | _ :: rest => rest.isEmpty
  | [] => false

def isFilter (s : String) : Bool :=
  ((s.toList.splitOn ',').filter fun d => !d.isEmpty).all isDirective

/-- Pairs of a module and its level, set apart by commas. What is not a pair is skipped. -/
def moduleDirectives (s : String) : List String :=
  (s.toList.splitOn ',').filterMap fun entry =>
    let name := Text.trimChars (entry.takeWhile (· ≠ '='))
    let level := Text.trimChars ((entry.dropWhile (· ≠ '=')).drop 1)
    if name.isEmpty || level.isEmpty then none
    else some (String.ofList name ++ "=" ++ String.ofList level)

/-- The log file: as asked for, else from the environment, else from the settings. -/
def filePath (e : Environment) (asked configured : Option Path) : Except Error Path :=
  let named (p : Option Path) : Option Path := p.filter fun p => !p.isEmpty
  match (named asked).or ((e.nonEmpty? "PROMPTLOOM_LOG_FILE").or (named configured)) with
  | some p => .ok p
  | none => e.defaultLogFile

/-- The directives that modules get beside the general level. -/
def directives (e : Environment) (l : Logging) : List String :=
  l.modules.entries.map (fun (name, level) => s!"{name}={level}") ++
    moduleDirectives ((e.get? "PROMPTLOOM_LOG_MODULES").getD "")

def checkFilter (e : Environment) (l : Logging) : Except Error Unit :=
  if (e.get? "PROMPTLOOM_LOG").any isFilter || l.level = "off" then .ok ()
  else match (directives e l).find? fun d => !isDirective d.toList with
    | some d => .error (.logDirective d)
    | none => .ok ()

inductive Format where
  | json
  | text
  deriving DecidableEq, Repr

def Format.ofName? : String → Option Format
  | "json" => some .json
  | "text" => some .text
  | _ => none

def chooseFormat (e : Environment) (l : Logging) : Except Error Format :=
  match (e.get? "PROMPTLOOM_LOG_FORMAT").bind Format.ofName? with
  | some f => .ok f
  | none =>
    match Format.ofName? l.format with
    | some f => .ok f
    | none => .error (.logFormat l.format)

inductive Output where
  | stdout
  | stderr
  | file
  | fileAndStderr
  | both
  deriving DecidableEq, Repr

def Output.ofName? : String → Option Output
  | "stdout" => some .stdout
  | "stderr" => some .stderr
  | "file" => some .file
  | "file+stderr" => some .fileAndStderr
  | "both" => some .both
  | _ => none

def Output.usesFile : Output → Bool
  | .file | .fileAndStderr => true
  | _ => false

def chooseOutput (e : Environment) (l : Logging) : Except Error Output :=
  let name := (e.get? "PROMPTLOOM_LOG_OUTPUT").getD l.output
  match Output.ofName? name with
  | some o => .ok o
  | none => .error (.logOutput name)

/-- Makes sure that a log file is there, and the directories above it. -/
def openLog (p : Path) (f : Files) : Except Error Unit × Files :=
  let (made, f) := match p.parent? with
    | some parent => f.createAll parent
    | none => (.ok (), f)
  match made with
  | .error fault => (.error (.logDirectory fault), f)
  | .ok () =>
    match f.touch p with
    | .ok f => (.ok (), f)
    | .error fault => (.error (.logFile p fault), f)

def plan (e : Environment) (l : Logging) : Except Error (Option Path) := do
  if !l.enabled then return none
  checkFilter e l
  let _ ← chooseFormat e l
  if (← chooseOutput e l).usesFile then return some (← filePath e none l.file)
  return none

def start (e : Environment) (l : Logging) (f : Files) : Except Error Unit × Files :=
  match plan e l with
  | .error err => (.error err, f)
  | .ok none => (.ok (), f)
  | .ok (some p) => openLog p f

end PromptAssembly.Logging
