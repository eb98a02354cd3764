import PromptAssembly.Dict
import PromptAssembly.Files
import PromptAssembly.Files.Path
import PromptAssembly.Text

/-!
# Environments

The variables that a program is started with, and where they say that settings, prompts and logs of a
user are kept, by the XDG Base Directory rules.
-/
namespace PromptAssembly

structure Environment where
  vars : Dict String := Dict.empty
  /-- The home directory of the user's account, for want of a variable that names it. -/
  accountHome : Option Files.Path := none
  deriving DecidableEq, Repr

namespace Environment

def get? (e : Environment) (name : String) : Option String := e.vars.get? name

def nonEmpty? (e : Environment) (name : String) : Option String :=
  (e.get? name).filter fun s => !s.isEmpty

end Environment
end PromptAssembly

namespace PromptAssembly.Settings
open Files (Fault Path)

inductive Error where
  | noHome
  | noStateDirectory
  | fileNotFound (path : Path)
  /-- A file, or a value in it or in the environment, that cannot be made sense of. -/
  | unreadable
  | depthTooSmall
  | logDirective (directive : String)
  | logFormat (format : String)
  | logOutput (output : String)
  | logDirectory (fault : Fault)
  | logFile (path : Path) (fault : Fault)
  deriving DecidableEq, Repr

def Error.message : Error → String
  | .noHome => "Could not determine XDG config home directory (HOME not set)"
  | .noStateDirectory => "Could not determine platform state directory for log file"
  | .fileNotFound path => s!"Config file not found: {path}"
  | .unreadable => "Could not read the settings"
  | .depthTooSmall => "Configuration error: render.max_depth must be at least 1"
  | .logDirective directive => s!"Invalid log directive '{directive}'"
  | .logFormat format => s!"Invalid log format: {format} (must be 'json' or 'text')"
  | .logOutput output =>
    s!"Invalid log output: {output} " ++
      "(must be 'stdout', 'stderr', 'file', 'file+stderr', or 'both')"
  | .logDirectory fault => s!"Failed to create log directory: {fault.message}"
  | .logFile path fault => s!"Failed to open log file {Text.quoted path}: {fault.message}"

end PromptAssembly.Settings

namespace PromptAssembly.Environment
open Files (Path)
open Settings (Error)

def applicationName : String := "promptloom"

def configHome (e : Environment) : Except Error Path :=
  match e.nonEmpty? "XDG_CONFIG_HOME", e.get? "HOME" with
  | some dir, _ => .ok dir
  | none, some home => .ok (Path.join home ".config")
  | none, none => .error .noHome

def configDir (e : Environment) : Except Error Path :=
  e.configHome.map (Path.join · applicationName)

def globalConfigFile (e : Environment) : Except Error Path :=
  e.configDir.map (Path.join · "config.toml")

def promptsDir (e : Environment) : Except Error Path := e.configDir.map (Path.join · "prompts")

def home? (e : Environment) : Option Path := (e.nonEmpty? "HOME").or e.accountHome

/-- The directory of all applications' state. A relative path is no setting. Even a directory that
is set needs a home beside it. -/
def stateHome (e : Environment) : Except Error Path :=
  match e.home?, (e.get? "XDG_STATE_HOME").filter Path.isAbsolute with
  | none, _ => .error .noStateDirectory
  | some _, some dir => .ok dir
  | some home, none => .ok (Path.join home ".local/state")

def defaultLogFile (e : Environment) : Except Error Path :=
  e.stateHome.map fun dir => (Path.join dir applicationName).join s!"{applicationName}.log"

end PromptAssembly.Environment
