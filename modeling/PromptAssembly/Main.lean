import PromptAssembly.CommandLine

/-!
# The program

Takes in what the run may ask of the file system, runs the command, prints its answer and makes the
log file.
-/
namespace PromptAssembly.CommandLine
open Files (Path)

def usage : String := "\n".intercalate
  ["Assemble LLM system prompts from versioned YAML manifests", "",
   "Usage: promptloom [OPTIONS] <COMMAND>", "",
   "Commands:",
   "  render    Render a prompt",
   "            <TASK_TYPE> [--var <NAME=VALUE>]... [--model <MODEL>] [--format <FORMAT>]",
   "  list      List available task types",
   "            [--format <FORMAT>]",
   "  info      Show a summary of one prompt config",
   "            <TASK_TYPE> [--format <FORMAT>]",
   "  validate  Run structural checks on a prompt config",
   "            <TASK_TYPE> [--verbose]",
   "  help      Print this message", "",
   "Options:",
   "  --config <CONFIG>            Configuration file path (layered over the global config)",
   "  --prompts-dir <PROMPTS_DIR>  Prompt manifest directory",
   "  --log-level <LOG_LEVEL>      Log level (trace, debug, info, warn, error, off)",
   "  --log-format <LOG_FORMAT>    Log format (json, text)",
   "  --log-output <LOG_OUTPUT>    Log output (stdout, stderr, file, file+stderr, both)",
   "  --log-file <LOG_FILE>        Log file path (if output includes file)",
   "  -h, --help                   Print help"]

def readEnvironment : IO Environment := do
  let bytes ← IO.FS.readBinFile "/proc/self/environ"
  let assignments := ((String.fromUTF8? bytes).getD "").splitOn "\x00"
  return { vars := Dict.ofList (assignments.filterMap binding?) }

/-- Takes a file, a directory with all it holds or a link with what it leads to into the files of a
run. What cannot be read is not there. -/
def take (depth : Nat) (f : Files) (place : IO.FS.DirEntry) : IO Files := do
  let path := place.path.toString
  let above (f : Files) : Files := (f.createAll ((Path.parent? path).getD "/")).2
  match depth with
  | 0 => return f
  | depth + 1 =>
    try
      match (← place.path.symlinkMetadata).type with
      | .symlink =>
        let target ← IO.FS.realPath place.path
        let f := above f
        take depth ((f.makeLink path target.toString).toOption.getD f) ⟨place.root, target.toString⟩
      | .dir =>
        let mut f := (f.createAll path).2
        for entry in ← place.path.readDir do
          f ← take depth f entry
        return f
      | _ =>
        let content ← IO.FS.readBinFile place.path
        let f := above f
        return (f.write path content).toOption.getD f
    catch _ => return f

def maxDepth : Nat := 40

/-- The files that settings may come from. -/
def settingsFiles (e : Environment) (i : Invocation) : List Path :=
  let global := match e.globalConfigFile with
    | .ok p => p :: Settings.extensions.map fun ext => s!"{p}.{ext}"
    | .error _ => []
  global ++ i.config.toList

/-- The directories and files that prompts and fragments may come from. -/
def promptFiles (e : Environment) (i : Invocation) (f : Files) : List Path :=
  match i.settings e f with
  | .error _ => []
  | .ok s =>
    match s.repository.directory e with
    | .error _ => []
    | .ok d => d.root :: d.fragmentsDir :: (d.mappings.entries.map fun (_, file) => d.root.join file)

def printFailure (stage : Stage) (e : Failure) : IO Unit :=
  let introduction := match stage with
    | .settings => "Error loading configuration"
    | .logging => "Error initializing logging"
    | _ => "Error"
  IO.eprintln s!"{introduction}: {e.message}"

def makeLogFile (e : Environment) (o : Outcome) : IO Unit := do
  if o.stage = .settings || o.stage = .logging then return
  if let .ok (some p) := Logging.plan e o.settings.logging then
    if let some parent := (Path.parent? p).filter (!·.isEmpty) then
      IO.FS.createDirAll parent
    let _ ← IO.FS.Handle.mk p .append

def runProgram (i : Invocation) : IO UInt32 := do
  let e ← readEnvironment
  let cwd ← IO.currentDir
  let names := (Path.parts cwd.toString).filter (!·.isEmpty)
  let empty : Files := { working := names }
  let gather (f : Files) (paths : List Path) : IO Files :=
    paths.foldlM (fun f p => take maxDepth f ⟨cwd, p⟩) f
  let f ← gather (empty.createAll cwd.toString).2 (settingsFiles e i)
  let f ← gather f (promptFiles e i f)
  let o := i.run e f
  makeLogFile e o
  match o.answer with
  | .ok answer =>
    IO.println answer
    return 0
  | .error err =>
    printFailure o.stage err
    return 1

end PromptAssembly.CommandLine

open PromptAssembly.CommandLine in
def main (args : List String) : IO UInt32 := do
  match Invocation.parse args with
  | .ok i => runProgram i
  | .error .helpAsked =>
    IO.println usage
    return 0
  | .error e =>
    IO.eprintln s!"error: {e.message}\n\n{usage}"
    return 2
