import PromptAssembly.Repository
import PromptAssembly.Template
import PromptAssembly.Template.SinglePass

/-!
# Fragment variables

References to fragments are resolved in order of declaration. Placeholders in a reference are
replaced once, from the variables at hand, and the fragment's content becomes a variable under the
resolved name. A fragment that cannot be loaded is an error only where it is required.
-/
namespace PromptAssembly.Assembly
open Prompt (Fragment FragmentRef)
open Template (Vars substituteOnce)

inductive Error where
  | loading (taskType : String) (cause : Repository.Error)
  | missingVariables (taskType : String) (names : List String)
  | missingFragment (resolved declared : String) (cause : Repository.Error)
  | rendering (taskType : String) (cause : Template.RenderError)
  | noTaskType
  | saving (cause : Repository.Error)
  deriving DecidableEq, Repr

def Error.message : Error → String
  | .loading taskType cause => s!"Failed to load prompt config for '{taskType}': {cause.message}"
  | .missingVariables taskType names =>
    s!"Missing required variables for '{taskType}': " ++ ", ".intercalate names
  | .missingFragment resolved declared cause =>
    s!"Required fragment '{resolved}' (declared as '{declared}') could not be loaded: " ++
      cause.message
  | .rendering taskType cause =>
    s!"Template rendering failed for '{taskType}': {cause.message}"
  | .noTaskType => "Invalid argument: task_type cannot be empty"
  | .saving cause => s!"Failed to save prompt config: {cause.message}"

structure Resolved where
  name : String
  path : Option String
  deriving DecidableEq, Repr

/-- A path that comes out empty does not count. -/
def resolveRef (vars : Vars) (r : FragmentRef) : Resolved where
  name := substituteOnce r.name vars
  path := (r.path.map (substituteOnce · vars)).filter fun p => !p.isEmpty

/-- Fragments are cached under their path, or under their name if there is none. -/
def Resolved.key (r : Resolved) : String := r.path.getD r.name

variable {S : Type}

def loadFragment (repo : Repository S) (base : Option Files.Path) (r : Resolved) :
    Run S (Except Repository.Error Fragment) :=
  Cache.getOrLoad Cache.fragmentSlot r.key (repo.loadFragment r.name r.path base)

def fragmentVars (repo : Repository S) (base : Option Files.Path) (vars : Vars) (found : Vars) :
    List FragmentRef → Run S (Except Error Vars)
  | [] => return .ok found
  | r :: rs => do
    let resolved := resolveRef vars r
    match ← loadFragment repo base resolved with
    | .ok f => fragmentVars repo base vars (found.insert resolved.name f.content) rs
    | .error e =>
      if r.required then return .error (.missingFragment resolved.name r.name e)
      fragmentVars repo base vars found rs

end PromptAssembly.Assembly
