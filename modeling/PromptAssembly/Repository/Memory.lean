import PromptAssembly.Repository

/-!
# Repositories in memory
-/
namespace PromptAssembly.Repository
open Prompt (Config Fragment)

structure Memory where
  prompts : Dict Config := Dict.empty
  fragments : Dict Fragment := Dict.empty
  deriving DecidableEq, Repr

namespace Memory

def insertPrompt (m : Memory) (c : Config) : Memory :=
  { m with prompts := m.prompts.insert c.taskType c }

def insertFragment (m : Memory) (key : String) (f : Fragment) : Memory :=
  { m with fragments := m.fragments.insert key f }

def removeFragment (m : Memory) (key : String) : Memory :=
  { m with fragments := m.fragments.erase key }

def loadPrompt (taskType : String) (m : Memory) : Except Error Config :=
  match m.prompts.get? taskType with
  | some c => .ok c
  | none => .error (.notFound s!"prompt '{taskType}'")

/-- A fragment is looked up by its path first, then by its name. -/
def loadFragment (name : String) (path : Option String) (m : Memory) : Except Error Fragment :=
  let byPath := (path.filter fun p => !p.isEmpty).bind m.fragments.get?
  match byPath.orElse fun _ => m.fragments.get? name with
  | some f => .ok f
  | none => .error (.notFound s!"fragment '{name}'")

def savePrompt (c : Config) (m : Memory) : Except Error Unit × Memory :=
  if c.taskType.isEmpty then (.error (.invalid "task_type cannot be empty"), m)
  else (.ok (), m.insertPrompt c)

def repository : Repository Memory where
  loadPrompt taskType := reading (loadPrompt taskType)
  loadFragment name path _ := reading (loadFragment name path)
  listPrompts := reading fun m => .ok m.prompts.keys
  savePrompt c := changing (savePrompt c)

end Memory
end PromptAssembly.Repository
