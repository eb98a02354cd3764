import PromptAssembly.Cache
import PromptAssembly.Files.Path

/-!
# Repositories

Where configurations and fragments come from. A repository works on a store of its own kind, beside
which the cache lives; a call may read or change either.
-/
namespace PromptAssembly.Repository

inductive Error where
  | notFound (what : String)
  | invalid (why : String)
  | unavailable (why : String)
  | io (why : String)
  | storage (why : String)
  deriving DecidableEq, Repr

namespace Error

def message : Error → String
  | .notFound what => s!"Not found: {what}"
  | .invalid why => s!"Invalid document: {why}"
  | .unavailable why => s!"Repository unavailable: {why}"
  | .io why => s!"IO error: {why}"
  | .storage why => s!"Storage error: {why}"

def isNotFound : Error → Bool
  | .notFound _ => true
  | _ => false

end Error
end PromptAssembly.Repository

namespace PromptAssembly
open Prompt (Config Fragment)

/-- The cache, and the store of a repository. -/
structure Shared (S : Type) where
  cache : Cache := {}
  store : S

abbrev Run (S : Type) := StateM (Shared S)

instance {S : Type} : MonadStateOf Cache (Run S) where
  get := return (← getThe (Shared S)).cache
  set c := modifyThe (Shared S) fun s => { s with cache := c }
  modifyGet f := modifyGetThe (Shared S) fun s =>
    let (a, c) := f s.cache
    (a, { s with cache := c })

structure Repository (S : Type) where
  loadPrompt : (taskType : String) → Run S (Except Repository.Error Config)
  /-- By path below a base directory if a path is given, else by name. -/
  loadFragment : (name : String) → (path : Option String) → (base : Option Files.Path) →
    Run S (Except Repository.Error Fragment)
  listPrompts : Run S (Except Repository.Error (List String))
  savePrompt : Config → Run S (Except Repository.Error Unit)

namespace Repository

/-- What a call reads from the store. -/
def reading {S α : Type} (read : S → α) : Run S α := return read (← getThe (Shared S)).store

/-- What a call does to the store. -/
def changing {S α : Type} (change : S → α × S) : Run S α :=
  modifyGetThe (Shared S) fun s =>
    let (a, store) := change s.store
    (a, { s with store })

/-- A repository whose store is part of a larger one. -/
def within {S T : Type} (r : Repository S) (part : T → S) (replace : S → T → T) : Repository T :=
  let inside {α : Type} (run : Run S α) : Run T α :=
    modifyGetThe (Shared T) fun t =>
      let (a, s) := run { cache := t.cache, store := part t.store }
      (a, { cache := s.cache, store := replace s.store t.store })
  { loadPrompt := fun taskType => inside (r.loadPrompt taskType)
    loadFragment := fun name path base => inside (r.loadFragment name path base)
    listPrompts := inside r.listPrompts
    savePrompt := fun c => inside (r.savePrompt c) }

end Repository
end PromptAssembly
