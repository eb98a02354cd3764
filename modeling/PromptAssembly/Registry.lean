import PromptAssembly.Assembly.Fragments
import PromptAssembly.Prompt.Assembled
import PromptAssembly.Prompt.Defaults
import PromptAssembly.Prompt.Report
import PromptAssembly.Template.Renderer

/-!
# Registries

A registry turns a task type into a prompt: it loads the configuration, checks and merges the
variables, adds the fragments, picks the template for the model and renders it. Configurations and
fragments go through the cache. A registry without a repository knows only what is cached.
-/
namespace PromptAssembly
open Assembly (Error)
open Prompt (Config Info Assembled Report)
open Template (Vars Renderer)

structure Registry (S : Type) where
  repository : Option (Repository S) := none
  renderer : Renderer := {}
  fragmentBase : Option Files.Path := none

namespace Repository

def nowhere : Repository.Error := .unavailable "no repository configured"

/-- The repository that has nothing. -/
def detached (S : Type) : Repository S where
  loadPrompt _ := return .error nowhere
  loadFragment _ _ _ := return .error nowhere
  listPrompts := return .error nowhere
  savePrompt _ := return .error nowhere

end Repository

namespace Registry
variable {S : Type}

def fragmentSource (r : Registry S) : Repository S := r.repository.getD (.detached S)

/-- Configurations are loaded once, with defaults filled in. -/
def loadConfig (r : Registry S) (taskType : String) : Run S (Except Error Config) := do
  match r.repository with
  | none =>
    match (← getThe Cache).find? Cache.promptSlot taskType with
    | some c => return .ok c
    | none => return .error (.loading taskType Repository.nowhere)
  | some repo =>
    Cache.getOrLoad Cache.promptSlot taskType do
      match ← repo.loadPrompt taskType with
      | .ok c => return .ok c.withDefaults
      | .error e => return .error (.loading taskType e)

/-- The caller's variables over the defaults of the optional ones. -/
def baseVars (c : Config) (vars : Vars) : Vars := Template.mergeVars [c.optionalVars, vars]

theorem get?_baseVars (c : Config) (vars : Vars) (name : String) :
    (baseVars c vars).get? name = (vars.get? name).or (c.optionalVars.get? name) :=
  Template.get?_mergeVars_pair c.optionalVars vars name

/-- Required variables have to come from the caller. Contents of fragments win over all others. -/
def prepareVariables (r : Registry S) (c : Config) (vars : Vars) (taskType : String) :
    Run S (Except Error Vars) := do
  match Template.missingVars c.requiredVars vars with
  | [] =>
    let base := baseVars c vars
    match ← Assembly.fragmentVars r.fragmentSource r.fragmentBase base Dict.empty c.fragments with
    | .ok found => return .ok (base.overlay found)
    | .error e => return .error e
  | missing => return .error (.missingVariables taskType missing)

def assemble (r : Registry S) (taskType : String) (vars : Vars) (model : String) :
    Run S (Except Error Assembled) := do
  match ← r.loadConfig taskType with
  | .error e => return .error e
  | .ok c =>
    match ← r.prepareVariables c vars taskType with
    | .error e => return .error e
    | .ok vars =>
      match r.renderer.render (c.templateFor model) vars with
      | .error e => return .error (.rendering taskType e)
      | .ok text => return .ok (.ofConfig c text)

/-- The prompt, if all goes well. -/
def load? (r : Registry S) (taskType : String) (vars : Vars) (model : String) :
    Run S (Option Assembled) := do
  return (← r.assemble taskType vars model).toOption

/-- Saves a configuration under its own task type, or under the given one if it has none, and caches
it under the given one. -/
def register (r : Registry S) (taskType : String) (c : Config) : Run S (Except Error Unit) := do
  if taskType.isEmpty then return .error .noTaskType
  let named := if c.taskType.isEmpty then { c with taskType } else c
  let c := named.withDefaults
  if let some repo := r.repository then
    if let .error e ← repo.savePrompt c then
      return .error (.saving e)
  modifyThe Cache (·.insert Cache.promptSlot taskType c)
  return .ok ()

/-- What the repository lists, or what is cached if that is nothing. -/
def listTaskTypes (r : Registry S) : Run S (List String) := do
  if let some repo := r.repository then
    if let .ok (t :: ts) ← repo.listPrompts then
      return (t :: ts).mergeSort
  return (← getThe Cache).keys Cache.promptSlot

def info (r : Registry S) (taskType : String) : Run S (Except Error Info) := do
  return (← r.loadConfig taskType).map Info.ofConfig

def report (r : Registry S) (taskType : String) : Run S (Except Error Report) := do
  return (← r.loadConfig taskType).map Config.report

def clearCache : Run S Unit := modifyThe Cache Cache.clear

end Registry
end PromptAssembly
