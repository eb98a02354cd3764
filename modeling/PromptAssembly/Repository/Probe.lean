import PromptAssembly.Repository

/-!
# Probed repositories

A probe stands in front of a repository. It writes down every call, can clear the cache when a call
comes in, and can make calls fail that the repository would have answered.
-/
namespace PromptAssembly.Repository

inductive Call where
  | loadPrompt
  | loadFragment
  | listPrompts
  | savePrompt
  deriving DecidableEq, Repr

structure Probe where
  /-- All calls so far, the latest first. -/
  calls : List Call := []
  /-- Calls that fail, and how. -/
  failing : List (Call × Error) := []
  /-- Calls that clear the cache when they come next. -/
  clearing : List Call := []
  deriving DecidableEq, Repr

namespace Probe

def count (p : Probe) (c : Call) : Nat := p.calls.count c

def setFailure (p : Probe) (c : Call) (e : Option Error) : Probe :=
  let others := p.failing.filter fun f => f.1 ≠ c
  { p with failing := (e.map (c, ·)).toList ++ others }

def clearOnNext (p : Probe) (c : Call) : Probe := { p with clearing := c :: p.clearing }

end Probe

structure Probed (S : Type) where
  probe : Probe := {}
  store : S

namespace Probed
variable {S : Type}

/-- What the probe does when a call comes in; the error, if it is to fail. -/
def enter (c : Call) : Run (Probed S) (Option Error) := do
  let p := (← getThe (Shared (Probed S))).store.probe
  if c ∈ p.clearing then modifyThe Cache Cache.clear
  let probe := { p with calls := c :: p.calls, clearing := p.clearing.filter (· ≠ c) }
  modifyThe (Shared (Probed S)) fun s => { s with store := { s.store with probe } }
  return p.failing.lookup c

def guarded {α : Type} (c : Call) (call : Run (Probed S) (Except Error α)) :
    Run (Probed S) (Except Error α) := do
  match ← enter c with
  | some e => return .error e
  | none => call

def repository (r : Repository S) : Repository (Probed S) :=
  let r := r.within Probed.store fun store p => { p with store }
  { loadPrompt := fun taskType => guarded .loadPrompt (r.loadPrompt taskType)
    loadFragment := fun name path base => guarded .loadFragment (r.loadFragment name path base)
    listPrompts := guarded .listPrompts r.listPrompts
    savePrompt := fun c => guarded .savePrompt (r.savePrompt c) }

end Probed
end PromptAssembly.Repository
