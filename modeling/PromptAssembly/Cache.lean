import PromptAssembly.Dict
import PromptAssembly.Prompt.Config

/-!
# The cache

Loaded configurations by task type and loaded fragments by key. A missing entry is loaded behind the
gate of its key, so that callers who miss it at one time load it once. Whoever wants to load a key
takes its gate, passes it alone, and gives it back; all who hold the gate of a key at one time hold
the same gate. A gate leaves the table when the last holder gives it back, and all gates leave it at
once when the table is cleared; those who hold one keep it. Clearing the cache starts a new
generation: what was being loaded meanwhile is handed to its caller, but not kept.
-/
namespace PromptAssembly
open Prompt (Config Fragment)

abbrev Gate := Nat

structure Gates where
  table : Dict Gate := Dict.empty
  /-- The gates that are held, each as often as it is held. -/
  held : List Gate := []
  next : Gate := 0
  deriving DecidableEq, Repr

namespace Gates

/-- The gate of a key, made if there is none, in the hands of one more holder. -/
def take (g : Gates) (key : String) : Gate × Gates :=
  match g.table.get? key with
  | some gate => (gate, { g with held := gate :: g.held })
  | none =>
    (g.next, { table := g.table.insert key g.next, held := g.next :: g.held, next := g.next + 1 })

def isIdle (g : Gates) (key : String) (gate : Gate) : Bool :=
  g.table.get? key = some gate && g.held.count gate = 1

/-- The first half of giving a gate back: an idle gate leaves the table. -/
def retire (g : Gates) (key : String) (gate : Gate) : Gates :=
  if g.isIdle key gate then { g with table := g.table.erase key } else g

/-- The second half: the holder lets go. -/
def drop (g : Gates) (gate : Gate) : Gates := { g with held := g.held.erase gate }

def release (g : Gates) (key : String) (gate : Gate) : Gates := (g.retire key gate).drop gate

def clear (g : Gates) : Gates := { g with table := Dict.empty }

def size (g : Gates) : Nat := g.table.entries.length

end Gates
/-- Entries of one kind, and the gates behind which missing ones are loaded. -/
structure Shelf (α : Type) where
  entries : Dict α := Dict.empty
  gates : Gates := {}
  deriving DecidableEq, Repr

structure Cache where
  prompts : Shelf Config := {}
  fragments : Shelf Fragment := {}
  generation : UInt64 := 0
  deriving DecidableEq, Repr

namespace Cache

structure Slot (α : Type) where
  shelf : Cache → Shelf α
  put : Shelf α → Cache → Cache

def promptSlot : Slot Config := ⟨prompts, fun s c => { c with prompts := s }⟩

def fragmentSlot : Slot Fragment := ⟨fragments, fun s c => { c with fragments := s }⟩

variable {α ε : Type}

def find? (c : Cache) (slot : Slot α) (key : String) : Option α := (slot.shelf c).entries.get? key

def keys (c : Cache) (slot : Slot α) : List String := (slot.shelf c).entries.keys

def insert (c : Cache) (slot : Slot α) (key : String) (a : α) : Cache :=
  let shelf := slot.shelf c
  slot.put { shelf with entries := shelf.entries.insert key a } c

/-- Keeps what was loaded if its load began in the present generation. -/
def keep (c : Cache) (slot : Slot α) (generation : UInt64) (key : String) (a : α) : Cache :=
  if c.generation = generation then c.insert slot key a else c

def takeGate (c : Cache) (slot : Slot α) (key : String) : Gate × Cache :=
  let shelf := slot.shelf c
  let (gate, gates) := shelf.gates.take key
  (gate, slot.put { shelf with gates } c)

def releaseGate (c : Cache) (slot : Slot α) (key : String) (gate : Gate) : Cache :=
  let shelf := slot.shelf c
  slot.put { shelf with gates := shelf.gates.release key gate } c

/-- The first step of clearing: both shelves are emptied and a generation begins. -/
def forget (c : Cache) : Cache :=
  { c with
    prompts := { c.prompts with entries := Dict.empty }
    fragments := { c.fragments with entries := Dict.empty }
    generation := c.generation + 1 }

/-- A further step of clearing: all gates of a shelf leave its table. -/
def clearGates (c : Cache) (slot : Slot α) : Cache :=
  let shelf := slot.shelf c
  slot.put { shelf with gates := shelf.gates.clear } c

def clear (c : Cache) : Cache := (c.forget.clearGates promptSlot).clearGates fragmentSlot

variable {m : Type → Type} [Monad m] [MonadStateOf Cache m]

/-- What is done behind the gate: the entry may have come meanwhile. -/
def loadBehindGate (slot : Slot α) (key : String) (load : m (Except ε α)) : m (Except ε α) := do
  match (← getThe Cache).find? slot key with
  | some a => return .ok a
  | none =>
    let generation := (← getThe Cache).generation
    match ← load with
    | .error e => return .error e
    | .ok a =>
      modifyThe Cache (·.keep slot generation key a)
      return .ok a

def getOrLoad (slot : Slot α) (key : String) (load : m (Except ε α)) : m (Except ε α) := do
  match (← getThe Cache).find? slot key with
  | some a => return .ok a
  | none =>
    let gate ← modifyGetThe Cache (·.takeGate slot key)
    let result ← loadBehindGate slot key load
    modifyThe Cache (·.releaseGate slot key gate)
    return result

end Cache
end PromptAssembly
