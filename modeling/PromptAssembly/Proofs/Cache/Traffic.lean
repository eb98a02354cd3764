import Mathlib.Control.Monad.Basic
import PromptAssembly.Proofs.Cache.Loading

/-!
# Traffic at a cache

Any number of callers use a cache at one time. Each goes its way through `getOrLoad` in atomic steps,
one for each time that it has the cache, a table of gates or the lock of a gate to itself, and the
steps of all callers come in any order. Entries are put in meanwhile, and clears are executed, each
of them three steps. A caller that is alone does what `getOrLoad` does (`steps_getOrLoad`), and a
clear that is alone does what `clear` does (`run_clear`).
-/
namespace PromptAssembly.Cache
open Prompt (Config Fragment)

/-- How often the entries of a cache, and the gates of one of its shelves, have been cleared. -/
structure Moment where
  forgotten : Nat := 0
  emptied : Nat := 0
  deriving DecidableEq, Repr

/-- How far a caller is that holds a gate. -/
inductive Stage (α ε : Type) where
  | waiting
  | entered
  | absent
  | loading (generation : UInt64)
  | loaded (generation : UInt64) (a : α)
  /-- The lock of the gate is still to be given back, -/
  | leaving (result : Except ε α)
  /-- the table still to be rid of an idle gate, -/
  | left (result : Except ε α)
  /-- and the gate still to be let go. -/
  | retired (result : Except ε α)
  deriving DecidableEq, Repr

inductive Place (α ε : Type) where
  | arrived
  | missed
  | holding (gate : Gate) (stage : Stage α ε)
  | done (result : Except ε α)
  deriving DecidableEq, Repr

/-- A call of `getOrLoad`. What its loader will give is known beforehand; as it may be anything, this
is no restriction. -/
structure Caller (α ε : Type) where
  key : String
  load : Except ε α
  place : Place α ε := .arrived
  /-- When it took its gate. -/
  took : Moment := {}
  /-- How often the cache had been cleared when its loader started. -/
  began : Option Nat := none
  deriving DecidableEq, Repr

/-- The callers at one shelf, the gates that are locked, and how often the gates were cleared. -/
structure Lane (α ε : Type) where
  callers : List (Caller α ε) := []
  locked : List Gate := []
  emptied : Nat := 0
  deriving DecidableEq, Repr

structure Traffic (ε : Type) where
  cache : Cache := {}
  prompts : Lane Config ε := {}
  fragments : Lane Fragment ε := {}
  /-- How many clears have begun. -/
  forgotten : Nat := 0
  deriving DecidableEq, Repr

section
variable {α : Type}

def retireGate (c : Cache) (slot : Slot α) (key : String) (gate : Gate) : Cache :=
  let shelf := slot.shelf c
  slot.put { shelf with gates := shelf.gates.retire key gate } c

def dropGate (c : Cache) (slot : Slot α) (gate : Gate) : Cache :=
  let shelf := slot.shelf c
  slot.put { shelf with gates := shelf.gates.drop gate } c

end

section
variable {α ε : Type}

def Caller.goTo (x : Caller α ε) (gate : Gate) (stage : Stage α ε) : Caller α ε :=
  { x with place := .holding gate stage }

/-- The next step of a caller. It has none while its gate is locked by another, or when it is done.
Looking for the gate before making one changes nothing, so that taking a gate is one step. -/
def Caller.step (slot : Slot α) (now : Moment) (c : Cache) (locked : List Gate) (x : Caller α ε) :
    Option (Cache × List Gate × Caller α ε) :=
  match x.place with
  | .arrived =>
    match c.find? slot x.key with
    | some a => some (c, locked, { x with place := .done (.ok a) })
    | none => some (c, locked, { x with place := .missed })
  | .missed =>
    some ((c.takeGate slot x.key).2, locked,
      { x.goTo (c.takeGate slot x.key).1 .waiting with took := now })
  | .holding gate .waiting =>
    if gate ∈ locked then none else some (c, gate :: locked, x.goTo gate .entered)
  | .holding gate .entered =>
    match c.find? slot x.key with
    | some a => some (c, locked, x.goTo gate (.leaving (.ok a)))
    | none => some (c, locked, x.goTo gate .absent)
  | .holding gate .absent =>
    some (c, locked, { x.goTo gate (.loading c.generation) with began := some now.forgotten })
  | .holding gate (.loading generation) =>
    match x.load with
    | .ok a => some (c, locked, x.goTo gate (.loaded generation a))
    | .error e => some (c, locked, x.goTo gate (.leaving (.error e)))
  | .holding gate (.loaded generation a) =>
    some (c.keep slot generation x.key a, locked, x.goTo gate (.leaving (.ok a)))
  | .holding gate (.leaving result) => some (c, locked.erase gate, x.goTo gate (.left result))
  | .holding gate (.left result) =>
    some (c.retireGate slot x.key gate, locked, x.goTo gate (.retired result))
  | .holding gate (.retired result) =>
    some (c.dropGate slot gate, locked, { x with place := .done result })
  | .done _ => none

inductive Caller.Step (slot : Slot α) (now : Moment) (c : Cache) (locked : List Gate) :
    Caller α ε → Cache → List Gate → Caller α ε → Prop
  | hit {key load took began a} : c.find? slot key = some a →
    Caller.Step slot now c locked ⟨key, load, .arrived, took, began⟩
      c locked ⟨key, load, .done (.ok a), took, began⟩
  | miss {key load took began} : c.find? slot key = none →
    Caller.Step slot now c locked ⟨key, load, .arrived, took, began⟩
      c locked ⟨key, load, .missed, took, began⟩
  | take {key load took began} :
    Caller.Step slot now c locked ⟨key, load, .missed, took, began⟩
      (c.takeGate slot key).2 locked
      ⟨key, load, .holding (c.takeGate slot key).1 .waiting, now, began⟩
  | lock {key load took began gate} : gate ∉ locked →
    Caller.Step slot now c locked ⟨key, load, .holding gate .waiting, took, began⟩
      c (gate :: locked) ⟨key, load, .holding gate .entered, took, began⟩
  | found {key load took began gate a} : c.find? slot key = some a →
    Caller.Step slot now c locked ⟨key, load, .holding gate .entered, took, began⟩
      c locked ⟨key, load, .holding gate (.leaving (.ok a)), took, began⟩
  | lack {key load took began gate} : c.find? slot key = none →
    Caller.Step slot now c locked ⟨key, load, .holding gate .entered, took, began⟩
      c locked ⟨key, load, .holding gate .absent, took, began⟩
  | start {key load took began gate} :
    Caller.Step slot now c locked ⟨key, load, .holding gate .absent, took, began⟩
      c locked ⟨key, load, .holding gate (.loading c.generation), took, some now.forgotten⟩
  | succeed {key took began gate n a} :
    Caller.Step slot now c locked ⟨key, .ok a, .holding gate (.loading n), took, began⟩
      c locked ⟨key, .ok a, .holding gate (.loaded n a), took, began⟩
  | fail {key took began gate n e} :
    Caller.Step slot now c locked ⟨key, .error e, .holding gate (.loading n), took, began⟩
      c locked ⟨key, .error e, .holding gate (.leaving (.error e)), took, began⟩
  | store {key load took began gate n a} :
    Caller.Step slot now c locked ⟨key, load, .holding gate (.loaded n a), took, began⟩
      (c.keep slot n key a) locked ⟨key, load, .holding gate (.leaving (.ok a)), took, began⟩
  | unlock {key load took began gate result} :
    Caller.Step slot now c locked ⟨key, load, .holding gate (.leaving result), took, began⟩
      c (locked.erase gate) ⟨key, load, .holding gate (.left result), took, began⟩
  | retire {key load took began gate result} :
    Caller.Step slot now c locked ⟨key, load, .holding gate (.left result), took, began⟩
      (c.retireGate slot key gate) locked ⟨key, load, .holding gate (.retired result), took, began⟩
  | drop {key load took began gate result} :
    Caller.Step slot now c locked ⟨key, load, .holding gate (.retired result), took, began⟩
      (c.dropGate slot gate) locked ⟨key, load, .done result, took, began⟩

theorem Caller.step_cases {slot : Slot α} {now : Moment} {c c' : Cache} {locked locked' : List Gate}
    {x x' : Caller α ε} (h : x.step slot now c locked = some (c', locked', x')) :
    Caller.Step slot now c locked x c' locked' x' := by
  obtain ⟨key, load, place, took, began⟩ := x
  cases place with
  | done result => cases h
  | arrived =>
    simp only [step] at h
    split at h
    · next a found =>
      cases h
      exact .hit found
    · next missing =>
      cases h
      exact .miss missing
  | missed =>
    simp only [step, Option.some.injEq, Prod.mk.injEq] at h
    obtain ⟨rfl, rfl, rfl⟩ := h
    exact .take
  | holding gate stage =>
    cases stage with
    | waiting =>
      simp only [step] at h
      split at h
      · cases h
      · next free =>
        cases h
        exact .lock free
    | entered =>
      simp only [step] at h
      split at h
      · next a found =>
        cases h
        exact .found found
      · next missing =>
        cases h
        exact .lack missing
    | absent =>
      cases h
      exact .start
    | loading n =>
      cases load with
      | ok a =>
        cases h
        exact .succeed
      | error e =>
        cases h
        exact .fail
    | loaded n a =>
      simp only [step, Option.some.injEq, Prod.mk.injEq] at h
      obtain ⟨rfl, rfl, rfl⟩ := h
      exact .store
    | leaving result =>
      cases h
      exact .unlock
    | left result =>
      simp only [step, Option.some.injEq, Prod.mk.injEq] at h
      obtain ⟨rfl, rfl, rfl⟩ := h
      exact .retire
    | retired result =>
      simp only [step, Option.some.injEq, Prod.mk.injEq] at h
      obtain ⟨rfl, rfl, rfl⟩ := h
      exact .drop

/-- What happens at one shelf: a call comes in, a caller goes on, an entry is put in, or a clear
that has got so far clears the gates. -/
inductive Lane.Move (α ε : Type) where
  | call (key : String) (load : Except ε α)
  | go (i : Nat)
  | insert (key : String) (a : α)
  | empty

/-- A move at a shelf, where `due` clears have got so far as to clear its gates. -/
def Lane.move (slot : Slot α) (forgotten due : Nat) (c : Cache) (lane : Lane α ε) :
    Lane.Move α ε → Option (Cache × Lane α ε)
  | .call key load => some (c, { lane with callers := lane.callers ++ [{ key, load }] })
  | .go i => do
    let x ← lane.callers[i]?
    let (c, locked, x) ← x.step slot ⟨forgotten, lane.emptied⟩ c lane.locked
    return (c, { lane with callers := lane.callers.set i x, locked })
  | .insert key a => some (c.insert slot key a, lane)
  | .empty =>
    if lane.emptied < due then
      some (c.clearGates slot, { lane with emptied := lane.emptied + 1 })
    else none

inductive Lane.Step (slot : Slot α) (forgotten due : Nat) (c : Cache) (lane : Lane α ε) :
    Lane.Move α ε → Cache → Lane α ε → Prop
  | call {key load} : Lane.Step slot forgotten due c lane (.call key load)
      c { lane with callers := lane.callers ++ [⟨key, load, .arrived, {}, none⟩] }
  | go {i x c' locked x'} : lane.callers[i]? = some x →
    x.step slot ⟨forgotten, lane.emptied⟩ c lane.locked = some (c', locked, x') →
      Lane.Step slot forgotten due c lane (.go i)
        c' { lane with callers := lane.callers.set i x', locked }
  | insert {key a} : Lane.Step slot forgotten due c lane (.insert key a) (c.insert slot key a) lane
  | empty : lane.emptied < due → Lane.Step slot forgotten due c lane .empty
      (c.clearGates slot) { lane with emptied := lane.emptied + 1 }

theorem Lane.move_cases {slot : Slot α} {forgotten due : Nat} {c c' : Cache} {lane lane' : Lane α ε}
    {m : Lane.Move α ε} (h : lane.move slot forgotten due c m = some (c', lane')) :
    Lane.Step slot forgotten due c lane m c' lane' := by
  cases m with
  | call key load =>
    cases h
    exact .call
  | insert key a =>
    cases h
    exact .insert
  | empty =>
    simp only [move] at h
    split at h
    · next begun =>
      cases h
      exact .empty begun
    · cases h
  | go i =>
    simp only [move, Option.bind_eq_bind, Option.bind_eq_some_iff] at h
    obtain ⟨x, hi, ⟨_, _, x'⟩, hstep, hrest⟩ := h
    cases hrest
    exact .go hi hstep

end

/-- A clear forgets the entries, then clears the gates of the one shelf and of the other. -/
inductive Traffic.Move (ε : Type) where
  | prompts (m : Lane.Move Config ε)
  | fragments (m : Lane.Move Fragment ε)
  | forget

namespace Traffic
variable {ε : Type}

def step (t : Traffic ε) : Traffic.Move ε → Option (Traffic ε)
  | .prompts m =>
    (t.prompts.move promptSlot t.forgotten t.forgotten t.cache m).map fun (cache, prompts) =>
      { t with cache, prompts }
  | .fragments m =>
    (t.fragments.move fragmentSlot t.forgotten t.prompts.emptied t.cache m).map
      fun (cache, fragments) => { t with cache, fragments }
  | .forget => some { t with cache := t.cache.forget, forgotten := t.forgotten + 1 }

def run (t : Traffic ε) (ms : List (Traffic.Move ε)) : Option (Traffic ε) := ms.foldlM step t

/-- A cache that nobody uses yet. -/
def start (c : Cache) : Traffic ε := { cache := c }

theorem run_cons {t u : Traffic ε} {m : Traffic.Move ε} {ms : List (Traffic.Move ε)} :
    t.run (m :: ms) = some u ↔ ∃ t', t.step m = some t' ∧ t'.run ms = some u := by
  simp only [run, List.foldlM_cons]
  exact Option.bind_eq_some_iff

theorem run_clear (t : Traffic ε) (prompts : t.prompts.emptied = t.forgotten)
    (fragments : t.fragments.emptied = t.forgotten) :
    (t.run [.forget, .prompts .empty, .fragments .empty]).map Traffic.cache =
      some t.cache.clear := by
  simp [run, step, Lane.move, prompts, fragments, clear]

end Traffic

section
variable {α : Type} {slot : Slot α}

theorem shelf_takeGate (lawful : slot.Lawful) (c : Cache) (key : String) :
    slot.shelf (c.takeGate slot key).2 =
      { slot.shelf c with gates := ((slot.shelf c).gates.take key).2 } := by
  simp only [takeGate, lawful.shelf_put]

theorem shelf_retireGate (lawful : slot.Lawful) (c : Cache) (key : String) (gate : Gate) :
    slot.shelf (c.retireGate slot key gate) =
      { slot.shelf c with gates := (slot.shelf c).gates.retire key gate } := by
  simp only [retireGate, lawful.shelf_put]

theorem shelf_dropGate (lawful : slot.Lawful) (c : Cache) (gate : Gate) :
    slot.shelf (c.dropGate slot gate) =
      { slot.shelf c with gates := (slot.shelf c).gates.drop gate } := by
  simp only [dropGate, lawful.shelf_put]

theorem shelf_insert (lawful : slot.Lawful) (c : Cache) (key : String) (a : α) :
    slot.shelf (c.insert slot key a) =
      { slot.shelf c with entries := (slot.shelf c).entries.insert key a } := by
  simp only [insert, lawful.shelf_put]

theorem shelf_clearGates (lawful : slot.Lawful) (c : Cache) :
    slot.shelf (c.clearGates slot) =
      { slot.shelf c with gates := (slot.shelf c).gates.clear } := by
  simp only [clearGates, lawful.shelf_put]

/-- Giving a gate back is ridding the table of it if it is idle, then letting it go. -/
theorem releaseGate_eq (lawful : slot.Lawful) (c : Cache) (key : String) (gate : Gate) :
    c.releaseGate slot key gate = (c.retireGate slot key gate).dropGate slot gate := by
  simp only [releaseGate, retireGate, dropGate, Gates.release, lawful.shelf_put, lawful.put_put]

end

section
variable {α ε S : Type} {slot : Slot α} {c : Cache} {locked : List Gate} {x : Caller α ε}

def Caller.steps (slot : Slot α) (now : Moment) :
    Nat → Cache → List Gate → Caller α ε → Option (Cache × List Gate × Caller α ε)
  | 0, c, locked, x => some (c, locked, x)
  | n + 1, c, locked, x =>
    (x.step slot now c locked).bind fun (c, locked, x) => x.steps slot now n c locked

theorem steps_getOrLoad_of_find? {key : String} {a : α} {load : Run S (Except ε α)}
    {r : Except ε α} {s : Shared S} {now : Moment} (h : s.cache.find? slot key = some a) :
    (getOrLoad slot key load).run s = (.ok a, s) ∧
      Caller.steps slot now 1 s.cache locked { key, load := r } =
        some (s.cache, locked, { key, load := r, place := .done (.ok a) }) := by
  refine ⟨run_getOrLoad_of_find? h, ?_⟩
  simp only [Caller.steps, Caller.step, h, Option.bind_some]

/-- A caller that is alone takes its steps until its loader runs, the loader does to the cache what
it does, and the caller takes its other steps. Result and cache are those of `getOrLoad`. -/
theorem steps_getOrLoad (lawful : slot.Lawful) {key : String} {load : Run S (Except ε α)}
    {s s' : Shared S} {r : Except ε α} {now : Moment} (missing : s.cache.find? slot key = none)
    (free : (s.cache.takeGate slot key).1 ∉ locked)
    (loads : load.run { s with cache := (s.cache.takeGate slot key).2 } = (r, s')) :
    let gate := (s.cache.takeGate slot key).1
    let x : Caller α ε := { key, load := r, took := now, began := some now.forgotten }
    Caller.steps slot now 5 s.cache locked { key, load := r } =
        some ((s.cache.takeGate slot key).2, gate :: locked,
          x.goTo gate (.loading s.cache.generation)) ∧
      ∃ n, (x.goTo gate (.loading s.cache.generation)).steps slot now n s'.cache (gate :: locked) =
        some (((getOrLoad slot key load).run s).2.cache, locked,
          { x with place := .done ((getOrLoad slot key load).run s).1 }) := by
  intro gate x
  have held := (find?_takeGate lawful s.cache key).trans missing
  have generation : (s.cache.takeGate slot key).2.generation = s.cache.generation :=
    lawful.generation_put _ _
  constructor
  · simp [Caller.steps, Caller.step, Caller.goTo, missing, held, free, generation, gate, x]
  cases r with
  | ok a =>
    refine ⟨5, ?_⟩
    rw [run_getOrLoad_of_none missing (run_loadBehindGate_ok held loads), generation]
    simp [Caller.steps, Caller.step, Caller.goTo, releaseGate_eq lawful, gate, x]
  | error e =>
    refine ⟨4, ?_⟩
    rw [run_getOrLoad_of_none missing (run_loadBehindGate_error held loads)]
    simp [Caller.steps, Caller.step, Caller.goTo, releaseGate_eq lawful, gate, x]

end

/-- What is seen of the traffic from one shelf. -/
structure View (α ε : Type) where
  cache : Cache
  forgotten : Nat
  lane : Lane α ε

inductive Event (α ε : Type) where
  | move (m : Lane.Move α ε)
  | forget
  /-- Something at the other shelf. -/
  | elsewhere

inductive View.Step {α ε : Type} (slot : Slot α) : View α ε → Event α ε → View α ε → Prop
  | move {v : View α ε} {m : Lane.Move α ε} {due : Nat} {c : Cache} {lane : Lane α ε} :
    v.lane.move slot v.forgotten due v.cache m = some (c, lane) →
      View.Step slot v (.move m) ⟨c, v.forgotten, lane⟩
  | forget {v : View α ε} {c : Cache} :
    slot.shelf c = { slot.shelf v.cache with entries := Dict.empty } →
      c.generation = v.cache.generation + 1 →
        View.Step slot v .forget ⟨c, v.forgotten + 1, v.lane⟩
  | elsewhere {v : View α ε} {c : Cache} :
    slot.shelf c = slot.shelf v.cache → c.generation = v.cache.generation →
      View.Step slot v .elsewhere ⟨c, v.forgotten, v.lane⟩

inductive View.Run {α ε : Type} (slot : Slot α) : View α ε → List (Event α ε) → View α ε → Prop
  | nil {v : View α ε} : View.Run slot v [] v
  | cons {v v' w : View α ε} {e : Event α ε} {es : List (Event α ε)} :
    View.Step slot v e v' → View.Run slot v' es w → View.Run slot v (e :: es) w

theorem View.Run.keeps {α ε : Type} {slot : Slot α} {I : View α ε → Prop} {P : Event α ε → Prop}
    (step : ∀ v e v', P e → View.Step slot v e v' → I v → I v') {v w : View α ε}
    {es : List (Event α ε)} (h : View.Run slot v es w) (only : ∀ e ∈ es, P e) (start : I v) :
    I w := by
  induction h with
  | nil => exact start
  | cons first _ ih =>
    have ⟨now, later⟩ := List.forall_mem_cons.1 only
    exact ih later (step _ _ _ now first start)

/-- A step at one shelf changes that shelf of the cache and nothing else. -/
theorem exists_put_of_step {α ε : Type} {slot : Slot α} (lawful : slot.Lawful) {now : Moment}
    {c c' : Cache} {locked locked' : List Gate} {x x' : Caller α ε}
    (h : x.step slot now c locked = some (c', locked', x')) : ∃ shelf, c' = slot.put shelf c := by
  have same : c = slot.put (slot.shelf c) c := (lawful.put_shelf c).symm
  cases Caller.step_cases h with
  | take | retire | drop => exact ⟨_, rfl⟩
  | store =>
    simp only [keep]
    split
    · exact ⟨_, rfl⟩
    · exact ⟨_, same⟩
  | _ => exact ⟨_, same⟩

theorem exists_put_of_move {α ε : Type} {slot : Slot α} (lawful : slot.Lawful)
    {forgotten due : Nat} {c c' : Cache} {lane lane' : Lane α ε} {m : Lane.Move α ε}
    (h : lane.move slot forgotten due c m = some (c', lane')) : ∃ shelf, c' = slot.put shelf c := by
  cases Lane.move_cases h with
  | call => exact ⟨_, (lawful.put_shelf c).symm⟩
  | insert | empty => exact ⟨_, rfl⟩
  | go _ hstep => exact exists_put_of_step lawful hstep

namespace Traffic
variable {ε : Type} {t u : Traffic ε} {m : Traffic.Move ε} {ms : List (Traffic.Move ε)}

def atPrompts (t : Traffic ε) : View Config ε := ⟨t.cache, t.forgotten, t.prompts⟩

def atFragments (t : Traffic ε) : View Fragment ε := ⟨t.cache, t.forgotten, t.fragments⟩

def Move.atPrompts : Traffic.Move ε → Event Config ε
  | .prompts m => .move m
  | .fragments _ => .elsewhere
  | .forget => .forget

def Move.atFragments : Traffic.Move ε → Event Fragment ε
  | .prompts _ => .elsewhere
  | .fragments m => .move m
  | .forget => .forget

theorem step_atPrompts (h : t.step m = some u) :
    View.Step promptSlot t.atPrompts m.atPrompts u.atPrompts := by
  cases m with
  | prompts m =>
    obtain ⟨⟨c, lane⟩, hmove, rfl⟩ := Option.map_eq_some_iff.1 h
    exact .move hmove
  | fragments m =>
    obtain ⟨⟨c, lane⟩, hmove, rfl⟩ := Option.map_eq_some_iff.1 h
    obtain ⟨shelf, rfl⟩ := exists_put_of_move fragmentSlot_lawful hmove
    exact .elsewhere rfl rfl
  | forget =>
    cases h
    exact .forget rfl rfl

theorem step_atFragments (h : t.step m = some u) :
    View.Step fragmentSlot t.atFragments m.atFragments u.atFragments := by
  cases m with
  | prompts m =>
    obtain ⟨⟨c, lane⟩, hmove, rfl⟩ := Option.map_eq_some_iff.1 h
    obtain ⟨shelf, rfl⟩ := exists_put_of_move promptSlot_lawful hmove
    exact .elsewhere rfl rfl
  | fragments m =>
    obtain ⟨⟨c, lane⟩, hmove, rfl⟩ := Option.map_eq_some_iff.1 h
    exact .move hmove
  | forget =>
    cases h
    exact .forget rfl rfl

theorem run_seen (h : t.run ms = some u) :
    View.Run promptSlot t.atPrompts (ms.map Move.atPrompts) u.atPrompts ∧
      View.Run fragmentSlot t.atFragments (ms.map Move.atFragments) u.atFragments := by
  induction ms generalizing t with
  | nil =>
    cases h
    exact ⟨.nil, .nil⟩
  | cons m ms ih =>
    obtain ⟨t', first, rest⟩ := run_cons.1 h
    have ⟨prompts, fragments⟩ := ih rest
    exact ⟨.cons (step_atPrompts first) prompts, .cons (step_atFragments first) fragments⟩

end Traffic
end PromptAssembly.Cache
