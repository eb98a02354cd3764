import Mathlib.Data.List.Induction
import PromptAssembly.Proofs.Cache.Handles
import PromptAssembly.Proofs.Cache.SingleFlight

/-!
# Gates left behind

A caller gives its gate back in two steps: it rids the table of the gate if nobody else holds it, and
then lets go. Two callers of a key who are between these steps at one time each saw the gate in the
other's hands, so that it stays in the table when both have let go (`Leftovers.stays`). There is no
other way for a gate to be left behind when no call is in progress (`Leftovers.source`).
-/
namespace PromptAssembly.Gates

/-- Accounts of callers who may have been rid of their gate's entry: it is there for sure where two
of them hold the gate. -/
structure Watched (gates : Gates) (handles : List (Option Handle)) (cleared : Nat) : Prop
    extends Accounts gates handles cleared where
  paired {i j : Nat} {h h' : Handle} : i ≠ j → handles[i]? = some (some h) →
    handles[j]? = some (some h') → h.gate = h'.gate → h.cleared = cleared →
      gates.table.get? h.key = some h.gate

namespace Watched
variable {gates : Gates} {handles : List (Option Handle)} {h : Handle} {gate : Gate}
  {key k : String} {i cleared : Nat}

theorem start : Watched {} [] 0 where
  toAccounts := .start
  paired := by simp

theorem exists_other (a : Accounts gates handles cleared) (hi : handles[i]? = some (some h))
    (often : gates.held.count h.gate ≠ 1) :
    ∃ j h', j ≠ i ∧ handles[j]? = some (some h') ∧ h'.gate = h.gate := by
  have mine := handlesOn_pos.2 ⟨h, List.mem_of_getElem? hi, rfl⟩
  have rest := (a.drop hi).counted h.gate
  rw [Gates.drop, List.count_erase_self] at rest
  have count := a.counted h.gate
  have more : 0 < handlesOn h.gate (handles.set i none) := by omega
  obtain ⟨h', hh', on⟩ := handlesOn_pos.1 more
  obtain ⟨j, hj⟩ := List.mem_iff_getElem?.1 hh'
  rcases Cache.getElem?_set_cases hj with ⟨-, gone⟩ | ⟨other, hj⟩
  · cases gone
  · exact ⟨j, h', other, hj, on⟩

theorem take (w : Watched gates handles cleared) (hi : handles[i]? = some none) (key : String) :
    Watched (gates.take key).2 (handles.set i (some ⟨key, (gates.take key).1, cleared⟩)) cleared where
  toAccounts := w.toAccounts.take hi key
  paired ne hp hq on now := by
    rcases Cache.getElem?_set_cases hp with ⟨-, new⟩ | ⟨-, old⟩
    · cases new
      exact get?_take_self
    · rcases Cache.getElem?_set_cases hq with ⟨-, new⟩ | ⟨-, old'⟩
      · cases new
        obtain ⟨rfl, -⟩ := w.handle_of_take (List.mem_of_getElem? old) on
        exact on ▸ get?_take_self
      · exact get?_take_of_get? (w.paired ne old old' on now)

theorem retire (w : Watched gates handles cleared) (key : String) (gate : Gate) :
    Watched (gates.retire key gate) handles cleared where
  toAccounts := w.toAccounts.retire key gate
  paired {i j h h'} ne hp hq on now := by
    have known := w.paired ne hp hq on now
    refine get?_retire_eq_some_iff.2 ⟨known, fun ⟨hkey, idle⟩ => ?_⟩
    obtain ⟨known', once⟩ := isIdle_iff.1 idle
    rw [hkey, known'] at known
    obtain rfl := Option.some.inj known
    have twice : 2 ≤ handlesOn h.gate handles :=
      Cache.two_le_countP hp hq ne (by simp) (by simp [on])
    rw [← w.counted, once] at twice
    omega

theorem drop (w : Watched gates handles cleared) (hi : handles[i]? = some (some h)) :
    Watched (gates.drop h.gate) (handles.set i none) cleared where
  toAccounts := w.toAccounts.drop hi
  paired ne hp hq on now := by
    rcases Cache.getElem?_set_cases hp with ⟨-, gone⟩ | ⟨-, old⟩
    · cases gone
    · rcases Cache.getElem?_set_cases hq with ⟨-, gone⟩ | ⟨-, old'⟩
      · cases gone
      · exact w.paired ne old old' on now

theorem clear (w : Watched gates handles cleared) :
    Watched gates.clear handles (cleared + 1) where
  toAccounts := w.toAccounts.clear
  paired _ hp _ _ now :=
    absurd (now ▸ w.past (List.mem_of_getElem? hp)) (Nat.not_succ_le_self _)

theorem join (w : Watched gates handles cleared) : Watched gates (handles ++ [none]) cleared where
  toAccounts := w.toAccounts.join
  paired ne hp hq on now := by
    have old := (Cache.getElem?_concat_cases hp).resolve_right nofun
    have old' := (Cache.getElem?_concat_cases hq).resolve_right nofun
    exact w.paired ne old old' on now

end Watched
end PromptAssembly.Gates

namespace PromptAssembly.Cache
open Gates (Handle)
variable {α ε : Type}

namespace Caller
variable {x : Caller α ε} {gate : Gate}

def handle? (x : Caller α ε) : Option Handle :=
  x.gate?.map fun gate => ⟨x.key, gate, x.took.emptied⟩

/-- The gate that a caller still holds after it has looked whether anybody else does. -/
def retired? (x : Caller α ε) : Option Gate :=
  match x.place with
  | .holding gate (.retired _) => some gate
  | _ => none

def finish (x : Caller α ε) (result : Except ε α) : Caller α ε := { x with place := .done result }

theorem live?_or_retired? (h : x.gate? = some gate) : x.live? = some gate ∨ x.retired? = some gate := by
  obtain ⟨key, load, place, took, began⟩ := x
  cases place with
  | holding g stage =>
    cases stage with
    | retired result => exact .inr h
    | _ => exact .inl h
  | _ => cases h

theorem handle?_of_gate? (h : x.gate? = some gate) :
    x.handle? = some ⟨x.key, gate, x.took.emptied⟩ := by
  rw [handle?, h]
  rfl

end Caller

namespace Lane
variable {lane : Lane α ε} {x x' : Caller α ε} {key : String} {gate : Gate} {i : Nat}

def handles (lane : Lane α ε) : List (Option Handle) := lane.callers.map Caller.handle?

/-- A caller who holds this gate has yet to look whether anybody else does. -/
def Wants (lane : Lane α ε) (gate : Gate) : Prop :=
  ∃ (i : Nat) (x : Caller α ε), lane.callers[i]? = some x ∧ x.live? = some gate

/-- Two callers of a key are about to let go of one gate, after each has looked whether anybody else
holds it. -/
def Overlap (lane : Lane α ε) (key : String) (gate : Gate) : Prop :=
  ∃ (i j : Nat) (x y : Caller α ε), i ≠ j ∧ lane.callers[i]? = some x ∧ lane.callers[j]? = some y ∧
    x.key = key ∧ y.key = key ∧ x.retired? = some gate ∧ y.retired? = some gate

/-- No call is in progress. -/
def AtRest (lane : Lane α ε) : Prop := ∀ x ∈ lane.callers, ∃ result, x.place = .done result

theorem AtRest.not_wants (rest : lane.AtRest) : ¬ lane.Wants gate := by
  rintro ⟨i, x, hi, hx⟩
  obtain ⟨result, place⟩ := rest x (List.mem_of_getElem? hi)
  simp [Caller.live?, place] at hx

theorem getElem?_handles (hi : lane.callers[i]? = some x) :
    lane.handles[i]? = some x.handle? := by
  rw [handles, List.getElem?_map, hi]
  rfl

theorem exists_caller {h : Handle} (hi : lane.handles[i]? = some (some h)) :
    ∃ x, lane.callers[i]? = some x ∧ x.handle? = some h := by
  rwa [handles, List.getElem?_map, Option.map_eq_some_iff] at hi

theorem handles_set (callers : List (Caller α ε)) (i : Nat) (x' : Caller α ε) :
    (callers.set i x').map Caller.handle? = (callers.map Caller.handle?).set i x'.handle? :=
  List.map_set

theorem handles_set_same (hi : lane.callers[i]? = some x) (handle : x'.handle? = x.handle?) :
    (lane.callers.set i x').map Caller.handle? = lane.handles := by
  obtain ⟨bound, rfl⟩ := List.getElem?_eq_some_iff.1 hi
  rw [handles_set, handle, ← List.getElem_map Caller.handle? (h := by simpa using bound)]
  exact List.set_getElem_self _

theorem Wants.set {callers : List (Caller α ε)} {locked locked' : List Gate} {n n' : Nat}
    (h : Wants ⟨callers, locked, n⟩ gate) (hi : callers[i]? = some x)
    (still : x.live? = some gate → x'.live? = some gate) :
    Wants ⟨callers.set i x', locked', n'⟩ gate := by
  obtain ⟨j, y, hj, hy⟩ := h
  by_cases same : j = i
  · subst same
    obtain rfl : x = y := Option.some.inj (hi.symm.trans hj)
    obtain ⟨bound, -⟩ := List.getElem?_eq_some_iff.1 hi
    exact ⟨j, x', List.getElem?_set_self bound, still hy⟩
  · exact ⟨j, y, (List.getElem?_set_ne (Ne.symm same)).trans hj, hy⟩

end Lane

def View.Watched (slot : Slot α) (v : View α ε) : Prop :=
  Gates.Watched (slot.shelf v.cache).gates v.lane.handles v.lane.emptied

namespace View.Watched
variable {slot : Slot α} {v v' : View α ε} {c c' : Cache} {lane : Lane α ε} {n i : Nat}
  {x x' : Caller α ε} {locked : List Gate}

theorem start (fresh : (slot.shelf c).gates = {}) :
    View.Watched slot (⟨c, 0, {}⟩ : View α ε) := by
  rw [View.Watched, fresh]
  exact .start

theorem swap (w : View.Watched slot ⟨c, n, lane⟩) (hi : lane.callers[i]? = some x)
    (handle : x'.handle? = x.handle?) (gates : (slot.shelf c').gates = (slot.shelf c).gates) :
    View.Watched slot ⟨c', n, { lane with callers := lane.callers.set i x', locked }⟩ := by
  rw [View.Watched, Lane.handles, Lane.handles_set_same hi handle, gates]
  exact w

theorem go (lawful : slot.Lawful) (w : View.Watched slot ⟨c, n, lane⟩)
    (hi : lane.callers[i]? = some x)
    (hstep : x.step slot ⟨n, lane.emptied⟩ c lane.locked = some (c', locked, x')) :
    View.Watched slot ⟨c', n, { lane with callers := lane.callers.set i x', locked }⟩ := by
  have handle := Lane.getElem?_handles hi
  cases Caller.step_cases hstep with
  | hit | miss | lock | found | lack | start | succeed | fail | unlock => exact w.swap hi rfl rfl
  | store => exact w.swap hi rfl (Guarded.gates_keep lawful _ _ _ _)
  | take =>
    rw [View.Watched, Lane.handles, Lane.handles_set, shelf_takeGate lawful]
    exact Gates.Watched.take w handle _
  | @retire key load took began gate result =>
    have same : (lane.callers.set i ⟨key, load, .holding gate (.retired result), took, began⟩).map
        Caller.handle? = lane.handles := Lane.handles_set_same hi rfl
    rw [View.Watched, Lane.handles, same, shelf_retireGate lawful]
    exact Gates.Watched.retire w _ _
  | drop =>
    rw [View.Watched, Lane.handles, Lane.handles_set, shelf_dropGate lawful]
    exact Gates.Watched.drop w handle

theorem step (lawful : slot.Lawful) {e : Event α ε} (hstep : View.Step slot v e v')
    (w : View.Watched slot v) : View.Watched slot v' := by
  cases hstep with
  | move hmove =>
    cases Lane.move_cases hmove with
    | call =>
      rw [View.Watched, Lane.handles, List.map_append]
      exact Gates.Watched.join w
    | go hi hstep => exact w.go lawful hi hstep
    | insert =>
      rw [View.Watched, shelf_insert lawful]
      exact w
    | empty =>
      rw [View.Watched, shelf_clearGates lawful]
      exact Gates.Watched.clear w
  | forget hshelf | elsewhere hshelf =>
    rw [View.Watched, hshelf]
    exact w

end View.Watched

section
variable {slot : Slot α} {v v' : View α ε} {c c' : Cache} {lane : Lane α ε} {n i : Nat}
  {x x' : Caller α ε} {locked : List Gate} {key : String} {gate : Gate}

/-- A caller that looks whether anybody else holds its gate, and leaves it in the table, leaves it to
one who has yet to look, or to one who has looked already. -/
theorem wants_or_overlap_of_retire (w : View.Watched slot ⟨c, n, lane⟩)
    (hi : lane.callers[i]? = some x) (live : x.live? = some gate) (key : x'.key = x.key)
    (retired : x'.retired? = some gate)
    (stays : ((slot.shelf c).gates.retire x.key gate).table.get? x.key = some gate) :
    Lane.Wants { lane with callers := lane.callers.set i x', locked } gate ∨
      Lane.Overlap { lane with callers := lane.callers.set i x', locked } x.key gate := by
  obtain ⟨known, busy⟩ := Gates.get?_retire_eq_some_iff.1 stays
  have handle := Lane.getElem?_handles hi
  rw [Caller.handle?_of_gate? (Caller.gate?_of_live? live)] at handle
  have often : (slot.shelf c).gates.held.count gate ≠ 1 := fun once =>
    busy ⟨rfl, Gates.isIdle_iff.2 ⟨known, once⟩⟩
  obtain ⟨j, h, other, hj, rfl⟩ := Gates.Watched.exists_other w.toAccounts handle often
  obtain ⟨y, hy, hhandle⟩ := Lane.exists_caller hj
  obtain ⟨g, hg, rfl⟩ := Option.map_eq_some_iff.1 hhandle
  have still := (List.getElem?_set_ne (a := x') (Ne.symm other)).trans hy
  rcases Caller.live?_or_retired? hg with ylive | yretired
  · exact .inl ⟨j, y, still, ylive⟩
  · obtain ⟨bound, -⟩ := List.getElem?_eq_some_iff.1 hi
    have same := (w.same (List.mem_of_getElem? hj) (List.mem_of_getElem? handle) rfl).1
    exact .inr ⟨i, j, x', y, Ne.symm other, List.getElem?_set_self bound, still, key, same, retired,
      yretired⟩

/-- A gate that is in the table after a step has a caller who has yet to look at it, or two who are
about to let go of it, or it was in the table before and wanted no more. -/
def Explained (slot : Slot α) (v v' : View α ε) (key : String) (gate : Gate) : Prop :=
  v'.lane.Wants gate ∨ v'.lane.Overlap key gate ∨
    ((slot.shelf v.cache).gates.table.get? key = some gate ∧ ¬ v.lane.Wants gate ∧
      v'.lane.emptied = v.lane.emptied)

theorem Explained.of_before (before : (slot.shelf v.cache).gates.table.get? key = some gate)
    (still : v.lane.Wants gate → v'.lane.Wants gate) (same : v'.lane.emptied = v.lane.emptied) :
    Explained slot v v' key gate := by
  by_cases wants : v.lane.Wants gate
  · exact .inl (still wants)
  · exact .inr (.inr ⟨before, wants, same⟩)

theorem explained_of_go (lawful : slot.Lawful) (w : View.Watched slot ⟨c, n, lane⟩)
    (hi : lane.callers[i]? = some x)
    (hstep : x.step slot ⟨n, lane.emptied⟩ c lane.locked = some (c', locked, x'))
    (known : (slot.shelf c').gates.table.get? key = some gate) :
    Explained slot ⟨c, n, lane⟩
      ⟨c', n, { lane with callers := lane.callers.set i x', locked }⟩ key gate := by
  have kept (before : (slot.shelf c).gates.table.get? key = some gate)
      (still : x.live? = some gate → x'.live? = some gate) :
      Explained slot ⟨c, n, lane⟩
        ⟨c', n, { lane with callers := lane.callers.set i x', locked }⟩ key gate :=
    .of_before before (fun wants => wants.set hi still) rfl
  obtain ⟨bound, -⟩ := List.getElem?_eq_some_iff.1 hi
  cases Caller.step_cases hstep with
  | hit | miss | lock | found | lack | start | succeed | fail | unlock => exact kept known id
  | store => exact kept (Guarded.gates_keep lawful _ _ _ _ ▸ known) id
  | drop =>
    rw [shelf_dropGate lawful] at known
    exact kept known nofun
  | @take k =>
    rw [shelf_takeGate lawful] at known
    by_cases same : key = k
    · rw [same, Gates.get?_take_self] at known
      exact .inl ⟨i, _, List.getElem?_set_self bound, known⟩
    · rw [Gates.get?_take_of_ne same] at known
      exact kept known nofun
  | @retire k _ _ _ g =>
    rw [shelf_retireGate lawful] at known
    have before := (Gates.get?_retire_eq_some_iff.1 known).1
    by_cases mine : g = gate
    · subst mine
      have same : k = key := (w.entry before (List.mem_of_getElem? (Lane.getElem?_handles hi))).1
      subst same
      refine Or.imp_right .inl ?_
      exact wants_or_overlap_of_retire w hi rfl rfl rfl known
    · exact kept before fun live => absurd (Option.some.inj live) mine

theorem explained_of_step (lawful : slot.Lawful) {e : Event α ε} (hstep : View.Step slot v e v')
    (w : View.Watched slot v) (known : (slot.shelf v'.cache).gates.table.get? key = some gate) :
    Explained slot v v' key gate := by
  cases hstep with
  | move hmove =>
    cases Lane.move_cases hmove with
    | go hi hstep => exact explained_of_go lawful w hi hstep known
    | call =>
      refine .of_before known (fun ⟨i, x, hi, live⟩ => ⟨i, x, ?_, live⟩) rfl
      exact List.getElem?_append_left (List.getElem?_eq_some_iff.1 hi).1 ▸ hi
    | insert =>
      rw [shelf_insert lawful] at known
      exact .of_before known id rfl
    | empty =>
      rw [shelf_clearGates lawful] at known
      cases known
  | forget hshelf | elsewhere hshelf =>
    rw [hshelf] at known
    exact .of_before known id rfl

end

/-- Two callers who are about to let go of one gate can both go on, and the gate is in the table when
they have. -/
theorem exists_drops {slot : Slot α} (lawful : slot.Lawful) {c : Cache} {lane : Lane α ε} {i j : Nat}
    {x y : Caller α ε} {gate : Gate} {r r' : Except ε α} (ne : i ≠ j)
    (hi : lane.callers[i]? = some x) (hj : lane.callers[j]? = some y)
    (hx : x.place = .holding gate (.retired r)) (hy : y.place = .holding gate (.retired r'))
    (forgotten due : Nat) : ∃ c₁ lane₁ c₂ lane₂,
      lane.move slot forgotten due c (.go i) = some (c₁, lane₁) ∧
      lane₁.move slot forgotten due c₁ (.go j) = some (c₂, lane₂) ∧
      lane₂.callers = (lane.callers.set i (x.finish r)).set j (y.finish r') ∧
      (slot.shelf c₂).gates.table = (slot.shelf c).gates.table := by
  refine ⟨c.dropGate slot gate,
    { lane with callers := lane.callers.set i (x.finish r) },
    (c.dropGate slot gate).dropGate slot gate,
    { lane with callers := (lane.callers.set i (x.finish r)).set j (y.finish r') }, ?_, ?_, rfl, ?_⟩
  · simp [Lane.move, hi, Caller.step, hx, Caller.finish]
  · simp [Lane.move, List.getElem?_set_ne ne, hj, Caller.step, hy, Caller.finish]
  · rw [shelf_dropGate lawful, shelf_dropGate lawful]
    rfl

namespace Traffic
variable {ε : Type}

theorem run_concat {t u : Traffic ε} {ms : List (Traffic.Move ε)} {m : Traffic.Move ε} :
    t.run (ms ++ [m]) = some u ↔ ∃ t', t.run ms = some t' ∧ t'.step m = some u := by
  simp only [run, List.foldlM_append, List.foldlM_cons, List.foldlM_nil, bind_pure]
  exact Option.bind_eq_some_iff

end Traffic

/-- At some time in this run, and since the gates of the shelf were last cleared, two callers were
about to let go of this gate. -/
def Overlapped (see : Traffic ε → View α ε) (t : Traffic ε) (ms : List (Traffic.Move ε))
    (u : Traffic ε) (key : String) (gate : Gate) : Prop :=
  ∃ ms₁ ms₂ t₁, ms = ms₁ ++ ms₂ ∧ t.run ms₁ = some t₁ ∧ t₁.run ms₂ = some u ∧
    (see t₁).lane.emptied = (see u).lane.emptied ∧ (see t₁).lane.Overlap key gate

theorem Overlapped.concat {see : Traffic ε → View α ε} {t u u' : Traffic ε}
    {ms : List (Traffic.Move ε)} {m : Traffic.Move ε} {key : String} {gate : Gate}
    (h : Overlapped see t ms u key gate) (hstep : u.step m = some u')
    (same : (see u').lane.emptied = (see u).lane.emptied) :
    Overlapped see t (ms ++ [m]) u' key gate := by
  obtain ⟨ms₁, ms₂, t₁, rfl, first, second, emptied, overlap⟩ := h
  exact ⟨ms₁, ms₂ ++ [m], t₁, by simp, first, Traffic.run_concat.2 ⟨u, second, hstep⟩,
    emptied.trans same.symm, overlap⟩

theorem explained_of_run {slot : Slot α} (lawful : slot.Lawful) {see : Traffic ε → View α ε}
    (sees : ∀ t m u, t.step m = some u → ∃ e, View.Step slot (see t) e (see u))
    {t u : Traffic ε} {ms : List (Traffic.Move ε)} (start : View.Watched slot (see t))
    (fresh : (slot.shelf (see t).cache).gates.table = Dict.empty) (hrun : t.run ms = some u) :
    View.Watched slot (see u) ∧ ∀ key gate,
      (slot.shelf (see u).cache).gates.table.get? key = some gate →
        (see u).lane.Wants gate ∨ Overlapped see t ms u key gate := by
  induction ms using List.reverseRecOn generalizing u with
  | nil =>
    cases hrun
    refine ⟨start, fun key gate known => ?_⟩
    rw [fresh] at known
    cases known
  | append_singleton ms m ih =>
    obtain ⟨t', before, hstep⟩ := Traffic.run_concat.1 hrun
    obtain ⟨watched, explained⟩ := ih before
    obtain ⟨e, seen⟩ := sees t' m u hstep
    refine ⟨watched.step lawful seen, fun key gate known => ?_⟩
    rcases explained_of_step lawful seen watched known with wants | overlap | ⟨old, unwanted, same⟩
    · exact .inl wants
    · exact .inr ⟨ms ++ [m], [], u, (List.append_nil _).symm, hrun, rfl, rfl, overlap⟩
    · exact .inr (((explained key gate old).resolve_left unwanted).concat hstep same)

/-- What is left of the gates of a shelf when the callers have gone. -/
structure Leftovers (slot : Slot α) (see : Traffic ε → View α ε) (t : Traffic ε)
    (ms : List (Traffic.Move ε)) (u : Traffic ε) : Prop where
  /-- A gate that is in the table while no call is in progress was left there by two callers who were
  about to let go of it at one time. -/
  source {key : String} {gate : Gate} : (see u).lane.AtRest →
    (slot.shelf (see u).cache).gates.table.get? key = some gate → Overlapped see t ms u key gate
  /-- Two callers who are about to let go of a gate taken since the last clearing both let go, and
  leave it in the table. -/
  stays {i j : Nat} {x y : Caller α ε} {gate : Gate} {r r' : Except ε α} : i ≠ j →
    (see u).lane.callers[i]? = some x → (see u).lane.callers[j]? = some y →
      x.place = .holding gate (.retired r) → y.place = .holding gate (.retired r') →
        x.took.emptied = (see u).lane.emptied → ∀ due, ∃ c₁ lane₁ c₂ lane₂,
          (see u).lane.move slot (see u).forgotten due (see u).cache (.go i) = some (c₁, lane₁) ∧
          lane₁.move slot (see u).forgotten due c₁ (.go j) = some (c₂, lane₂) ∧
          lane₂.callers =
            ((see u).lane.callers.set i (x.finish r)).set j (y.finish r') ∧
          (slot.shelf c₂).gates.table.get? x.key = some gate

theorem leftovers {slot : Slot α} (lawful : slot.Lawful) {see : Traffic ε → View α ε}
    (sees : ∀ t m u, t.step m = some u → ∃ e, View.Step slot (see t) e (see u))
    {t u : Traffic ε} {ms : List (Traffic.Move ε)} (start : View.Watched slot (see t))
    (fresh : (slot.shelf (see t).cache).gates.table = Dict.empty) (hrun : t.run ms = some u) :
    Leftovers slot see t ms u := by
  obtain ⟨watched, explained⟩ := explained_of_run lawful sees start fresh hrun
  refine ⟨fun rest known => (explained _ _ known).resolve_left rest.not_wants,
    fun {i j x y gate r r'} ne hi hj hx hy now due => ?_⟩
  obtain ⟨c₁, lane₁, c₂, lane₂, first, second, callers, table⟩ :=
    exists_drops lawful (c := (see u).cache) ne hi hj hx hy (see u).forgotten due
  have xgate : x.gate? = some gate := by simp [Caller.gate?, hx]
  have ygate : y.gate? = some gate := by simp [Caller.gate?, hy]
  have xhandle := Lane.getElem?_handles hi
  have yhandle := Lane.getElem?_handles hj
  rw [Caller.handle?_of_gate? xgate] at xhandle
  rw [Caller.handle?_of_gate? ygate] at yhandle
  exact ⟨c₁, lane₁, c₂, lane₂, first, second, callers,
    table ▸ watched.paired ne xhandle yhandle rfl now⟩

namespace Traffic
variable {ε : Type}

/-- When no call is in progress, a gate in a table was left there by two callers who were about to
let go of it at one time; and any two who are leave it there. -/
theorem gates_left_by_overlap {c : Cache} {ms : List (Traffic.Move ε)} {t : Traffic ε}
    (prompts : c.prompts.gates = {}) (fragments : c.fragments.gates = {})
    (hrun : (start c).run ms = some t) :
    Leftovers promptSlot atPrompts (start c) ms t ∧
      Leftovers fragmentSlot atFragments (start c) ms t := by
  constructor
  · refine leftovers promptSlot_lawful (fun t m u h => ⟨_, step_atPrompts h⟩) (.start prompts) ?_ hrun
    exact congrArg Gates.table prompts
  · refine leftovers fragmentSlot_lawful (fun t m u h => ⟨_, step_atFragments h⟩) (.start fragments) ?_
      hrun
    exact congrArg Gates.table fragments

/-- Two callers of a key, of whom one loads and the other is served. Each looks at the gate while the
other holds it. -/
def aboutToLetGo : List (Traffic.Move String) :=
  let go (i n : Nat) : List (Traffic.Move String) := List.replicate n (.prompts (.go i))
  [.prompts (.call "k" (.ok {})), .prompts (.call "k" (.ok {}))] ++ go 0 2 ++ go 1 2 ++ go 0 7 ++ go 1 4

def lettingGo : List (Traffic.Move String) := aboutToLetGo ++ [.prompts (.go 0), .prompts (.go 1)]

theorem run_lettingGo :
    ((start {}).run aboutToLetGo).map (fun t => (t.prompts.callers, t.prompts.emptied)) =
      some ([⟨"k", .ok {}, .holding 0 (.retired (.ok {})), {}, some 0⟩,
        ⟨"k", .ok {}, .holding 0 (.retired (.ok {})), {}, none⟩], 0) ∧
    ((start {}).run lettingGo).map (fun t =>
        (t.prompts.callers, t.fragments.callers, t.cache.prompts.gates.table.get? "k")) =
      some ([⟨"k", .ok {}, .done (.ok {}), {}, some 0⟩, ⟨"k", .ok {}, .done (.ok {}), {}, none⟩], [],
        some 0) := by
  decide +kernel

/-- The two are about to let go of gate 0, and it will stay; when they have let go, it did stay. -/
theorem gates_left_by_overlap_twice :
    (∃ t, (start {}).run aboutToLetGo = some t ∧ ∀ due, ∃ c₁ lane₁ c₂ lane₂,
      t.prompts.move promptSlot t.forgotten due t.cache (.go 0) = some (c₁, lane₁) ∧
      lane₁.move promptSlot t.forgotten due c₁ (.go 1) = some (c₂, lane₂) ∧
      c₂.prompts.gates.table.get? "k" = some 0) ∧
    ∃ t, (start {}).run lettingGo = some t ∧ t.prompts.AtRest ∧
      Overlapped atPrompts (start {}) lettingGo t "k" 0 := by
  constructor
  · obtain ⟨t, ht, final⟩ := Option.map_eq_some_iff.1 run_lettingGo.1
    obtain ⟨callers, emptied⟩ := Prod.mk.inj final
    have left := (gates_left_by_overlap rfl rfl ht).1
    refine ⟨t, ht, fun due => ?_⟩
    obtain ⟨c₁, lane₁, c₂, lane₂, first, second, -, stays⟩ :=
      left.stays (by decide) (congrArg (·[0]?) callers) (congrArg (·[1]?) callers) rfl rfl
        emptied.symm due
    exact ⟨c₁, lane₁, c₂, lane₂, first, second, stays⟩
  · obtain ⟨t, ht, final⟩ := Option.map_eq_some_iff.1 run_lettingGo.2
    obtain ⟨callers, rest⟩ := Prod.mk.inj final
    have rested : t.prompts.AtRest := by simp [Lane.AtRest, callers]
    exact ⟨t, ht, rested,
      (gates_left_by_overlap rfl rfl ht).1.source rested (Prod.mk.inj rest).2⟩

/-- No call is in progress, no entry was put in and nothing was cleared, and still a gate is in the
table. -/
theorem gate_left_behind : ¬ ∀ (c : Cache) (ms : List (Traffic.Move String)) (t : Traffic String),
    c.prompts.gates = {} → c.fragments.gates = {} → (∀ m ∈ ms, m.isCall) →
      (start c).run ms = some t → t.prompts.AtRest → t.fragments.AtRest →
        t.cache.prompts.gates.table = Dict.empty ∧ t.cache.fragments.gates.table = Dict.empty := by
  intro h
  obtain ⟨t, ht, final⟩ := Option.map_eq_some_iff.1 run_lettingGo.2
  obtain ⟨callers, rest⟩ := Prod.mk.inj final
  obtain ⟨none, known⟩ := Prod.mk.inj rest
  have prompts : t.prompts.AtRest := by simp [Lane.AtRest, callers]
  have fragments : t.fragments.AtRest := by simp [Lane.AtRest, none]
  have empty := (h {} lettingGo t rfl rfl (by decide) ht prompts fragments).1
  rw [empty] at known
  cases known

end Traffic
end PromptAssembly.Cache
