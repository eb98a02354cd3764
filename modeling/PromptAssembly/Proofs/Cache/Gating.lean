import PromptAssembly.Proofs.Cache.Traffic

/-!
# Gates between callers

Callers who hold the gate of one key hold the same gate, unless the gates were cleared between their
takings; whoever has the lock of a gate has it alone. Both hold after every run (`Guarded.run`), so
that two loads of one key overlap only across a clearing of the gates.
-/
namespace PromptAssembly.Cache

section
variable {α : Type} {l : List α} {a b c : α} {i j : Nat}

theorem getElem?_set_cases (h : (l.set i a)[j]? = some b) :
    (j = i ∧ b = a) ∨ (j ≠ i ∧ l[j]? = some b) := by
  rw [List.getElem?_set] at h
  split at h
  · next same =>
    split at h
    · exact .inl ⟨same.symm, (Option.some.inj h).symm⟩
    · cases h
  · next other => exact .inr ⟨Ne.symm other, h⟩

theorem getElem?_concat_cases (h : (l ++ [a])[j]? = some b) : l[j]? = some b ∨ b = a := by
  rw [List.getElem?_append] at h
  split at h
  · exact .inl h
  · exact .inr (List.mem_singleton.1 (List.mem_of_getElem? h))

theorem two_le_countP {p : α → Bool} (hi : l[i]? = some b) (hj : l[j]? = some c) (ne : i ≠ j)
    (hb : p b) (hc : p c) : 2 ≤ l.countP p := by
  induction l generalizing i j with
  | nil => simp at hi
  | cons d l ih =>
    cases i with
    | zero =>
      cases j with
      | zero => exact absurd rfl ne
      | succ j =>
        have head : d = b := by simpa using hi
        have tail : 0 < l.countP p :=
          List.countP_pos_iff.2 ⟨c, List.mem_of_getElem? (by simpa using hj), hc⟩
        rw [List.countP_cons_of_pos (head ▸ hb)]
        omega
    | succ i =>
      have hi : l[i]? = some b := by simpa using hi
      cases j with
      | zero =>
        have head : d = c := by simpa using hj
        have tail : 0 < l.countP p := List.countP_pos_iff.2 ⟨b, List.mem_of_getElem? hi, hb⟩
        rw [List.countP_cons_of_pos (head ▸ hc)]
        omega
      | succ j =>
        have tail := ih hi (by simpa using hj) (fun same => ne (congrArg _ same))
        rw [List.countP_cons]
        omega

theorem countP_set_add {p : α → Bool} (hi : l[i]? = some b) (a : α) :
    (l.set i a).countP p + (if p b then 1 else 0) = l.countP p + if p a then 1 else 0 := by
  obtain ⟨bound, rfl⟩ := List.getElem?_eq_some_iff.1 hi
  have present : p l[i] → 0 < l.countP p := fun h =>
    List.countP_pos_iff.2 ⟨_, List.getElem_mem bound, h⟩
  rw [List.countP_set bound]
  split
  · next h =>
    have := present h
    omega
  · omega

end
end PromptAssembly.Cache

namespace PromptAssembly.Gates
variable {g : Gates} {key k : String} {gate : Gate}

theorem take_of_get? (h : g.table.get? key = some gate) :
    g.take key = (gate, { g with held := gate :: g.held }) := by
  simp only [take, h]

theorem get?_take_self : (g.take key).2.table.get? key = some (g.take key).1 := by
  cases h : g.table.get? key with
  | some gate => rw [take_of_get? h, h]
  | none => simp [take, h]

theorem get?_take_of_ne (ne : k ≠ key) : (g.take key).2.table.get? k = g.table.get? k := by
  cases h : g.table.get? key with
  | some gate => rw [take_of_get? h]
  | none => simp [take, h, ne]

theorem held_take : (g.take key).2.held = (g.take key).1 :: g.held := by
  cases h : g.table.get? key with
  | some gate => rw [take_of_get? h]
  | none => simp [take, h]

theorem isIdle_iff :
    g.isIdle key gate = true ↔ g.table.get? key = some gate ∧ g.held.count gate = 1 := by
  simp [isIdle]

theorem held_retire : (g.retire key gate).held = g.held := by
  simp only [retire]
  split <;> rfl

end PromptAssembly.Gates

namespace PromptAssembly.Cache
variable {α ε : Type}

namespace Caller

def gate? (x : Caller α ε) : Option Gate :=
  match x.place with
  | .holding gate _ => some gate
  | _ => none

def live? (x : Caller α ε) : Option Gate :=
  match x.place with
  | .holding _ (.retired _) => none
  | .holding gate _ => some gate
  | _ => none

def inside? (x : Caller α ε) : Option Gate :=
  match x.place with
  | .holding _ .waiting | .holding _ (.left _) | .holding _ (.retired _) => none
  | .holding gate _ => some gate
  | _ => none

/-- The generation that a loader started under, until what it gave is stored. -/
def generation? (x : Caller α ε) : Option UInt64 :=
  match x.place with
  | .holding _ (.loading generation) | .holding _ (.loaded generation _) => some generation
  | _ => none

variable {x : Caller α ε} {gate : Gate}

theorem live?_of_inside? (h : x.inside? = some gate) : x.live? = some gate := by
  simp only [inside?] at h
  split at h <;> simp_all [live?]

theorem gate?_of_live? (h : x.live? = some gate) : x.gate? = some gate := by
  simp only [live?] at h
  split at h <;> simp_all [gate?]

theorem exists_inside?_of_generation? {n : UInt64} (h : x.generation? = some n) :
    ∃ gate, x.inside? = some gate := by
  simp only [generation?] at h
  split at h <;> simp_all [inside?]

end Caller

/-- Whoever is behind a gate has locked it, and nobody else has. -/
structure Locking (callers : List (Caller α ε)) (locked : List Gate) : Prop where
  locked {i : Nat} {x : Caller α ε} {g : Gate} :
    callers[i]? = some x → x.inside? = some g → g ∈ locked
  alone {i j : Nat} {x y : Caller α ε} {g : Gate} :
    callers[i]? = some x → callers[j]? = some y → x.inside? = some g → y.inside? = some g → i = j

namespace Locking
variable {callers : List (Caller α ε)} {locked : List Gate} {x x' : Caller α ε} {g : Gate} {i : Nat}

theorem swap (h : Locking callers locked) (hi : callers[i]? = some x)
    (same : x'.inside? = x.inside?) : Locking (callers.set i x') locked := by
  have before {j : Nat} {y : Caller α ε} (hy : (callers.set i x')[j]? = some y) :
      ∃ z, callers[j]? = some z ∧ z.inside? = y.inside? := by
    rcases getElem?_set_cases hy with ⟨rfl, rfl⟩ | ⟨-, hy⟩
    · exact ⟨x, hi, same.symm⟩
    · exact ⟨y, hy, rfl⟩
  constructor
  · intro j y g hy hg
    obtain ⟨z, hz, e⟩ := before hy
    exact h.locked hz (e.trans hg)
  · intro j k y z g hy hz hg hg'
    obtain ⟨y', hy', e⟩ := before hy
    obtain ⟨z', hz', e'⟩ := before hz
    exact h.alone hy' hz' (e.trans hg) (e'.trans hg')

theorem lock (h : Locking callers locked) (free : g ∉ locked) (inside : x'.inside? = some g) :
    Locking (callers.set i x') (g :: locked) := by
  constructor
  · intro j y g' hy hg'
    rcases getElem?_set_cases hy with ⟨rfl, rfl⟩ | ⟨-, hy⟩
    · rw [inside] at hg'
      exact Option.some.inj hg' ▸ List.mem_cons_self
    · exact List.mem_cons_of_mem g (h.locked hy hg')
  · intro j k y z g' hset hset' hg hg'
    -- Nobody else can be behind a gate that was free.
    rcases getElem?_set_cases hset with ⟨rfl, rfl⟩ | ⟨-, hy⟩ <;>
      rcases getElem?_set_cases hset' with ⟨rfl, rfl⟩ | ⟨-, hz⟩
    · rfl
    · rw [inside] at hg
      exact absurd (h.locked hz (hg ▸ hg')) free
    · rw [inside] at hg'
      exact absurd (h.locked hy (hg' ▸ hg)) free
    · exact h.alone hy hz hg hg'

theorem unlock (h : Locking callers locked) (hi : callers[i]? = some x)
    (inside : x.inside? = some g) (outside : x'.inside? = none) :
    Locking (callers.set i x') (locked.erase g) := by
  constructor
  · intro j y g' hy hg'
    rcases getElem?_set_cases hy with ⟨rfl, rfl⟩ | ⟨other, hy⟩
    · simp [outside] at hg'
    · have different : g' ≠ g := by
        rintro rfl
        exact other (h.alone hy hi hg' inside)
      exact (List.mem_erase_of_ne different).2 (h.locked hy hg')
  · intro j k y z g' hy hz hg hg'
    rcases getElem?_set_cases hy with ⟨rfl, rfl⟩ | ⟨-, hy⟩
    · simp [outside] at hg
    · rcases getElem?_set_cases hz with ⟨rfl, rfl⟩ | ⟨-, hz⟩
      · simp [outside] at hg'
      · exact h.alone hy hz hg hg'

theorem call (h : Locking callers locked) (outside : x'.inside? = none) :
    Locking (callers ++ [x']) locked := by
  constructor
  · intro j y g hy hg
    rcases getElem?_concat_cases hy with hy | rfl
    · exact h.locked hy hg
    · simp [outside] at hg
  · intro j k y z g hy hz hg hg'
    rcases getElem?_concat_cases hy with hy | rfl
    · rcases getElem?_concat_cases hz with hz | rfl
      · exact h.alone hy hz hg hg'
      · simp [outside] at hg'
    · simp [outside] at hg

end Locking

/-- The table knows the gates that were taken since it was last cleared, and every gate is held at
least as often as callers hold it. -/
structure Tabled (gates : Gates) (callers : List (Caller α ε)) (emptied : Nat) : Prop where
  table {i : Nat} {x : Caller α ε} {g : Gate} : callers[i]? = some x → x.live? = some g →
    x.took.emptied = emptied → gates.table.get? x.key = some g
  shared {i j : Nat} {x y : Caller α ε} {g g' : Gate} : callers[i]? = some x →
    callers[j]? = some y → x.live? = some g → y.live? = some g' → x.key = y.key →
      x.took.emptied = y.took.emptied → g = g'
  past {i : Nat} {x : Caller α ε} : callers[i]? = some x → x.took.emptied ≤ emptied
  counted (g : Gate) : callers.countP (fun x => x.gate? = some g) ≤ gates.held.count g

theorem countP_gate?_set {callers : List (Caller α ε)} {i : Nat} {x : Caller α ε}
    (hi : callers[i]? = some x) (x' : Caller α ε) (g : Gate) :
    (callers.set i x').countP (fun y => y.gate? = some g) +
        (if x.gate? = some g then 1 else 0) =
      callers.countP (fun y => y.gate? = some g) + if x'.gate? = some g then 1 else 0 := by
  simpa using countP_set_add (p := fun y : Caller α ε => decide (y.gate? = some g)) hi x'

namespace Tabled
variable {gates : Gates} {callers : List (Caller α ε)} {emptied : Nat} {x x' : Caller α ε}
  {g : Gate} {i : Nat}

theorem swap (h : Tabled gates callers emptied) (hi : callers[i]? = some x)
    (key : x'.key = x.key) (took : x'.took = x.took) (live : x'.live? = x.live?)
    (gate : x'.gate? = x.gate?) : Tabled gates (callers.set i x') emptied := by
  have before {j : Nat} {y : Caller α ε} (hy : (callers.set i x')[j]? = some y) :
      ∃ z, callers[j]? = some z ∧ z.key = y.key ∧ z.took = y.took ∧ z.live? = y.live? := by
    rcases getElem?_set_cases hy with ⟨rfl, rfl⟩ | ⟨-, hy⟩
    · exact ⟨x, hi, key.symm, took.symm, live.symm⟩
    · exact ⟨y, hy, rfl, rfl, rfl⟩
  constructor
  · intro j y g hy hg current
    obtain ⟨z, hz, ekey, etook, elive⟩ := before hy
    exact ekey ▸ h.table hz (elive.trans hg) (etook ▸ current)
  · intro j k y z g g' hy hz hg hg' same together
    obtain ⟨y', hy', ekey, etook, elive⟩ := before hy
    obtain ⟨z', hz', ekey', etook', elive'⟩ := before hz
    exact h.shared hy' hz' (elive.trans hg) (elive'.trans hg') (by rw [ekey, ekey', same])
      (by rw [etook, etook', together])
  · intro j y hy
    obtain ⟨z, hz, -, etook, -⟩ := before hy
    exact etook ▸ h.past hz
  · intro g
    have count := countP_gate?_set hi x' g
    rw [gate] at count
    have := h.counted g
    omega

theorem take (h : Tabled gates callers emptied) (hi : callers[i]? = some x)
    (none : x.gate? = none) (key : x'.key = x.key) (live : x'.live? = some (gates.take x.key).1)
    (gate : x'.gate? = some (gates.take x.key).1) (now : x'.took.emptied = emptied) :
    Tabled (gates.take x.key).2 (callers.set i x') emptied := by
  -- Others who hold the gate of this key since the last clearing hold the one that is taken.
  have same {j : Nat} {y : Caller α ε} {g : Gate} (hy : callers[j]? = some y)
      (hg : y.live? = some g) (current : y.took.emptied = emptied) (ykey : y.key = x.key) :
      (gates.take x.key).1 = g := by
    rw [Gates.take_of_get? (ykey ▸ h.table hy hg current)]
  constructor
  · intro j y g hy hg current
    rcases getElem?_set_cases hy with ⟨rfl, rfl⟩ | ⟨-, hy⟩
    · rw [key, Gates.get?_take_self, ← live, hg]
    · by_cases ykey : y.key = x.key
      · rw [ykey, Gates.get?_take_self, same hy hg current ykey]
      · rw [Gates.get?_take_of_ne ykey, h.table hy hg current]
  · intro j k y z g g' hset hset' hg hg' skey together
    rcases getElem?_set_cases hset with ⟨rfl, rfl⟩ | ⟨-, hy⟩ <;>
      rcases getElem?_set_cases hset' with ⟨rfl, rfl⟩ | ⟨-, hz⟩
    · exact Option.some.inj (hg.symm.trans hg')
    · rw [← same hz hg' (together ▸ now) (skey.symm.trans key)]
      exact (Option.some.inj (live.symm.trans hg)).symm
    · rw [← same hy hg (together ▸ now) (skey.trans key)]
      exact Option.some.inj (live.symm.trans hg')
    · exact h.shared hy hz hg hg' skey together
  · intro j y hy
    rcases getElem?_set_cases hy with ⟨rfl, rfl⟩ | ⟨-, hy⟩
    · omega
    · exact h.past hy
  · intro g
    have count := countP_gate?_set hi x' g
    have := h.counted g
    rw [Gates.held_take, List.count_cons]
    simp only [none, gate, Option.some.injEq, reduceCtorEq, if_false, beq_iff_eq] at count ⊢
    omega

theorem retire (h : Tabled gates callers emptied) (hi : callers[i]? = some x)
    (key : x'.key = x.key) (took : x'.took = x.took) (live : x.live? = some g)
    (off : x'.live? = none) (gate : x'.gate? = x.gate?) :
    Tabled (gates.retire x.key g) (callers.set i x') emptied := by
  constructor
  · intro j y g' hy hg' current
    rcases getElem?_set_cases hy with ⟨rfl, rfl⟩ | ⟨other, hy⟩
    · simp [off] at hg'
    · have known := h.table hy hg' current
      simp only [Gates.retire]
      split
      · next idle =>
        obtain ⟨mine, once⟩ := Gates.isIdle_iff.1 idle
        -- Were it the same key, the gate would be held twice and not be idle.
        have different : y.key ≠ x.key := by
          intro ykey
          rw [ykey, mine] at known
          obtain rfl := Option.some.inj known
          have twice := two_le_countP (p := fun x => x.gate? = some g) hi hy (Ne.symm other)
            (by simpa using Caller.gate?_of_live? live) (by simpa using Caller.gate?_of_live? hg')
          have := h.counted g
          omega
        rw [Dict.get?_erase, if_neg different, known]
      · exact known
  · intro j k y z g₁ g₂ hy hz hg₁ hg₂ same together
    rcases getElem?_set_cases hy with ⟨rfl, rfl⟩ | ⟨-, hy⟩
    · simp [off] at hg₁
    · rcases getElem?_set_cases hz with ⟨rfl, rfl⟩ | ⟨-, hz⟩
      · simp [off] at hg₂
      · exact h.shared hy hz hg₁ hg₂ same together
  · intro j y hy
    rcases getElem?_set_cases hy with ⟨rfl, rfl⟩ | ⟨-, hy⟩
    · exact took ▸ h.past hi
    · exact h.past hy
  · intro g'
    have count := countP_gate?_set hi x' g'
    rw [gate] at count
    have := h.counted g'
    rw [Gates.held_retire]
    omega

theorem drop (h : Tabled gates callers emptied) (hi : callers[i]? = some x)
    (took : x'.took = x.took) (off : x'.live? = none) (gate : x.gate? = some g)
    (gone : x'.gate? = none) : Tabled (gates.drop g) (callers.set i x') emptied := by
  constructor
  · intro j y g' hy hg' current
    rcases getElem?_set_cases hy with ⟨rfl, rfl⟩ | ⟨-, hy⟩
    · simp [off] at hg'
    · exact h.table hy hg' current
  · intro j k y z g₁ g₂ hy hz hg₁ hg₂ same together
    rcases getElem?_set_cases hy with ⟨rfl, rfl⟩ | ⟨-, hy⟩
    · simp [off] at hg₁
    · rcases getElem?_set_cases hz with ⟨rfl, rfl⟩ | ⟨-, hz⟩
      · simp [off] at hg₂
      · exact h.shared hy hz hg₁ hg₂ same together
  · intro j y hy
    rcases getElem?_set_cases hy with ⟨rfl, rfl⟩ | ⟨-, hy⟩
    · exact took ▸ h.past hi
    · exact h.past hy
  · intro g'
    have count := countP_gate?_set hi x' g'
    have := h.counted g'
    simp only [Gates.drop, List.count_erase]
    simp only [gate, gone, Option.some.injEq, reduceCtorEq, if_false, beq_iff_eq] at count ⊢
    omega

theorem call (h : Tabled gates callers emptied) (off : x'.live? = none) (gone : x'.gate? = none)
    (took : x'.took = {}) : Tabled gates (callers ++ [x']) emptied := by
  constructor
  · intro j y g hy hg current
    rcases getElem?_concat_cases hy with hy | rfl
    · exact h.table hy hg current
    · simp [off] at hg
  · intro j k y z g₁ g₂ hy hz hg₁ hg₂ same together
    rcases getElem?_concat_cases hy with hy | rfl
    · rcases getElem?_concat_cases hz with hz | rfl
      · exact h.shared hy hz hg₁ hg₂ same together
      · simp [off] at hg₂
    · simp [off] at hg₁
  · intro j y hy
    rcases getElem?_concat_cases hy with hy | rfl
    · exact h.past hy
    · simp [took]
  · intro g
    simpa [List.countP_append, gone] using h.counted g

theorem empty (h : Tabled gates callers emptied) : Tabled gates.clear callers (emptied + 1) where
  table hy _ current := by
    have := h.past hy
    omega
  shared := h.shared
  past hy := by
    have := h.past hy
    omega
  counted := h.counted

end Tabled

/-- The locks and the table as they are after any run. -/
structure Guarded (slot : Slot α) (v : View α ε) : Prop where
  locking : Locking v.lane.callers v.lane.locked
  tabled : Tabled (slot.shelf v.cache).gates v.lane.callers v.lane.emptied

namespace Guarded
variable {slot : Slot α} {v v' w : View α ε} {c c' : Cache} {lane : Lane α ε} {n i j : Nat}

theorem gates_keep (lawful : slot.Lawful) (c : Cache) (generation : UInt64) (key : String) (a : α) :
    (slot.shelf (c.keep slot generation key a)).gates = (slot.shelf c).gates := by
  simp only [keep]
  split
  · rw [shelf_insert lawful]
  · rfl

theorem start : Guarded slot (⟨c, 0, {}⟩ : View α ε) where
  locking := by constructor <;> simp
  tabled := by constructor <;> simp

theorem swap (h : Guarded slot ⟨c, n, lane⟩) {x x' : Caller α ε} (hi : lane.callers[i]? = some x)
    (key : x'.key = x.key) (took : x'.took = x.took) (gate : x'.gate? = x.gate?)
    (live : x'.live? = x.live?) (inside : x'.inside? = x.inside?)
    (gates : (slot.shelf c').gates = (slot.shelf c).gates) :
    Guarded slot ⟨c', n, { lane with callers := lane.callers.set i x' }⟩ :=
  ⟨h.locking.swap hi inside, gates ▸ h.tabled.swap hi key took live gate⟩

theorem go (lawful : slot.Lawful) (h : Guarded slot ⟨c, n, lane⟩) {x x' : Caller α ε}
    {locked : List Gate} (hi : lane.callers[i]? = some x)
    (hstep : x.step slot ⟨n, lane.emptied⟩ c lane.locked = some (c', locked, x')) :
    Guarded slot ⟨c', n, { lane with callers := lane.callers.set i x', locked }⟩ := by
  cases Caller.step_cases hstep with
  | hit | miss | found | lack | start | succeed | fail => exact h.swap hi rfl rfl rfl rfl rfl rfl
  | store => exact h.swap hi rfl rfl rfl rfl rfl (gates_keep lawful _ _ _ _)
  | lock free => exact ⟨h.locking.lock free rfl, h.tabled.swap hi rfl rfl rfl rfl⟩
  | unlock => exact ⟨h.locking.unlock hi rfl rfl, h.tabled.swap hi rfl rfl rfl rfl⟩
  | take =>
    refine ⟨h.locking.swap hi rfl, ?_⟩
    rw [shelf_takeGate lawful]
    exact h.tabled.take hi rfl rfl rfl rfl rfl
  | retire =>
    refine ⟨h.locking.swap hi rfl, ?_⟩
    rw [shelf_retireGate lawful]
    exact h.tabled.retire hi rfl rfl rfl rfl rfl
  | drop =>
    refine ⟨h.locking.swap hi rfl, ?_⟩
    rw [shelf_dropGate lawful]
    exact h.tabled.drop hi rfl rfl rfl rfl

theorem step (lawful : slot.Lawful) {e : Event α ε} (hstep : View.Step slot v e v')
    (h : Guarded slot v) : Guarded slot v' := by
  cases hstep with
  | move hmove =>
    cases Lane.move_cases hmove with
    | call => exact ⟨h.locking.call rfl, h.tabled.call rfl rfl rfl⟩
    | go hi hstep => exact h.go lawful hi hstep
    | insert =>
      refine ⟨h.locking, ?_⟩
      rw [shelf_insert lawful]
      exact h.tabled
    | empty =>
      refine ⟨h.locking, ?_⟩
      rw [shelf_clearGates lawful]
      exact h.tabled.empty
  | forget hshelf => exact ⟨h.locking, by rw [hshelf]; exact h.tabled⟩
  | elsewhere hshelf => exact ⟨h.locking, by rw [hshelf]; exact h.tabled⟩

theorem run (lawful : slot.Lawful) {es : List (Event α ε)} (hrun : View.Run slot v es w)
    (h : Guarded slot v) : Guarded slot w :=
  hrun.keeps (P := fun _ => True) (fun _ _ _ _ => step lawful) (fun _ _ => trivial) h

/-- Callers of one key who took their gates with no clearing of the gates in between are never
behind a gate both. -/
theorem eq_of_inside (h : Guarded slot v) {x y : Caller α ε} {g g' : Gate}
    (hi : v.lane.callers[i]? = some x) (hj : v.lane.callers[j]? = some y) (key : x.key = y.key)
    (together : x.took.emptied = y.took.emptied) (hx : x.inside? = some g)
    (hy : y.inside? = some g') : i = j := by
  have same : g = g' := h.tabled.shared hi hj (Caller.live?_of_inside? hx)
    (Caller.live?_of_inside? hy) key together
  exact h.locking.alone hi hj hx (same ▸ hy)

end Guarded
end PromptAssembly.Cache
