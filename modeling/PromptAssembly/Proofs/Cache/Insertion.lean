import PromptAssembly.Proofs.Cache.Gating

/-!
# Entries put in during a load

A load that began in the present generation stores what it gave, also over an entry that was put in
while it ran. Until the next clear an entry that is put in is replaced by nothing but what such a
load gave.
-/
namespace PromptAssembly.Cache
open Prompt (Config)
variable {α ε : Type}

/-- Neither replaces the entry of a key nor clears the cache. Loads may still store. -/
def Event.spares (key : String) : Event α ε → Bool
  | .move (.insert k _) => k ≠ key
  | .forget => false
  | _ => true

def Traffic.Move.spares (key : String) : Traffic.Move ε → Bool
  | .prompts (.insert k _) => k ≠ key
  | .forget => false
  | _ => true

namespace Caller

/-- A caller that has found no entry behind its gate, and stores what it loads unless a generation
begins. -/
def IsInFlight (generation : UInt64) (x : Caller α ε) : Prop :=
  match x.place with
  | .holding _ .absent => True
  | .holding _ (.loading n) | .holding _ (.loaded n _) => n = generation
  | _ => False

variable {slot : Slot α} {now : Moment} {c c' : Cache} {locked locked' : List Gate}
  {x x' : Caller α ε} {n : UInt64}

theorem key_load_of_step (h : x.step slot now c locked = some (c', locked', x')) :
    x'.key = x.key ∧ x'.load = x.load := by
  cases step_cases h <;> exact ⟨rfl, rfl⟩

theorem isInFlight_of_step (h : x.step slot now c locked = some (c', locked', x'))
    (flight : x'.IsInFlight c.generation) :
    x.IsInFlight c.generation ∨ c.find? slot x.key = none := by
  cases step_cases h with
  | lack missing => exact .inr missing
  | start => exact .inl trivial
  | succeed => exact .inl flight
  | _ => cases flight

def Carries (x : Caller α ε) : Prop :=
  ∀ gate n a, x.place = .holding gate (.loaded n a) → x.load = .ok a

theorem carries_of_step (h : x.step slot now c locked = some (c', locked', x')) : x'.Carries := by
  intro gate n a place
  cases step_cases h <;> cases place
  rfl

/-- Who changes an entry is in flight, and puts there what its loader gave. -/
theorem find?_of_step (lawful : slot.Lawful) (key : String) (carries : x.Carries)
    (h : x.step slot now c locked = some (c', locked', x')) :
    c'.find? slot key = c.find? slot key ∨ x.key = key ∧ x.IsInFlight c.generation ∧
      ∃ a, x.load = .ok a ∧ c'.find? slot key = some a := by
  cases step_cases h with
  | take => exact .inl (by simp only [find?, shelf_takeGate lawful])
  | retire => exact .inl (by simp only [find?, shelf_retireGate lawful])
  | drop => exact .inl (by simp only [find?, shelf_dropGate lawful])
  | @store k _ _ _ gate n a =>
    simp only [keep]
    split
    · next current =>
      simp only [find?, shelf_insert lawful, Dict.get?_insert]
      split
      · next same => exact .inr ⟨same.symm, current.symm, a, carries _ _ _ rfl, rfl⟩
      · exact .inl rfl
    · exact .inl rfl
  | _ => exact .inl rfl

/-- What is to be found under the key of a caller that was loading in generation `n` when `a` was put
in, while no other caller of the key was in flight: what has been put in until the caller has stored,
and what the caller has loaded from then on. -/
def Leaves (generation n : UInt64) (a : α) (x : Caller α ε) (entry : Option α) : Prop :=
  match x.place with
  | .holding _ (.loading m) | .holding _ (.loaded m _) => m = n ∧ entry = some a
  | .holding _ (.leaving _) | .holding _ (.left _) | .holding _ (.retired _) | .done _ =>
    entry = some (if n = generation then x.load.toOption.getD a else a)
  | _ => False

theorem leaves_of_step (lawful : slot.Lawful) {a : α} (carries : x.Carries)
    (h : x.step slot now c locked = some (c', locked', x'))
    (leaves : x.Leaves c.generation n a (c.find? slot x.key)) :
    x'.Leaves c.generation n a (c'.find? slot x.key) := by
  cases step_cases h with
  -- A caller that was loading is past these.
  | hit | miss | take | lock | found | lack | start => cases leaves
  | succeed => exact leaves
  | fail => exact leaves.2.trans (by simp [Except.toOption])
  | unlock => exact leaves
  | retire => simpa only [Leaves, find?, shelf_retireGate lawful] using leaves
  | drop => simpa only [Leaves, find?, shelf_dropGate lawful] using leaves
  | store =>
    obtain ⟨rfl, kept⟩ := leaves
    obtain rfl := carries _ _ _ rfl
    simp only [Leaves, keep]
    split
    · next current =>
      simp [find?, shelf_insert lawful, current, Except.toOption]
    · next past => rw [if_neg (Ne.symm past)]; exact kept

end Caller

section
variable {slot : Slot α} {v v' w : View α ε} {k : String} {a : α}

/-- In a step a caller goes on, or the callers stay as they are and one may come in. A step that
spares a key leaves its entry alone then. -/
theorem View.Step.cases (lawful : slot.Lawful) {e : Event α ε} (hstep : View.Step slot v e v') :
    (∃ i x now locked x', v.lane.callers[i]? = some x ∧
      x.step slot now v.cache v.lane.locked = some (v'.cache, locked, x') ∧
        v'.lane.callers = v.lane.callers.set i x') ∨
    ((v'.lane.callers = v.lane.callers ∨
        ∃ key load, v'.lane.callers = v.lane.callers ++ [⟨key, load, .arrived, {}, none⟩]) ∧
      ∀ k, e.spares k → v'.cache.generation = v.cache.generation ∧
        v'.cache.find? slot k = v.cache.find? slot k) := by
  cases hstep with
  | move hmove =>
    cases Lane.move_cases hmove with
    | @go i x _ _ x' hi hstep => exact .inl ⟨i, x, _, _, x', hi, hstep, rfl⟩
    | @call key load => exact .inr ⟨.inr ⟨key, load, rfl⟩, fun _ _ => ⟨rfl, rfl⟩⟩
    | @insert key =>
      refine .inr ⟨.inl rfl, fun k spares => ⟨lawful.generation_put _ _, ?_⟩⟩
      have other : k ≠ key := by
        rintro rfl
        simp [Event.spares] at spares
      simp only [find?, shelf_insert lawful, Dict.get?_insert, if_neg other]
    | empty =>
      refine .inr ⟨.inl rfl, fun _ _ => ⟨lawful.generation_put _ _, ?_⟩⟩
      simp only [find?, shelf_clearGates lawful]
  | forget => exact .inr ⟨.inl rfl, fun _ spares => (Bool.false_ne_true spares).elim⟩
  | elsewhere hshelf hgeneration =>
    exact .inr ⟨.inl rfl, fun _ _ => ⟨hgeneration, by simp only [find?, hshelf]⟩⟩

theorem View.Step.carries (lawful : slot.Lawful) {e : Event α ε} (hstep : View.Step slot v e v')
    (h : ∀ x ∈ v.lane.callers, x.Carries) : ∀ x ∈ v'.lane.callers, x.Carries := by
  intro x hx
  rcases hstep.cases lawful with ⟨i, y, now, locked, y', -, hstep, set⟩ | ⟨came, -⟩
  · rcases List.mem_or_eq_of_mem_set (set ▸ hx) with hx | rfl
    · exact h x hx
    · exact Caller.carries_of_step hstep
  · rcases came with stay | ⟨key, load, stay⟩
    · exact h x (stay ▸ hx)
    · rcases List.mem_append.1 (stay ▸ hx) with hx | hx
      · exact h x hx
      · rw [List.mem_singleton.1 hx]
        exact nofun

/-- How things stand after `a` was put in under a key that `callers` were at. As the key has an entry
from then on, only who was in flight before is in flight. -/
structure Overtaken (slot : Slot α) (k : String) (a : α) (generation : UInt64)
    (callers : List (Caller α ε)) (v : View α ε) : Prop where
  current : v.cache.generation = generation
  carries : ∀ x ∈ v.lane.callers, x.Carries
  flight {i : Nat} {x : Caller α ε} : v.lane.callers[i]? = some x → x.key = k →
    x.IsInFlight generation → ∃ y, callers[i]? = some y ∧ y.key = k ∧ y.load = x.load ∧
      y.IsInFlight generation
  entry : ∃ b, v.cache.find? slot k = some b ∧ (b = a ∨ ∃ (i : Nat) (y : Caller α ε),
    callers[i]? = some y ∧ y.key = k ∧ y.load = .ok b ∧ y.IsInFlight generation)

namespace Overtaken
variable {generation n : UInt64} {callers : List (Caller α ε)} {e : Event α ε}
  {es : List (Event α ε)} {i : Nat} {x x' : Caller α ε}

theorem go (lawful : slot.Lawful) (h : Overtaken slot k a generation callers v) {now : Moment}
    {locked : List Gate} (hi : v.lane.callers[i]? = some x)
    (hstep : x.step slot now v.cache v.lane.locked = some (v'.cache, locked, x'))
    (set : v'.lane.callers = v.lane.callers.set i x') (carries : ∀ x ∈ v'.lane.callers, x.Carries) :
    Overtaken slot k a generation callers v' := by
  obtain ⟨shelf, put⟩ := exists_put_of_step lawful hstep
  obtain ⟨key, load⟩ := Caller.key_load_of_step hstep
  obtain ⟨b, hb, origin⟩ := h.entry
  refine ⟨by rw [put, lawful.generation_put, h.current], carries, ?_, ?_⟩
  · intro j y hy ykey flight
    rcases getElem?_set_cases (set ▸ hy) with ⟨rfl, rfl⟩ | ⟨-, hy⟩
    · rcases Caller.isInFlight_of_step hstep (h.current ▸ flight) with before | missing
      · rw [load]
        exact h.flight hi (key.symm.trans ykey) (h.current ▸ before)
      · -- Nobody comes to be in flight, as there is an entry.
        rw [← key, ykey, hb] at missing
        cases missing
    · exact h.flight hy ykey flight
  · have brought := h.carries x (List.mem_of_getElem? hi)
    rcases Caller.find?_of_step lawful k brought hstep with same | ⟨xkey, flight, b', gave, stored⟩
    · exact ⟨b, same.trans hb, origin⟩
    · obtain ⟨y, hy, ykey, yload, yflight⟩ := h.flight hi xkey (h.current ▸ flight)
      exact ⟨b', stored, .inr ⟨i, y, hy, ykey, yload.trans gave, yflight⟩⟩

theorem step (lawful : slot.Lawful) (h : Overtaken slot k a generation callers v)
    (spares : e.spares k) (hstep : View.Step slot v e v') :
    Overtaken slot k a generation callers v' := by
  have carries := hstep.carries lawful h.carries
  rcases hstep.cases lawful with ⟨i, x, now, locked, x', hi, hstep, set⟩ | ⟨came, spared⟩
  · exact h.go lawful hi hstep set carries
  obtain ⟨same, found⟩ := spared k spares
  have old {j : Nat} {y : Caller α ε} (hy : v'.lane.callers[j]? = some y) :
      v.lane.callers[j]? = some y ∨ y.place = .arrived := by
    rcases came with stay | ⟨key, load, stay⟩
    · exact .inl (stay ▸ hy)
    · exact (getElem?_concat_cases (stay ▸ hy)).imp_right (congrArg Caller.place)
  refine ⟨same.trans h.current, carries, fun {j y} hy ykey flight => ?_, found ▸ h.entry⟩
  rcases old hy with hy | arrived
  · exact h.flight hy ykey flight
  · simp [Caller.IsInFlight, arrived] at flight

theorem run (lawful : slot.Lawful) (h : Overtaken slot k a generation callers v)
    (spares : ∀ e ∈ es, e.spares k) (hrun : View.Run slot v es w) :
    Overtaken slot k a generation callers w :=
  hrun.keeps (fun _ _ _ spares hstep h => step lawful h spares hstep) spares h

section
variable (alone : ∀ (j : Nat) (y : Caller α ε), j ≠ i → callers[j]? = some y → y.key = k →
  ¬ y.IsInFlight generation)
include alone

theorem leaves (lawful : slot.Lawful) (h : Overtaken slot k a generation callers v)
    (spares : e.spares k) (hstep : View.Step slot v e v') (hi : v.lane.callers[i]? = some x)
    (key : x.key = k) (leaves : x.Leaves generation n a (v.cache.find? slot k)) :
    ∃ x', v'.lane.callers[i]? = some x' ∧ x'.key = k ∧ x'.load = x.load ∧
      x'.Leaves generation n a (v'.cache.find? slot k) := by
  rcases hstep.cases lawful with ⟨j, y, now, locked, y', hj, hstep, set⟩ | ⟨came, spared⟩
  · have carries := h.carries y (List.mem_of_getElem? hj)
    rw [set]
    by_cases mine : j = i
    · subst mine
      obtain rfl : x = y := Option.some.inj (hi.symm.trans hj)
      obtain ⟨samekey, sameload⟩ := Caller.key_load_of_step hstep
      have bound := (List.getElem?_eq_some_iff.1 hi).1
      refine ⟨y', List.getElem?_set_self bound, samekey.trans key, sameload, ?_⟩
      subst key
      have := Caller.leaves_of_step lawful carries hstep (h.current ▸ leaves)
      exact h.current ▸ this
    · refine ⟨x, (List.getElem?_set_ne mine).trans hi, key, rfl, ?_⟩
      rcases Caller.find?_of_step lawful k carries hstep with same | ⟨ykey, flight, -⟩
      · rwa [same]
      · obtain ⟨z, hz, zkey, -, zflight⟩ := h.flight hj ykey (h.current ▸ flight)
        exact absurd zflight (alone j z mine hz zkey)
  · obtain ⟨-, found⟩ := spared k spares
    refine ⟨x, ?_, key, rfl, found ▸ leaves⟩
    rcases came with stay | ⟨key, load, stay⟩
    · rw [stay, hi]
    · rw [stay, List.getElem?_append_left (List.getElem?_eq_some_iff.1 hi).1, hi]

theorem leaves_run (lawful : slot.Lawful) (h : Overtaken slot k a generation callers v)
    (spares : ∀ e ∈ es, e.spares k) (hrun : View.Run slot v es w)
    (hi : v.lane.callers[i]? = some x) (key : x.key = k)
    (leaves : x.Leaves generation n a (v.cache.find? slot k)) :
    ∃ x', w.lane.callers[i]? = some x' ∧ x'.load = x.load ∧
      x'.Leaves generation n a (w.cache.find? slot k) := by
  induction hrun generalizing x with
  | nil => exact ⟨x, hi, rfl, leaves⟩
  | cons first _ ih =>
    have ⟨now, later⟩ := List.forall_mem_cons.1 spares
    obtain ⟨y, hy, ykey, yload, yleaves⟩ := h.leaves alone lawful now first hi key leaves
    obtain ⟨x', hi', load, leaves'⟩ := ih (h.step lawful now first) later hy ykey yleaves
    exact ⟨x', hi', load.trans yload, leaves'⟩

end
end Overtaken
end

namespace Traffic
variable {ε : Type}

theorem Move.spares_atPrompts {key : String} {m : Traffic.Move ε} (h : m.spares key) :
    m.atPrompts.spares key := by
  cases m with
  | prompts m => cases m <;> exact h
  | fragments m => rfl
  | forget => exact h

/-- An entry that is put in while a loader of its key runs stays until the next clear, or gives way
to what a caller of the key loads that was in flight in the same generation. If there is but the one
caller, the entry stays if its loader started in an older generation or fails. -/
theorem insert_kept_or_overtaken (c : Cache) {before after : List (Traffic.Move ε)}
    {t u : Traffic ε} (hbefore : (start c).run before = some t) {i : Nat} {x x' : Caller Config ε}
    {gate : Gate} {n : UInt64} {a : Config} {r : Except ε Config}
    (hi : t.prompts.callers[i]? = some x) (place : x.place = .holding gate (.loading n))
    (hafter : t.run (.prompts (.insert x.key a) :: after) = some u)
    (spares : ∀ m ∈ after, m.spares x.key) (hi' : u.prompts.callers[i]? = some x')
    (ended : x'.place = .done r) :
    (∃ b, u.cache.find? promptSlot x.key = some b ∧ (b = a ∨ ∃ (j : Nat) (y : Caller Config ε),
      t.prompts.callers[j]? = some y ∧ y.key = x.key ∧ y.load = .ok b ∧
        y.IsInFlight t.cache.generation)) ∧
    ((∀ (j : Nat) (y : Caller Config ε), j ≠ i → t.prompts.callers[j]? = some y →
        y.key = x.key → ¬ y.IsInFlight t.cache.generation) →
      u.cache.find? promptSlot x.key =
        some (if n = t.cache.generation then x.load.toOption.getD a else a)) := by
  have lawful := promptSlot_lawful
  obtain ⟨t', inserted, rest⟩ := run_cons.1 hafter
  cases inserted
  have carries : ∀ y ∈ t.prompts.callers, y.Carries :=
    (run_seen hbefore).1.keeps (I := fun v => ∀ y ∈ v.lane.callers, y.Carries)
      (P := fun _ => True) (fun _ _ _ _ => View.Step.carries lawful) (fun _ _ => trivial)
      (by simp [start, atPrompts])
  have now : (t.cache.insert promptSlot x.key a).find? promptSlot x.key = some a := by
    simp [find?, shelf_insert lawful]
  have overtaken : Overtaken promptSlot x.key a t.cache.generation t.prompts.callers
      ⟨t.cache.insert promptSlot x.key a, t.forgotten, t.prompts⟩ :=
    ⟨rfl, carries, fun hy ykey flight => ⟨_, hy, ykey, rfl, flight⟩, a, now, .inl rfl⟩
  have only : ∀ e ∈ after.map Move.atPrompts, e.spares x.key := by
    intro e he
    obtain ⟨m, hm, rfl⟩ := List.mem_map.1 he
    exact Move.spares_atPrompts (spares m hm)
  have seen := (run_seen rest).1
  refine ⟨(overtaken.run lawful only seen).entry, fun alone => ?_⟩
  have leaves : x.Leaves t.cache.generation n a
      ((t.cache.insert promptSlot x.key a).find? promptSlot x.key) := by
    simpa only [Caller.Leaves, place, true_and] using now
  obtain ⟨y, hy, load, final⟩ := overtaken.leaves_run alone lawful only seen hi rfl leaves
  obtain rfl : x' = y := Option.some.inj (hi'.symm.trans hy)
  simp only [Caller.Leaves, ended, load] at final
  exact final

/-- A load that a clear has overtaken leaves what is put in after the clear. -/
theorem insert_kept_or_overtaken_cleared :
    let go : List (Traffic.Move String) := List.replicate 5 (.prompts (.go 0))
    let old : Config := { template := "old" }
    let new : Config := { template := "new" }
    let before := .prompts (.call "k" (.ok old)) :: go ++
      [.forget, .prompts .empty, .fragments .empty]
    ∃ (t u : Traffic String) (x x' : Caller Config String), (start {}).run before = some t ∧
      t.prompts.callers[0]? = some x ∧ x.place = .holding 0 (.loading 0) ∧
      t.run (.prompts (.insert x.key new) :: go) = some u ∧ (∀ m ∈ go, m.spares x.key) ∧
      u.prompts.callers[0]? = some x' ∧ x'.place = .done (.ok old) ∧
      u.cache.find? promptSlot "k" = some new := by
  intro go old new before
  have ran : ((start {}).run before).map (fun t => (t.prompts.callers, t.cache.generation)) =
      some ([⟨"k", .ok old, .holding 0 (.loading 0), {}, some 0⟩], 1) := by decide +kernel
  obtain ⟨t, ht, stopped⟩ := Option.map_eq_some_iff.1 ran
  obtain ⟨callers, generation⟩ := Prod.mk.inj stopped
  have ended : (t.run (.prompts (.insert "k" new) :: go)).map (fun u => u.prompts.callers) =
      some [⟨"k", .ok old, .done (.ok old), {}, some 0⟩] := by
    have whole : ((start {}).run (before ++ .prompts (.insert "k" new) :: go)).map
        (fun u => u.prompts.callers) = some [⟨"k", .ok old, .done (.ok old), {}, some 0⟩] := by
      decide +kernel
    rwa [run, List.foldlM_append, ← run, ht] at whole
  obtain ⟨u, hu, final⟩ := Option.map_eq_some_iff.1 ended
  have hi := congrArg (·[0]?) callers
  have hi' := congrArg (·[0]?) final
  have spares : ∀ m ∈ go, m.spares "k" := by decide +kernel
  have ⟨_, kept⟩ := insert_kept_or_overtaken {} ht hi rfl hu spares hi' rfl
  refine ⟨t, u, _, _, ht, hi, rfl, hu, spares, hi', rfl, ?_⟩
  have alone := kept fun j y other hy => by
    rw [callers, List.getElem?_cons, if_neg other] at hy
    simp at hy
  rwa [generation, if_neg (by decide)] at alone

/-- A load that began in the present generation stores over what was put in while it ran. -/
theorem insert_overtaken :
    let go : List (Traffic.Move String) := List.replicate 5 (.prompts (.go 0))
    let old : Config := { template := "old" }
    let new : Config := { template := "new" }
    let before := .prompts (.call "k" (.ok old)) :: go
    ((start {}).run before).map (fun t => t.prompts.callers.map Caller.place) =
        some [.holding 0 (.loading 0)] ∧
      ((start {}).run (before ++ .prompts (.insert "k" new) :: go)).map
          (fun t => (t.prompts.callers.map Caller.place, t.cache.find? promptSlot "k")) =
        some ([.done (.ok old)], some old) ∧
      (∀ m ∈ go, m.spares "k") ∧ old ≠ new := by
  decide +kernel

end Traffic
end PromptAssembly.Cache
