import Mathlib.Algebra.Group.Nat.Defs
import PromptAssembly.Cache.Script
import PromptAssembly.Proofs.Cache.Loading

/-!
# Clears during a load

A loader may use the cache itself: it runs a script. What it yields is kept unless a clear was executed
meanwhile, at whatever depth. Generations count the clears that were executed
(`generation_runSteps`), so that fewer than `2 ^ 64` of them are not overlooked.
-/
namespace PromptAssembly.Cache
open Prompt (Config Fragment)

mutual

/-- How many clears a step executed, by its outcome. Steps within a load count if the loader ran. -/
def Step.clears : Step → Outcome → Nat
  | .clear, _ => 1
  | .loadPrompt _ during _, .of _ (some outcomes) _ _ => clearsOf during outcomes
  | .loadFragment _ during _, .of _ (some outcomes) _ _ => clearsOf during outcomes
  | _, _ => 0

def clearsOf : List Step → List Outcome → Nat
  | s :: ss, o :: os => s.clears o + clearsOf ss os
  | _, _ => 0

end

section
variable {key : String} {during : List Step} {answer : Answer} {outcomes : Option (List Outcome)}
  {prompts fragments : List String}

theorem Step.clears_loadPrompt {result : Except String Config} :
    (Step.loadPrompt key during result).clears (.of answer outcomes prompts fragments) =
      outcomes.elim 0 (clearsOf during) := by
  cases outcomes <;> rfl

theorem Step.clears_loadFragment {result : Except String Fragment} :
    (Step.loadFragment key during result).clears (.of answer outcomes prompts fragments) =
      outcomes.elim 0 (clearsOf during) := by
  cases outcomes <;> rfl

end

section
variable {α : Type} {slot : Slot α} {key : String} {within : StateM Cache (List Outcome)}
  {result : Except String α} {c : Cache}

theorem run_run_getThe (outcomes : Option (List Outcome)) :
    ((getThe Cache : StateT (Option (List Outcome)) (StateM Cache) Cache).run outcomes).run c =
      pure ((c, outcomes), c) := rfl

theorem run_loadWithin_of_find? {a : α} (h : c.find? slot key = some a) :
    (loadWithin slot key within result).run c = ((.ok a, none), c) := by
  simp only [loadWithin, getOrLoad, StateT.run_bind, run_run_getThe, pure_bind, h]
  rfl

theorem run_loadWithin_of_none (lawful : slot.Lawful) (h : c.find? slot key = none) :
    (loadWithin slot key within result).run c =
      ((result, some (within.run (c.takeGate slot key).2).1),
        (match result with
          | .ok a => (within.run (c.takeGate slot key).2).2.keep slot c.generation key a
          | .error _ => (within.run (c.takeGate slot key).2).2).releaseGate slot key
            (c.takeGate slot key).1) := by
  have held := (find?_takeGate lawful c key).trans h
  have generation : (c.takeGate slot key).2.generation = c.generation := lawful.generation_put _ _
  have taken : ((modifyGetThe Cache (·.takeGate slot key) :
      StateT (Option (List Outcome)) (StateM Cache) Gate).run none).run c =
        pure (((c.takeGate slot key).1, none), (c.takeGate slot key).2) := rfl
  simp only [loadWithin, getOrLoad, loadBehindGate, StateT.run_bind, run_run_getThe, taken,
    pure_bind, h, held, generation]
  cases result <;> rfl

theorem generation_loadWithin (lawful : slot.Lawful) {clears : List Outcome → Nat}
    (h : ∀ c, (within.run c).2.generation = c.generation + .ofNat (clears (within.run c).1)) :
    ((loadWithin slot key within result).run c).2.generation =
      c.generation + .ofNat (((loadWithin slot key within result).run c).1.2.elim 0 clears) := by
  cases found : c.find? slot key with
  | some a =>
    rw [run_loadWithin_of_find? found]
    exact (UInt64.add_zero _).symm
  | none =>
    rw [run_loadWithin_of_none lawful found]
    simp only [releaseGate, lawful.generation_put]
    cases result <;> simp only [generation_keep lawful, h, takeGate, lawful.generation_put] <;> rfl

end

mutual

theorem Step.generation_run (s : Step) (c : Cache) :
    (s.run.run c).2.generation = c.generation + .ofNat (s.clears (s.run.run c).1) := by
  -- Keeping an entry and passing a gate leave the generation alone, so that only the steps within count.
  cases s with
  | loadPrompt key during result =>
    refine (generation_loadWithin promptSlot_lawful (generation_runSteps during)).trans ?_
    exact congrArg (c.generation + .ofNat ·) Step.clears_loadPrompt.symm
  | loadFragment key during result =>
    refine (generation_loadWithin fragmentSlot_lawful (generation_runSteps during)).trans ?_
    exact congrArg (c.generation + .ofNat ·) Step.clears_loadFragment.symm
  | clear => rfl
  | insertPrompt | insertFragment | prompt | fragment | look => exact (UInt64.add_zero _).symm

theorem generation_runSteps (ss : List Step) (c : Cache) :
    ((runSteps ss).run c).2.generation =
      c.generation + .ofNat (clearsOf ss ((runSteps ss).run c).1) := by
  cases ss with
  | nil => exact (UInt64.add_zero _).symm
  | cons s ss =>
    have first := s.generation_run c
    have rest := generation_runSteps ss (s.run.run c).2
    calc ((runSteps ss).run (s.run.run c).2).2.generation
      _ = c.generation + .ofNat (s.clears (s.run.run c).1) +
          .ofNat (clearsOf ss ((runSteps ss).run (s.run.run c).2).1) := by rw [rest, first]
      _ = c.generation + .ofNat (clearsOf (s :: ss) ((runSteps (s :: ss)).run c).1) := by
        rw [UInt64.add_assoc, ← UInt64.ofNat_add]
        rfl

end

section
variable {α : Type}

/-- What the steps within a load answer and leave. They run once the gate is taken. -/
def runWithin (slot : Slot α) (key : String) (during : List Step) (c : Cache) :
    List Outcome × Cache :=
  (runSteps during).run (c.takeGate slot key).2

/-- How a load ends that runs steps while it loads. -/
structure Loads (slot : Slot α) (key : String) (during : List Step) (result : Except String α)
    (c : Cache) : Prop where
  /-- What is there is handed out. The loader does not run and nothing changes. -/
  present {a : α} : c.find? slot key = some a →
    (loadWithin slot key (runSteps during) result).run c = ((.ok a, none), c)
  /-- What is missing is what the loader gives. -/
  missing : c.find? slot key = none → ((loadWithin slot key (runSteps during) result).run c).1 =
    (result, some (runWithin slot key during c).1)
  /-- It becomes an entry if there was no clear, -/
  kept {a : α} : c.find? slot key = none → result = .ok a →
    clearsOf during (runWithin slot key during c).1 = 0 →
      ((loadWithin slot key (runSteps during) result).run c).2.entries =
        ((runWithin slot key during c).2.insert slot key a).entries
  /-- and leaves the entries as they are if there was one, -/
  discarded {a : α} : c.find? slot key = none → result = .ok a →
    0 < clearsOf during (runWithin slot key during c).1 →
      clearsOf during (runWithin slot key during c).1 < 2 ^ 64 →
        ((loadWithin slot key (runSteps during) result).run c).2.entries =
          (runWithin slot key during c).2.entries
  /-- or if the loader failed. -/
  failed {e : String} : c.find? slot key = none → result = .error e →
    ((loadWithin slot key (runSteps during) result).run c).2.entries =
      (runWithin slot key during c).2.entries

variable {slot : Slot α} {key : String} {during : List Step} {result : Except String α} {c : Cache}

theorem generation_runWithin (lawful : slot.Lawful) :
    (runWithin slot key during c).2.generation =
      c.generation + .ofNat (clearsOf during (runWithin slot key during c).1) := by
  rw [runWithin, generation_runSteps, takeGate, lawful.generation_put]

theorem generation_eq_iff (lawful : slot.Lawful)
    (few : clearsOf during (runWithin slot key during c).1 < 2 ^ 64) :
    (runWithin slot key during c).2.generation = c.generation ↔
      clearsOf during (runWithin slot key during c).1 = 0 := by
  rw [generation_runWithin lawful, UInt64.add_eq_left, UInt64.ofNat_eq_iff_mod_eq_toNat,
    Nat.mod_eq_of_lt few]
  rfl

theorem loads_of_lawful (lawful : slot.Lawful)
    (released : ∀ c gate, (releaseGate c slot key gate).entries = c.entries) :
    Loads slot key during result c where
  present := run_loadWithin_of_find?
  missing absent := by rw [run_loadWithin_of_none lawful absent, runWithin]
  kept absent yields uncleared := by
    have current := (generation_eq_iff lawful (by omega)).2 uncleared
    simp only [run_loadWithin_of_none lawful absent, released, yields, keep]
    exact congrArg entries (if_pos current)
  discarded absent yields cleared few := by
    have past := mt (generation_eq_iff lawful few).1 (Nat.ne_of_gt cleared)
    simp only [run_loadWithin_of_none lawful absent, released, yields, keep]
    exact congrArg entries (if_neg past)
  failed absent fails := by
    rw [run_loadWithin_of_none lawful absent, released, fails, runWithin]

end

/-- A clear during a load discards what is loaded, and nothing else does. -/
theorem load_discarded_iff_cleared (c : Cache) (key : String) (during : List Step)
    (config : Except String Config) (fragment : Except String Fragment) :
    Loads promptSlot key during config c ∧ Loads fragmentSlot key during fragment c :=
  ⟨loads_of_lawful promptSlot_lawful fun _ _ => rfl,
    loads_of_lawful fragmentSlot_lawful fun _ _ => rfl⟩

/-- A load of the same key that begins after the clear keeps what it gives, and the load around it
does not replace it. -/
theorem load_discarded_iff_cleared_nested :
    let outer : Config := { template := "outer" }
    let inner : Config := { template := "inner" }
    let during : List Step := [.loadFragment "f" [.clear] (.ok {}),
      .loadPrompt "k" [] (.ok inner)]
    let loaded := (loadWithin promptSlot "k" (runSteps during) (.ok outer)).run {}
    find? {} promptSlot "k" = none ∧
      clearsOf during (runWithin promptSlot "k" during {}).1 = 1 ∧ loaded.1.1 = .ok outer ∧
      loaded.2.entries = ⟨Dict.empty.insert "k" inner, Dict.empty⟩ := by
  intro outer inner during loaded
  have ⟨loads, _⟩ := load_discarded_iff_cleared {} "k" during (.ok outer) (.error "")
  have absent : find? {} promptSlot "k" = none := by decide +kernel
  have once : clearsOf during (runWithin promptSlot "k" during {}).1 = 1 := by decide +kernel
  have prompts : (runWithin promptSlot "k" during {}).2.prompts.entries =
      Dict.empty.insert "k" inner := by decide +kernel
  have fragments : (runWithin promptSlot "k" during {}).2.fragments.entries = Dict.empty := by
    decide +kernel
  refine ⟨absent, once, congrArg Prod.fst (loads.missing absent), ?_⟩
  rw [loads.discarded absent rfl (by omega) (by omega), entries, prompts, fragments]

end PromptAssembly.Cache
