import Mathlib.Algebra.Group.Nat.Defs
import PromptAssembly.Proofs.Cache.Gating

/-!
# Loads in one generation

Clearing the cache is no single step: a generation begins before the gates are cleared. Two loads of
one key overlap only across a clearing of the gates, and in one generation only if one of the callers
took its gate before the generation began, or while a clear was still under way. A gate that is taken
between the two steps of a clear lets this happen.
-/
namespace PromptAssembly.Cache
open Prompt (Config)
variable {α ε : Type}

/-- A caller took its gate in the generation it loads in, when all clears were over. -/
def Caller.IsSteady (x : Caller α ε) : Prop :=
  x.began = some x.took.forgotten ∧ x.took.emptied = x.took.forgotten

/-- Generations count the clears, and a caller notes the one it loads in. -/
structure Dated (first : UInt64) (v : View α ε) : Prop where
  generation : v.cache.generation = first + .ofNat v.forgotten
  began {i : Nat} {x : Caller α ε} {n : UInt64} : v.lane.callers[i]? = some x →
    x.generation? = some n → ∃ b ≤ v.forgotten, x.began = some b ∧ n = first + .ofNat b

namespace Dated
variable {slot : Slot α} {first : UInt64} {v v' w : View α ε} {c c' : Cache} {lane : Lane α ε}
  {n i : Nat} {x x' : Caller α ε} {locked : List Gate}

theorem start : Dated c.generation (⟨c, 0, {}⟩ : View α ε) where
  generation := by simp
  began := by simp

theorem set (h : Dated first ⟨c, n, lane⟩) (generation : c'.generation = c.generation)
    (began : ∀ m, x'.generation? = some m → ∃ b ≤ n, x'.began = some b ∧ m = first + .ofNat b) :
    Dated first ⟨c', n, { lane with callers := lane.callers.set i x', locked }⟩ where
  generation := generation.trans h.generation
  began {j y m} hy hm := by
    rcases getElem?_set_cases hy with ⟨-, rfl⟩ | ⟨-, hy⟩
    · exact began m hm
    · exact h.began hy hm

theorem go (lawful : slot.Lawful) (h : Dated first ⟨c, n, lane⟩) (hi : lane.callers[i]? = some x)
    (hstep : x.step slot ⟨n, lane.emptied⟩ c lane.locked = some (c', locked, x')) :
    Dated first ⟨c', n, { lane with callers := lane.callers.set i x', locked }⟩ := by
  obtain ⟨shelf, put⟩ := exists_put_of_step lawful hstep
  have generation : c'.generation = c.generation := by rw [put, lawful.generation_put]
  refine h.set generation fun m hm => ?_
  cases Caller.step_cases hstep with
  | start =>
    cases hm
    exact ⟨n, Nat.le_refl n, rfl, h.generation⟩
  | succeed =>
    cases hm
    have before := h.began hi rfl
    exact before
  | _ => cases hm

theorem step (lawful : slot.Lawful) {e : Event α ε} (hstep : View.Step slot v e v')
    (h : Dated first v) : Dated first v' := by
  cases hstep with
  | move hmove =>
    cases Lane.move_cases hmove with
    | go hi hstep => exact h.go lawful hi hstep
    | insert | empty => exact ⟨(lawful.generation_put _ _).trans h.generation, h.began⟩
    | call =>
      refine ⟨h.generation, fun hy hm => ?_⟩
      rcases getElem?_concat_cases hy with hy | rfl
      · exact h.began hy hm
      · cases hm
  | forget _ hgeneration =>
    refine ⟨?_, fun hy hm => ?_⟩
    · rw [hgeneration, h.generation, UInt64.ofNat_add, UInt64.add_assoc]
      rfl
    · obtain ⟨b, bound, rest⟩ := h.began hy hm
      exact ⟨b, Nat.le_succ_of_le bound, rest⟩
  | elsewhere _ hgeneration => exact ⟨hgeneration.trans h.generation, h.began⟩

theorem run (lawful : slot.Lawful) {es : List (Event α ε)} (hrun : View.Run slot v es w)
    (h : Dated first v) : Dated first w :=
  hrun.keeps (P := fun _ => True) (fun _ _ _ _ => step lawful) (fun _ _ => trivial) h

theorem eq_of_generation (h : Dated first v) {j : Nat} {y : Caller α ε} {m : UInt64}
    (few : v.forgotten < 2 ^ 64) (hi : v.lane.callers[i]? = some x)
    (hj : v.lane.callers[j]? = some y) (hx : x.generation? = some m)
    (hy : y.generation? = some m) : x.began = y.began := by
  obtain ⟨b, hb, xbegan, xm⟩ := h.began hi hx
  obtain ⟨b', hb', ybegan, ym⟩ := h.began hj hy
  have same : UInt64.ofNat b = UInt64.ofNat b' := (UInt64.add_right_inj first).1 (xm.symm.trans ym)
  have : b = b' := by
    have := congrArg UInt64.toNat same
    simp only [UInt64.toNat_ofNat'] at this
    omega
  rw [xbegan, ybegan, this]

end Dated

namespace Traffic
variable {ε : Type}

/-- Two loads of one key that run at one time belong to callers who took their gates on different
sides of a clearing of the gates. In one generation this happens only if one of the two took its gate
before the generation began, or while a clear had begun and not yet cleared the gates. -/
theorem loads_overlap_across_emptying (c : Cache) {ms : List (Traffic.Move ε)} {t : Traffic ε}
    (hrun : (start c).run ms = some t) {i j : Nat} {x y : Caller Config ε} {n n' : UInt64}
    (hi : t.prompts.callers[i]? = some x) (hj : t.prompts.callers[j]? = some y) (ne : i ≠ j)
    (key : x.key = y.key) (hx : x.generation? = some n) (hy : y.generation? = some n') :
    x.took.emptied ≠ y.took.emptied ∧
      (n = n' → t.forgotten < 2 ^ 64 → ¬ (x.IsSteady ∧ y.IsSteady)) := by
  have seen := (run_seen hrun).1
  have guarded : Guarded promptSlot t.atPrompts := Guarded.start.run promptSlot_lawful seen
  have dated : Dated c.generation t.atPrompts := Dated.start.run promptSlot_lawful seen
  obtain ⟨g, hg⟩ := Caller.exists_inside?_of_generation? hx
  obtain ⟨g', hg'⟩ := Caller.exists_inside?_of_generation? hy
  have apart : x.took.emptied ≠ y.took.emptied := fun together =>
    ne (guarded.eq_of_inside hi hj key together hg hg')
  refine ⟨apart, fun same few ⟨xsteady, ysteady⟩ => apart ?_⟩
  subst same
  have began : x.began = y.began := dated.eq_of_generation few hi hj hx hy
  have forgotten : x.took.forgotten = y.took.forgotten :=
    Option.some.inj (xsteady.1.symm.trans (began.trans ysteady.1))
  rw [xsteady.2, ysteady.2, forgotten]

/-- A clear begins, one caller takes its gate and starts to load, the clear goes on, and another
caller takes a gate and starts to load. -/
def straddling : List (Traffic.Move String) :=
  let caller (i : Nat) : List (Traffic.Move String) :=
    .prompts (.call "k" (.ok {})) :: List.replicate 5 (.prompts (.go i))
  .forget :: caller 0 ++ [.prompts .empty, .fragments .empty] ++ caller 1

theorem loads_overlap_across_emptying_straddling :
    ∃ t x y, (start {}).run straddling = some t ∧ t.prompts.callers[0]? = some x ∧
      t.prompts.callers[1]? = some y ∧ x.key = y.key ∧ x.generation? = some 1 ∧
      y.generation? = some 1 ∧ t.forgotten < 2 ^ 64 ∧ x.took.emptied ≠ y.took.emptied ∧
      ¬ (x.IsSteady ∧ y.IsSteady) := by
  have ran : ((start {}).run straddling).map (fun t => (t.prompts.callers, t.forgotten)) =
      some ([⟨"k", .ok {}, .holding 0 (.loading 1), ⟨1, 0⟩, some 1⟩,
        ⟨"k", .ok {}, .holding 1 (.loading 1), ⟨1, 1⟩, some 1⟩], 1) := by decide +kernel
  obtain ⟨t, ht, final⟩ := Option.map_eq_some_iff.1 ran
  obtain ⟨callers, forgotten⟩ := Prod.mk.inj final
  have few : t.forgotten < 2 ^ 64 := by omega
  have first := congrArg (·[0]?) callers
  have second := congrArg (·[1]?) callers
  have apart := loads_overlap_across_emptying {} ht first second (by decide) rfl rfl rfl
  exact ⟨t, _, _, ht, first, second, rfl, rfl, rfl, few, apart.1, apart.2 rfl few⟩

/-- Two callers load one key in one generation. -/
theorem loads_overlap_in_one_generation :
    ((start {}).run straddling).map
        (fun t => t.prompts.callers.map fun x => (x.key, x.generation?)) =
      some [("k", some 1), ("k", some 1)] := by
  decide +kernel

end Traffic
end PromptAssembly.Cache
