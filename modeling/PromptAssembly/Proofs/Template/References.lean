import Mathlib.Data.List.Nodup
import Mathlib.Data.List.Perm.Subperm
import Mathlib.Logic.Relation
import PromptAssembly.Template
import PromptAssembly.Template.Placeholder

/-!
# References between variables

A bound variable refers to the placeholders of its value. What a text mentions, directly or through
values, is reachable from it; a trail is one way of getting there over bound variables only. A trail
that repeats no variable is no longer than the map (`IsTrail.length_le`), and one that comes back to
a variable shows a cycle (`IsTrail.cycle`).
-/
namespace PromptAssembly.Template
open Relation (TransGen)

def Refers (vars : Vars) (x y : String) : Prop :=
  ∃ value, vars.get? x = some value ∧ y ∈ references value

inductive Reachable (vars : Vars) (text : String) : String → Prop
  | mentioned {y : String} (h : y ∈ references text) : Reachable vars text y
  | step {x y : String} (hx : Reachable vars text x) (h : Refers vars x y) : Reachable vars text y

/-- No variable that is reachable from the text leads back to itself. -/
def Acyclic (vars : Vars) (text : String) : Prop :=
  ∀ x, Reachable vars text x → ¬ TransGen (Refers vars) x x

/-- Bound variables, the first mentioned by the text and each other by the value before it. -/
def IsTrail (vars : Vars) : String → List String → Prop
  | _, [] => True
  | text, x :: xs => x ∈ references text ∧ ∃ value, vars.get? x = some value ∧ IsTrail vars value xs

variable {vars : Vars} {text value : String} {x y : String} {xs ys : List String}

theorem Reachable.of_value (hx : Reachable vars text x) (hv : vars.get? x = some value)
    (h : Reachable vars value y) : Reachable vars text y := by
  induction h with
  | mentioned h => exact .step hx ⟨value, hv, h⟩
  | step _ hr ih => exact .step ih hr

theorem Reachable.transGen_of_value (hv : vars.get? x = some value) (h : Reachable vars value y) :
    TransGen (Refers vars) x y := by
  induction h with
  | mentioned h => exact .single ⟨value, hv, h⟩
  | step _ hr ih => exact ih.tail hr

theorem not_transGen_self_of_acc (h : Acc (flip (Refers vars)) x) :
    ¬ TransGen (Refers vars) x x := by
  induction h with
  | intro x _ ih =>
    intro hx
    obtain ⟨y, hxy, hyx⟩ := TransGen.head'_iff.1 hx
    exact ih y hxy (TransGen.tail' hyx hxy)

theorem acc_of_value (hv : vars.get? x = some value)
    (h : ∀ y ∈ references value, Acc (flip (Refers vars)) y) : Acc (flip (Refers vars)) x := by
  refine .intro _ fun y hy => ?_
  obtain ⟨u, hu, hmem⟩ := hy
  obtain rfl := Option.some.inj (hv.symm.trans hu)
  exact h y hmem

theorem Reachable.acc (h : ∀ y ∈ references text, Acc (flip (Refers vars)) y)
    (hx : Reachable vars text x) : Acc (flip (Refers vars)) x := by
  induction hx with
  | mentioned hy => exact h _ hy
  | step _ hr ih => exact ih.inv hr

theorem acyclic_of_acc (h : ∀ y ∈ references text, Acc (flip (Refers vars)) y) :
    Acyclic vars text :=
  fun _ hx => not_transGen_self_of_acc (hx.acc h)

theorem nodup_append_singleton (h : xs.Nodup) (hx : x ∉ xs) : (xs ++ [x]).Nodup := by
  rw [← List.concat_eq_append]
  exact .concat hx h

namespace IsTrail

theorem right (h : IsTrail vars text (xs ++ ys)) : ∃ value, IsTrail vars value ys := by
  induction xs generalizing text with
  | nil => exact ⟨text, h⟩
  | cons x xs ih =>
    obtain ⟨_, value, _, hxs⟩ := h
    exact ih hxs

theorem extend (h : IsTrail vars text (xs ++ [x])) (hv : vars.get? x = some value)
    (hy : IsTrail vars value ys) : IsTrail vars text (xs ++ x :: ys) := by
  induction xs generalizing text with
  | nil => exact ⟨h.1, value, hv, hy⟩
  | cons z xs ih =>
    obtain ⟨hz, u, hu, hxs⟩ := h
    exact ⟨hz, u, hu, ih hxs⟩

theorem bound (h : IsTrail vars text xs) (hx : x ∈ xs) : ∃ value, vars.get? x = some value := by
  induction xs generalizing text with
  | nil => simp at hx
  | cons z xs ih =>
    obtain ⟨_, value, hv, hxs⟩ := h
    rcases List.mem_cons.1 hx with rfl | hx
    · exact ⟨value, hv⟩
    · exact ih hxs hx

theorem reachable (h : IsTrail vars text xs) (hx : x ∈ xs) : Reachable vars text x := by
  induction xs generalizing text with
  | nil => simp at hx
  | cons z xs ih =>
    obtain ⟨hz, value, hv, hxs⟩ := h
    rcases List.mem_cons.1 hx with rfl | hx
    · exact .mentioned hz
    · exact .of_value (.mentioned hz) hv (ih hxs hx)

theorem transGen (h : IsTrail vars text (x :: xs)) (hy : y ∈ xs) : TransGen (Refers vars) x y := by
  obtain ⟨_, value, hv, hxs⟩ := h
  exact Reachable.transGen_of_value hv (hxs.reachable hy)

theorem cycle (h : IsTrail vars text (xs ++ [x])) (hx : x ∈ xs) :
    Reachable vars text x ∧ TransGen (Refers vars) x x := by
  obtain ⟨before, after, rfl⟩ := List.append_of_mem hx
  refine ⟨h.reachable (by simp), ?_⟩
  rw [List.append_assoc] at h
  obtain ⟨value, hvalue⟩ := h.right
  exact transGen hvalue (by simp)

theorem nodup (h : IsTrail vars text xs) (acyclic : Acyclic vars text) : xs.Nodup := by
  induction xs generalizing text with
  | nil => exact .nil
  | cons x xs ih =>
    have hx : Reachable vars text x := h.reachable (by simp)
    obtain ⟨_, value, hv, hxs⟩ := h
    refine List.nodup_cons.2 ⟨fun again => ?_, ih hxs fun y hy => acyclic y (hx.of_value hv hy)⟩
    exact acyclic x hx (Reachable.transGen_of_value hv (hxs.reachable again))

theorem length_le (h : IsTrail vars text xs) (hn : xs.Nodup) : xs.length ≤ vars.entries.length := by
  have sub : xs ⊆ vars.entries.map (·.1) := by
    intro x hx
    obtain ⟨value, hv⟩ := h.bound hx
    obtain ⟨before, after, hl, _⟩ := List.lookup_eq_some_iff.1 hv
    simp [hl]
  simpa using (hn.subperm sub).length_le

end IsTrail
end PromptAssembly.Template
