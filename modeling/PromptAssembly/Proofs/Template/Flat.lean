import PromptAssembly.Proofs.Template.Rendering
import PromptAssembly.Template.SinglePass

/-!
# Flat variables

Where no variable that a text mentions has a value with a placeholder, there is nothing to expand
twice: every trail ends with its first variable, no depth bound is ever met, and the expansion is
one pass of substitution (`expand_of_flat`). A lenient renderer makes just this pass, and so does a
strict one if every name is bound.
-/
namespace PromptAssembly.Template

/-- The values of the variables that the text mentions hold no placeholder. -/
def Flat (vars : Vars) (text : String) : Prop :=
  ∀ name ∈ references text, ∀ value, vars.get? name = some value → references value = []

instance (vars : Vars) (text : String) : Decidable (Flat vars text) :=
  inferInstanceAs (Decidable (∀ name ∈ references text, ∀ value ∈ vars.get? name,
    references value = []))

/-- No value holds a placeholder. -/
def Plain (vars : Vars) : Prop := ∀ name value, vars.get? name = some value → references value = []

variable {vars : Vars} {text value : String}

namespace Plain

theorem flat (h : Plain vars) (text : String) : Flat vars text := fun name _ => h name

theorem empty : Plain Dict.empty := by
  intro name value h
  cases h

theorem insert (h : Plain vars) (name : String) (hv : references value = []) :
    Plain (vars.insert name value) := by
  intro x u hx
  rw [Dict.get?_insert] at hx
  split at hx
  · rwa [← Option.some.inj hx]
  · exact h x u hx

theorem overlay {winning : Vars} (h : Plain vars) (hw : Plain winning) :
    Plain (vars.overlay winning) := by
  intro x u hx
  rw [Dict.get?_overlay, Option.or_eq_some_iff] at hx
  rcases hx with hx | ⟨-, hx⟩
  · exact hw x u hx
  · exact h x u hx

end Plain

theorem IsTrail.length_le_one {xs : List String} (flat : Flat vars text)
    (h : IsTrail vars text xs) : xs.length ≤ 1 := by
  match xs, h with
  | [], _ => simp
  | [x], _ => simp
  | x :: y :: xs, ⟨hx, value, hv, hy, _⟩ => simp [flat x hx value hv] at hy

theorem exists_expand_of_flat (flat : Flat vars text) {maxDepth : Nat} (pos : 0 < maxDepth) :
    ∃ result, expand vars maxDepth text = .ok result := by
  cases hx : expand vars maxDepth text with
  | ok result => exact ⟨result, rfl⟩
  | error e =>
    cases genuine_of_expand hx with
    | circular trail _ again _ =>
      have short := trail.length_le_one flat
      have := List.length_pos_of_mem again
      simp only [List.length_append, List.length_singleton] at short
      omega
    | deep trail _ _ full =>
      have short := trail.length_le_one flat
      simp only [List.length_append, List.length_singleton] at short
      omega

namespace Expands

theorem of_no_names (vars : Vars) {ps : List Piece} (h : ps.filterMap Piece.name? = []) :
    Expands vars ps (String.ofList (ps.flatMap Piece.chars)) [] := by
  induction ps with
  | nil => exact .nil
  | cons p ps ih =>
    cases p with
    | char c =>
      rw [List.flatMap_cons, String.ofList_append]
      exact .char (ih (by simpa [Piece.name?] using h))
    | placeholder name => simp [Piece.name?] at h

theorem of_no_references (vars : Vars) (h : references text = []) :
    Expands vars (pieces text.toList) text [] := by
  have chars := of_no_names vars h
  rwa [flatMap_chars_pieces, String.ofList_toList] at chars

theorem of_flat {ps : List Piece} (flat : ∀ name ∈ ps.filterMap Piece.name?, ∀ value,
    vars.get? name = some value → references value = []) :
    Expands vars ps (String.ofList (ps.flatMap (Piece.substitute vars)))
      ((ps.filterMap Piece.name?).filter (!vars.contains ·)) := by
  induction ps with
  | nil => exact .nil
  | cons p ps ih =>
    have rest := ih fun name hname => flat name <| by
      rw [List.filterMap_cons]
      split <;> simp [hname]
    rw [List.flatMap_cons, String.ofList_append]
    cases p with
    | char c => exact .char rest
    | placeholder name =>
      cases hv : vars.get? (String.ofList name) with
      | none =>
        have free : Expands vars (.placeholder name :: ps) _ _ := .unbound hv rest
        simpa [Piece.name?, Piece.substitute, Dict.contains, hv] using free
      | some value =>
        have inner := of_no_references vars (flat _ (by simp [Piece.name?]) value hv)
        have held : Expands vars (.placeholder name :: ps) _ _ := .bound hv inner rest
        simpa [Piece.name?, Piece.substitute, Dict.contains, hv] using held

end Expands

/-- One pass of substitution, and the names that are not bound. -/
theorem expand_of_flat (flat : Flat vars text) {maxDepth : Nat} (pos : 0 < maxDepth) :
    ∃ p, expand vars maxDepth text = .ok (substituteOnce text vars, p) ∧
      p.unresolved = noteAll [] ((references text).filter (!vars.contains ·)) := by
  obtain ⟨⟨out, p⟩, hx⟩ := exists_expand_of_flat flat pos
  obtain ⟨missing, expands, noted⟩ := expands_of_expand hx
  have once : Expands vars (pieces text.toList) (substituteOnce text vars)
      ((references text).filter (!vars.contains ·)) := by
    rw [← String.ofList_toList (s := substituteOnce text vars), toList_substituteOnce]
    exact Expands.of_flat flat
  obtain ⟨rfl, rfl⟩ := expands.unique once
  exact ⟨p, hx, noted⟩

namespace Renderer

theorem render_of_flat (r : Renderer) (flat : Flat vars text)
    (bound : ∀ name ∈ references text, vars.contains name) :
    r.render text vars = .ok (substituteOnce text vars) := by
  obtain ⟨p, hx, noted⟩ := expand_of_flat flat r.maxDepth_pos
  have all : p.unresolved = [] := by
    have none : (references text).filter (!vars.contains ·) = [] :=
      List.filter_eq_nil_iff.2 fun name hname => by simp [bound name hname]
    rw [noted, none]
    rfl
  rw [render_eq, hx, conclude, all]
  simp

/-- Whatever its bound, a lenient renderer makes one pass of substitution over a text that mentions
no variable whose value holds a placeholder. -/
theorem lenient_render_of_flat (r : Renderer) (lenient : r.strict = false) {text : String}
    {vars : Vars} (flat : Flat vars text) :
    r.render text vars = .ok (substituteOnce text vars) := by
  obtain ⟨p, hx, _⟩ := expand_of_flat flat r.maxDepth_pos
  rw [render_eq, hx, conclude_lenient lenient]

/-- Values that make up a placeholder only when they stand side by side, an unbound name, a variable
mentioned twice, and stray braces. -/
theorem lenient_render_of_flat_braces :
    let vars : Vars := Dict.ofList [("a", "\x7b"), ("b", "x\x7d\x7d"), ("x", "never {{a}}")]
    let r : Renderer := { maxDepth := 1 }
    let text := "{{a}}{{a}}{{b}}{{u}}\x7d\x7d\x7b"
    Flat vars text ∧ r.render text vars = .ok "{{x}}{{u}}\x7d\x7d\x7b" := by
  intro vars r text
  have flat : Flat vars text := by decide +kernel
  have once : substituteOnce text vars = "{{x}}{{u}}\x7d\x7d\x7b" := by decide +kernel
  refine ⟨flat, ?_⟩
  rw [← once]
  exact lenient_render_of_flat r rfl flat

end Renderer
end PromptAssembly.Template
