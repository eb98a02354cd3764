import Mathlib.Control.Monad.Basic
import PromptAssembly.Proofs.Template.Failures
import PromptAssembly.Proofs.Template.Table
import PromptAssembly.Template.Renderer

/-!
# What rendering computes

A renderer is an expansion and a last look at the noted names; the short cut for texts without an
opening changes nothing (`Renderer.render_eq`). What comes out is the full expansion of the
template, cycles are found wherever they can be reached, and every error has a trail to show.
-/
namespace PromptAssembly.Template
open Relation (TransGen)

namespace Renderer

/-- What a renderer makes of an expansion: a strict one does not put up with unbound names. -/
def conclude (r : Renderer) : Except RenderError (String × Progress) → Except RenderError String
  | .error e => .error e
  | .ok (text, progress) =>
    if r.strict && !progress.unresolved.isEmpty then
      .error (.unresolvedPlaceholders progress.unresolved)
    else .ok text

theorem references_eq_nil {text : String} (h : hasOpening text.toList = false) :
    references text = [] :=
  filterMap_name?_eq_nil h

theorem render_eq (r : Renderer) (template : String) (vars : Vars) :
    r.render template vars = r.conclude (expand vars r.maxDepth template) := by
  unfold render
  split
  · rcases expand vars r.maxDepth template with e | ⟨text, progress⟩
    · rfl
    · simp only [conclude, bind, Except.bind]
      split <;> rfl
  · next h =>
    have none := references_eq_nil (Bool.not_eq_true _ ▸ h)
    rw [expand, run_expandText_of_no_references none]
    simp [conclude, pure, Except.pure]

variable {r : Renderer} {template out : String} {vars : Vars} {e : RenderError}
  {result : Except RenderError (String × Progress)}

theorem conclude_eq_ok (h : r.conclude result = .ok out) : ∃ p, result = .ok (out, p) := by
  rcases result with e | ⟨text, p⟩
  · simp [conclude] at h
  · simp only [conclude] at h
    split at h
    · simp at h
    · obtain rfl := Except.ok.inj h
      exact ⟨p, rfl⟩

theorem conclude_eq_error (h : r.conclude result = .error e) :
    result = .error e ∨ ∃ names, e = .unresolvedPlaceholders names := by
  rcases result with e' | ⟨text, p⟩
  · exact .inl (congrArg _ (Except.error.inj h))
  · simp only [conclude] at h
    split at h
    · exact .inr ⟨_, (Except.error.inj h).symm⟩
    · simp at h

theorem conclude_eq_deep {result : Except RenderError (String × Progress)} {name : String} {d : Nat}
    (h : r.conclude result = .error (.depthExceeded name d)) :
    result = .error (.depthExceeded name d) := by
  rcases conclude_eq_error h with h | ⟨names, h⟩
  · exact h
  · simp at h

theorem conclude_lenient (lenient : r.strict = false) (text : String) (p : Progress) :
    r.conclude (.ok (text, p)) = .ok text := by
  simp [conclude, lenient]

theorem expand_of_render_circular {chain : List String}
    (h : r.render template vars = .error (.circularReference chain)) :
    expand vars r.maxDepth template = .error (.circularReference chain) := by
  rw [render_eq] at h
  rcases conclude_eq_error h with h | ⟨names, h⟩
  · exact h
  · simp at h

theorem expand_of_render_deep {name : String} {d : Nat}
    (h : r.render template vars = .error (.depthExceeded name d)) :
    expand vars r.maxDepth template = .error (.depthExceeded name d) :=
  conclude_eq_deep (by rwa [← render_eq])

theorem acyclic_of_expand {d : Nat} {p : Progress} (h : expand vars d template = .ok (out, p)) :
    Acyclic vars template := by
  obtain ⟨missing, hx, _⟩ := expands_of_expand h
  exact hx.acyclic

theorem acyclic_of_render (h : r.render template vars = .ok out) : Acyclic vars template := by
  rw [render_eq] at h
  obtain ⟨p, hp⟩ := conclude_eq_ok h
  exact acyclic_of_expand hp

/-- A lenient renderer yields the full expansion and nothing else; it yields one wherever there is
no cycle to be reached and no trail is longer than its bound. -/
theorem lenient_render_expands (r : Renderer) (lenient : r.strict = false) (template : String)
    (vars : Vars) :
    (∀ out, r.render template vars = .ok out →
      Acyclic vars template ∧ ∀ s, IsExpansion vars template s ↔ s = out) ∧
    (Acyclic vars template → (∀ xs, IsTrail vars template xs → xs.length ≤ r.maxDepth) →
      ∃ out, r.render template vars = .ok out) := by
  constructor
  · intro out h
    rw [render_eq] at h
    obtain ⟨p, hp⟩ := conclude_eq_ok h
    obtain ⟨missing, hx, _⟩ := expands_of_expand hp
    refine ⟨hx.acyclic, fun s => ⟨?_, ?_⟩⟩
    · rintro ⟨_, hs⟩
      exact (hs.unique hx).1
    · rintro rfl
      exact ⟨missing, hx⟩
  · intro acyclic short
    rw [render_eq]
    cases hx : expand vars r.maxDepth template with
    | ok result => exact ⟨result.1, conclude_lenient lenient result.1 result.2⟩
    | error e =>
      cases genuine_of_expand hx with
      | circular trail _ again _ =>
        obtain ⟨hreach, hcycle⟩ := trail.cycle again
        exact absurd hcycle (acyclic _ hreach)
      | deep trail _ _ full =>
        have := short _ trail
        simp only [List.length_append, List.length_singleton] at this
        omega

/-- Two variables that share a third, below a bound that has room for all. -/
theorem lenient_render_expands_shared :
    let vars : Vars := Dict.ofList [("x", "{{base}}-x"), ("y", "{{base}}-y"), ("base", "b")]
    let r : Renderer := { maxDepth := 3 }
    Acyclic vars "{{x}} / {{y}}" ∧ (∀ s, IsExpansion vars "{{x}} / {{y}}" s ↔ s = "b-x / b-y") ∧
      ∃ out, r.render "{{x}} / {{y}}" vars = .ok out := by
  intro vars r
  have both := lenient_render_expands r rfl "{{x}} / {{y}}" vars
  obtain ⟨acyclic, unique⟩ := both.1 "b-x / b-y" (by decide +kernel)
  have short : vars.entries.length ≤ r.maxDepth := by decide
  refine ⟨acyclic, unique, both.2 acyclic fun xs h => ?_⟩
  exact Nat.le_trans (h.length_le (h.nodup acyclic)) short

/-- With room for every variable a renderer reports exactly the cycles that can be reached and never
its bound. A reported chain is a trail that comes back to itself, and an exceeded bound comes with a
trail that is as long as the bound and could go on to a new variable. -/
theorem cycle_detection_exact (r : Renderer) (template : String) (vars : Vars) :
    (vars.entries.length ≤ r.maxDepth →
      (∀ name d, r.render template vars ≠ .error (.depthExceeded name d)) ∧
      ((∃ chain, r.render template vars = .error (.circularReference chain)) ↔
        ∃ x, Reachable vars template x ∧ TransGen (Refers vars) x x)) ∧
    (∀ chain, r.render template vars = .error (.circularReference chain) →
      IsTrail vars template chain ∧ chain.length ≤ r.maxDepth + 1 ∧
      ∃ path last, chain = path ++ [last] ∧ path.Nodup ∧ last ∈ path) ∧
    (∀ name d, r.render template vars = .error (.depthExceeded name d) →
      d = r.maxDepth ∧ ∃ path, path.length = d ∧ path.Nodup ∧ name ∉ path ∧
        IsTrail vars template (path ++ [name])) := by
  refine ⟨fun room => ⟨?_, ?_⟩, ?_, ?_⟩
  · intro name d h
    have := (genuine_of_expand (expand_of_render_deep h)).lt_length
    omega
  · constructor
    · rintro ⟨chain, h⟩
      exact (genuine_of_expand (expand_of_render_circular h)).cycle
    · rintro ⟨x, hreach, hcycle⟩
      rw [render_eq]
      cases hx : expand vars r.maxDepth template with
      | ok result => exact absurd hcycle (acyclic_of_expand hx x hreach)
      | error e =>
        cases genuine_of_expand hx with
        | circular => exact ⟨_, rfl⟩
        | deep trail distinct fresh full =>
          exact absurd (Genuine.deep trail distinct fresh full).lt_length (by omega)
  · intro chain h
    cases genuine_of_expand (expand_of_render_circular h) with
    | @circular path last trail distinct again short =>
      refine ⟨trail, ?_, path, last, rfl, distinct, again⟩
      simp only [List.length_append, List.length_singleton]
      omega
  · intro name d h
    cases genuine_of_expand (expand_of_render_deep h) with
    | @deep path _ trail distinct fresh full =>
      exact ⟨rfl, path, full, distinct, fresh, trail⟩

/-- A cycle behind a shared variable, found where there is room for all variables, and a trail that
is too long where there is not. -/
theorem cycle_detection_exact_loop :
    let vars : Vars := Dict.ofList [("a", "{{b}}{{c}}"), ("b", "{{c}}"), ("c", "x{{b}}")]
    let roomy : Renderer := { maxDepth := 3 }
    let tight : Renderer := { maxDepth := 2 }
    (roomy.render "{{a}}" vars = .error (.circularReference ["a", "b", "c", "b"]) ∧
      (∃ x, Reachable vars "{{a}}" x ∧ TransGen (Refers vars) x x) ∧
      IsTrail vars "{{a}}" ["a", "b", "c", "b"]) ∧
    tight.render "{{a}}" vars = .error (.depthExceeded "c" 2) ∧
      ∃ path, path.length = 2 ∧ path.Nodup ∧ "c" ∉ path ∧ IsTrail vars "{{a}}" (path ++ ["c"]) := by
  intro vars roomy tight
  have found : roomy.render "{{a}}" vars =
      .error (.circularReference ["a", "b", "c", "b"]) := by decide +kernel
  have deep : tight.render "{{a}}" vars = .error (.depthExceeded "c" 2) := by decide +kernel
  have exact := cycle_detection_exact roomy "{{a}}" vars
  refine ⟨⟨found, (exact.1 (by decide)).2.1 ⟨_, found⟩, (exact.2.1 _ found).1⟩, deep, ?_⟩
  exact ((cycle_detection_exact tight "{{a}}" vars).2.2 "c" 2 deep).2

end Renderer
end PromptAssembly.Template
