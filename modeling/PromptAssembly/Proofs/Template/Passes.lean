import Mathlib.Logic.Function.Iterate
import PromptAssembly.Proofs.Template.Tidy

/-!
# Passes of substitution

One pass over a tidy text puts the pieces of a value in the place of each bound placeholder, and no
placeholder is read across their borders (`IsTidy.pieces_substituteOnce`). The full expansion stays
the same (`Expands.replace`), and every trail loses its first variable
(`IsTrail.exists_of_substituteOnce`): after as many passes as the longest trail has variables the
text is its own expansion, which is what a renderer yields (`Renderer.passes_reach_rendering`).
-/
namespace PromptAssembly.Template

/-- What one pass makes of a piece, as pieces. -/
def Piece.replacement (vars : Vars) (p : Piece) : List Piece :=
  match p.name?.bind vars.get? with
  | some value => pieces value.toList
  | none => [p]

variable {vars : Vars} {text value out x y : String} {ps : List Piece} {missing : List String}

theorem flatMap_chars_replacement (vars : Vars) (p : Piece) :
    (p.replacement vars).flatMap Piece.chars = p.substitute vars := by
  rw [Piece.replacement, Piece.substitute]
  cases p.name?.bind vars.get? with
  | none => simp
  | some value => exact flatMap_chars_pieces value.toList

theorem mem_replacement_cases {p q : Piece} (h : q ∈ p.replacement vars) :
    (q = p ∧ p.name?.bind vars.get? = none) ∨
      ∃ name value, p.name? = some name ∧ vars.get? name = some value ∧
        q ∈ pieces value.toList := by
  rw [Piece.replacement] at h
  cases hv : p.name?.bind vars.get? with
  | none => exact .inl ⟨by simpa [hv] using h, rfl⟩
  | some value =>
    obtain ⟨name, hname, hvalue⟩ := Option.bind_eq_some_iff.1 hv
    exact .inr ⟨name, value, hname, hvalue, by simpa [hv] using h⟩

namespace IsTidy

theorem standsAlone_replacement (tidy : IsTidy vars text) :
    ∀ p ∈ (pieces text.toList).flatMap (Piece.replacement vars), p.StandsAlone := by
  intro q hq
  obtain ⟨p, hp, hq⟩ := List.mem_flatMap.1 hq
  rcases mem_replacement_cases hq with ⟨rfl, _⟩ | ⟨name, value, hname, hv, hq⟩
  · exact isBraceClean_iff.1 tidy.clean q hp
  · have reached : Reachable vars text name := Within.self vars text p hp name hname
    exact isBraceClean_iff.1 (tidy.values name value reached hv) q hq

theorem pieces_substituteOnce (tidy : IsTidy vars text) :
    pieces (substituteOnce text vars).toList =
      (pieces text.toList).flatMap (Piece.replacement vars) := by
  have parts : (substituteOnce text vars).toList =
      ((pieces text.toList).flatMap (Piece.replacement vars)).flatMap Piece.chars := by
    simp only [toList_substituteOnce, List.flatMap_assoc, flatMap_chars_replacement]
  rw [parts, pieces_flatMap_chars tidy.standsAlone_replacement]

theorem references_substituteOnce (tidy : IsTidy vars text)
    (hy : y ∈ references (substituteOnce text vars)) :
    (y ∈ references text ∧ vars.get? y = none) ∨ ∃ x ∈ references text, Refers vars x y := by
  obtain ⟨q, hq, hname⟩ := mem_references.1 hy
  rw [tidy.pieces_substituteOnce] at hq
  obtain ⟨p, hp, hq⟩ := List.mem_flatMap.1 hq
  rcases mem_replacement_cases hq with ⟨rfl, free⟩ | ⟨x, value, hx, hv, hq⟩
  · exact .inl ⟨mem_references.2 ⟨q, hp, hname⟩, by simpa [hname] using free⟩
  · exact .inr ⟨x, mem_references.2 ⟨p, hp, hx⟩, value, hv, mem_references.2 ⟨q, hq, hname⟩⟩

theorem reachable_of_substituteOnce (tidy : IsTidy vars text)
    (hy : Reachable vars (substituteOnce text vars) y) : Reachable vars text y := by
  induction hy with
  | mentioned hy =>
    rcases tidy.references_substituteOnce hy with ⟨hy, _⟩ | ⟨x, hx, hxy⟩
    · exact .mentioned hy
    · exact .step (.mentioned hx) hxy
  | step _ refers ih => exact ih.step refers

theorem substituteOnce (tidy : IsTidy vars text) :
    IsTidy vars (Template.substituteOnce text vars) where
  clean := by
    rw [isBraceClean_iff, tidy.pieces_substituteOnce]
    exact tidy.standsAlone_replacement
  values name value hx hv := tidy.values name value (tidy.reachable_of_substituteOnce hx) hv

end IsTidy

/-- A trail after the pass is the rest of a trail before it. -/
theorem IsTrail.exists_of_substituteOnce (tidy : IsTidy vars text) {xs : List String}
    (h : IsTrail vars (substituteOnce text vars) (y :: xs)) :
    ∃ x, IsTrail vars text (x :: y :: xs) := by
  obtain ⟨hy, value, hv, hxs⟩ := h
  rcases tidy.references_substituteOnce hy with ⟨_, free⟩ | ⟨x, hx, u, hu, hyu⟩
  · simp [hv] at free
  · exact ⟨x, hx, u, hu, hyu, value, hv, hxs⟩

namespace Expands

theorem append {qs : List Piece} {rest : String} {more : List String}
    (h : Expands vars ps out missing) (h' : Expands vars qs rest more) :
    Expands vars (ps ++ qs) (out ++ rest) (missing ++ more) := by
  induction h with
  | nil => simpa using h'
  | char _ ih =>
    rw [String.append_assoc]
    exact .char ih
  | unbound free _ ih =>
    rw [String.append_assoc]
    exact .unbound free ih
  | bound held inner _ _ ih =>
    rw [String.append_assoc, List.append_assoc]
    exact .bound held inner ih

/-- A pass takes a step of the expansion ahead. -/
theorem replace (h : Expands vars ps out missing) :
    Expands vars (ps.flatMap (Piece.replacement vars)) out missing := by
  induction h with
  | nil => exact .nil
  | char _ ih => exact .char ih
  | @unbound name _ _ _ free _ ih =>
    have kept : (Piece.placeholder name).replacement vars = [.placeholder name] := by
      simp [Piece.replacement, Piece.name?, free]
    rw [List.flatMap_cons, kept]
    exact .unbound free ih
  | @bound name value _ _ _ _ _ held inner _ _ ih =>
    have opened : (Piece.placeholder name).replacement vars = pieces value.toList := by
      simp [Piece.replacement, Piece.name?, held]
    rw [List.flatMap_cons, opened]
    exact inner.append ih

theorem substituteOnce (h : Expands vars (pieces text.toList) out missing)
    (tidy : IsTidy vars text) : Expands vars (pieces (Template.substituteOnce text vars).toList) out missing := by
  rw [tidy.pieces_substituteOnce]
  exact h.replace

/-- As many passes as the trails are long lead to the expansion. -/
theorem iterate_substituteOnce {n : Nat} (h : Expands vars (pieces text.toList) out missing)
    (tidy : IsTidy vars text) (short : ∀ xs, IsTrail vars text xs → xs.length ≤ n) :
    (Template.substituteOnce · vars)^[n] text = out := by
  induction n generalizing text with
  | zero =>
    refine (h.eq_of_unbound fun name hname => ?_).symm
    cases hv : vars.get? name with
    | none => rfl
    | some value =>
      have trail : IsTrail vars text [name] := ⟨hname, value, hv, trivial⟩
      exact absurd (short _ trail) (by simp)
  | succ n ih =>
    -- The pass changes the text and its trails, but not what it expands to.
    rw [Function.iterate_succ_apply]
    refine ih (h.substituteOnce tidy) tidy.substituteOnce fun xs trail => ?_
    cases xs with
    | nil => exact Nat.zero_le n
    | cons y xs =>
      obtain ⟨x, longer⟩ := trail.exists_of_substituteOnce tidy
      have := short _ longer
      simp only [List.length_cons] at this ⊢
      omega

end Expands

theorem exists_expand_of_short {maxDepth : Nat} (acyclic : Acyclic vars text)
    (short : ∀ xs, IsTrail vars text xs → xs.length ≤ maxDepth) :
    ∃ result, expand vars maxDepth text = .ok result := by
  cases hx : expand vars maxDepth text with
  | ok result => exact ⟨result, rfl⟩
  | error e =>
    cases genuine_of_expand hx with
    | circular trail _ again _ =>
      obtain ⟨hreach, hcycle⟩ := trail.cycle again
      exact absurd hcycle (acyclic _ hreach)
    | deep trail _ _ full =>
      have := short _ trail
      simp only [List.length_append, List.length_singleton] at this
      omega

namespace Renderer

/-- Let a template and the values that can be reached from it have no stray braces and no cycle, and
let no trail from it be longer than a depth that the renderer's bound allows. As many passes of
substitution, or more, make of the template what a lenient renderer makes of it. -/
theorem passes_reach_rendering (r : Renderer) (lenient : r.strict = false) {template : String}
    {vars : Vars} {depth : Nat} (tidy : IsTidy vars template) (acyclic : Acyclic vars template)
    (short : ∀ xs, IsTrail vars template xs → xs.length ≤ depth) (room : depth ≤ r.maxDepth) :
    ∃ out, r.render template vars = .ok out ∧
      ∀ n, depth ≤ n → (substituteOnce · vars)^[n] template = out := by
  obtain ⟨⟨out, p⟩, hrun⟩ := exists_expand_of_short acyclic
    fun xs trail => Nat.le_trans (short xs trail) room
  obtain ⟨missing, hx, _⟩ := expands_of_expand hrun
  refine ⟨out, by rw [render_eq, hrun, conclude_lenient lenient], fun n enough => ?_⟩
  exact hx.iterate_substituteOnce tidy fun xs trail => Nat.le_trans (short xs trail) enough

/-- A variable that is reached on trails of two lengths, and an unbound name that stays. Two passes
are not enough. -/
theorem passes_reach_rendering_shared :
    let vars : Vars := Dict.ofList [("a", "{{b}}-{{c}}"), ("b", "{{c}}{{x}}"), ("c", "v")]
    let r : Renderer := { maxDepth := 3 }
    IsTidy vars "{{a}}/{{b}}" ∧ Acyclic vars "{{a}}/{{b}}" ∧
      (∀ xs, IsTrail vars "{{a}}/{{b}}" xs → xs.length ≤ 3) ∧
      (substituteOnce · vars)^[2] "{{a}}/{{b}}" = "{{c}}{{x}}-v/v{{x}}" ∧
      ∃ out, r.render "{{a}}/{{b}}" vars = .ok out ∧
        ∀ n, 3 ≤ n → (substituteOnce · vars)^[n] "{{a}}/{{b}}" = out := by
  intro vars r
  have rendered : r.render "{{a}}/{{b}}" vars = .ok "v{{x}}-v/v{{x}}" := by decide +kernel
  have acyclic := acyclic_of_render rendered
  have tidy : IsTidy vars "{{a}}/{{b}}" := .of_entries (by decide +kernel) (by decide +kernel)
  have size : vars.entries.length = 3 := by decide
  have short : ∀ xs, IsTrail vars "{{a}}/{{b}}" xs → xs.length ≤ 3 := by
    intro xs trail
    rw [← size]
    exact trail.length_le (trail.nodup acyclic)
  refine ⟨tidy, acyclic, short, by decide +kernel, ?_⟩
  exact passes_reach_rendering r rfl tidy acyclic short (by decide)

end Renderer
end PromptAssembly.Template
