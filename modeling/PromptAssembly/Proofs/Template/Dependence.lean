import PromptAssembly.Proofs.Template.Afresh

/-!
# What a rendering depends on

An expansion looks up the names that its text mentions, and those that the values found there
mention: variables that cannot be reached from a template are never asked for
(`Renderer.render_eq_of_agree`). The depth bound is only there to stop an expansion, so that one
which it does not stop is the same under every larger bound (`Renderer.render_eq_of_roomier`).
-/
namespace PromptAssembly.Template

/-- Two maps hold the same, a value or none, for every name that can be reached from the text. -/
def Agree (vars vars' : Vars) (text : String) : Prop :=
  ∀ name, Reachable vars text name → vars.get? name = vars'.get? name

variable {vars vars' : Vars} {text value name : String}

theorem Reachable.mem {names : List String} (h : Reachable vars text name)
    (mentioned : references text ⊆ names)
    (closed : ∀ x ∈ names, ∀ value, vars.get? x = some value → references value ⊆ names) :
    name ∈ names := by
  induction h with
  | mentioned h => exact mentioned h
  | step _ refers ih =>
    obtain ⟨value, hv, hy⟩ := refers
    exact closed _ ih value hv hy

namespace Agree

theorem mentioned (agree : Agree vars vars' text) (h : name ∈ references text) :
    vars.get? name = vars'.get? name :=
  agree name (.mentioned h)

theorem of_value (agree : Agree vars vars' text) (h : name ∈ references text)
    (hv : vars.get? name = some value) : Agree vars vars' value :=
  fun _ hx => agree _ (.of_value (.mentioned h) hv hx)

end Agree

section
variable {resolver resolver' : String → String → Expansion String}

theorem expandPiece_congr {p : Piece}
    (agree : ∀ name, p.name? = some name → vars.get? name = vars'.get? name)
    (same : ∀ name value, p.name? = some name → vars.get? name = some value →
      resolver name value = resolver' name value) :
    expandPiece vars resolver p = expandPiece vars' resolver' p := by
  cases p with
  | char c => rfl
  | placeholder chars =>
    have held := agree _ rfl
    simp only [expandPiece, Piece.name?, ← held]
    cases hv : vars.get? (String.ofList chars) with
    | none => rfl
    | some value => exact same _ value rfl hv

/-- An expansion asks its map and its resolver about what the text mentions, and about no more. -/
theorem expandText_congr
    (agree : ∀ name ∈ references text, vars.get? name = vars'.get? name)
    (same : ∀ name ∈ references text, ∀ value, vars.get? name = some value →
      resolver name value = resolver' name value) :
    expandText vars resolver text = expandText vars' resolver' text := by
  have piecewise : ∀ p ∈ pieces text.toList,
      expandPiece vars resolver p = expandPiece vars' resolver' p := by
    intro p hp
    have mentioned : ∀ name, p.name? = some name → name ∈ references text :=
      fun name hname => mem_references.2 ⟨p, hp, hname⟩
    exact expandPiece_congr (fun name hname => agree name (mentioned name hname))
      fun name value hname => same name (mentioned name hname) value
  have all : ∀ ps : List Piece,
      (∀ p ∈ ps, expandPiece vars resolver p = expandPiece vars' resolver' p) →
        expandPieces vars resolver ps = expandPieces vars' resolver' ps := by
    intro ps piecewise
    induction ps with
    | nil => rfl
    | cons p ps ih =>
      obtain ⟨head, rest⟩ := List.forall_mem_cons.1 piecewise
      simp only [expandPieces, head, ih rest]
  rw [expandText_eq, expandText_eq, all _ piecewise]

end

theorem resolve_congr (agree : Agree vars vars' value) (maxDepth remaining : Nat)
    (chain : List String) (name : String) :
    resolve vars maxDepth remaining chain name value =
      resolve vars' maxDepth remaining chain name value := by
  induction remaining generalizing chain name value with
  | zero => simp only [resolve]
  | succ remaining ih =>
    -- What can be reached from a value that is mentioned could be reached before.
    have inner : expandText vars (resolve vars maxDepth remaining (chain ++ [name])) value =
        expandText vars' (resolve vars' maxDepth remaining (chain ++ [name])) value :=
      expandText_congr (fun _ => agree.mentioned) fun _ hy _ hv => ih (agree.of_value hy hv) _ _
    simp only [resolve, inner]

theorem expand_congr (agree : Agree vars vars' text) (maxDepth : Nat) :
    expand vars maxDepth text = expand vars' maxDepth text := by
  have same := expandText_congr (fun _ => agree.mentioned) fun name h value hv =>
    resolve_congr (agree.of_value h hv) maxDepth maxDepth [] name
  rw [expand, expand, same]

namespace Renderer

/-- Let two maps hold the same for every name that the template mentions, or the value of a variable
that can be reached from it. A renderer makes the same of the template with either, be it a text or
an error and all that the error reports. -/
theorem render_eq_of_agree (r : Renderer) {template : String} {vars vars' : Vars}
    (agree : ∀ name, Reachable vars template name → vars.get? name = vars'.get? name) :
    r.render template vars = r.render template vars' := by
  rw [render_eq, render_eq, expand_congr agree]

/-- Two maps that differ in a variable on a cycle and in one that only the first of them binds. The
template does not lead there: unbound names and a bound that is too small are reported alike. -/
theorem render_eq_of_agree_apart :
    let vars : Vars := Dict.ofList
      [("a", "{{b}}{{x}}"), ("b", "{{y}}"), ("u", "{{u}}"), ("w", "plain")]
    let vars' : Vars := Dict.ofList [("a", "{{b}}{{x}}"), ("b", "{{y}}"), ("u", "{{w}}")]
    let strict : Renderer := { maxDepth := 2, strict := true }
    let tight : Renderer := { maxDepth := 1 }
    (∀ name, Reachable vars "{{a}}" name → vars.get? name = vars'.get? name) ∧
      strict.render "{{a}}" vars = .error (.unresolvedPlaceholders ["y", "x"]) ∧
      strict.render "{{a}}" vars = strict.render "{{a}}" vars' ∧
      tight.render "{{a}}" vars = .error (.depthExceeded "b" 1) ∧
      tight.render "{{a}}" vars = tight.render "{{a}}" vars' ∧
      strict.render "{{u}}" vars = .error (.circularReference ["u", "u"]) ∧
      strict.render "{{u}}" vars' = .error (.unresolvedPlaceholders ["w"]) := by
  intro vars vars' strict tight
  have agree : ∀ name, Reachable vars "{{a}}" name → vars.get? name = vars'.get? name := by
    have closed : ∀ x ∈ ["a", "b", "x", "y"], ∀ value, vars.get? x = some value →
        references value ⊆ ["a", "b", "x", "y"] := by
      intro x hx value hv
      have all : ∀ e ∈ vars.entries, e.1 ∈ ["a", "b", "x", "y"] →
          references e.2 ⊆ ["a", "b", "x", "y"] := by decide +kernel
      exact all (x, value) (Dict.mem_of_get? hv) hx
    have alike : ∀ x ∈ ["a", "b", "x", "y"], vars.get? x = vars'.get? x := by decide +kernel
    intro name h
    exact alike name (h.mem (by decide +kernel) closed)
  refine ⟨agree, by decide +kernel, ?_, by decide +kernel, ?_, by decide +kernel, by decide +kernel⟩
  · exact render_eq_of_agree strict agree
  · exact render_eq_of_agree tight agree

/-- A renderer that is not stopped by its depth bound, whether it ends with a text, a cycle or
unbound names, ends in the same way under every larger bound. -/
theorem render_eq_of_roomier (r : Renderer) {d d' : Nat} (le : d ≤ d') (template : String)
    (vars : Vars) (unstopped : ∀ name n,
      (r.withMaxDepth d).render template vars ≠ .error (.depthExceeded name n)) :
    (r.withMaxDepth d').render template vars = (r.withMaxDepth d).render template vars := by
  have mode : (r.withMaxDepth d).strict = (r.withMaxDepth d').strict := rfl
  have room : (r.withMaxDepth d).maxDepth ≤ (r.withMaxDepth d').maxDepth := by
    simp only [withMaxDepth]
    omega
  rcases render_eq_render_or_deep mode room template vars with same | ⟨name, n, stopped⟩
  · exact same.symm
  · exact absurd stopped (unstopped name n)

/-- A cycle and unbound names, both met below the bound of two, and a text for which one is enough
only because its deeper variable comes first. -/
theorem render_eq_of_roomier_bounds :
    let vars : Vars := Dict.ofList [("a", "{{b}}"), ("b", "{{a}}"), ("c", "{{d}}{{x}}"), ("d", "v")]
    let r : Renderer := { strict := true }
    (r.withMaxDepth 1).render "{{a}}" vars = .error (.depthExceeded "b" 1) ∧
      (r.withMaxDepth 2).render "{{a}}" vars = .error (.circularReference ["a", "b", "a"]) ∧
      (∀ d, 2 ≤ d → (r.withMaxDepth d).render "{{a}}" vars =
        (r.withMaxDepth 2).render "{{a}}" vars) ∧
      (r.withMaxDepth 1).render "{{d}}{{c}}" vars = .error (.unresolvedPlaceholders ["x"]) ∧
      ∀ d, 1 ≤ d → (r.withMaxDepth d).render "{{d}}{{c}}" vars =
        (r.withMaxDepth 1).render "{{d}}{{c}}" vars := by
  intro vars r
  have cyclic : (r.withMaxDepth 2).render "{{a}}" vars =
      .error (.circularReference ["a", "b", "a"]) := by decide +kernel
  have unbound : (r.withMaxDepth 1).render "{{d}}{{c}}" vars =
      .error (.unresolvedPlaceholders ["x"]) := by decide +kernel
  refine ⟨by decide +kernel, cyclic, fun d le => ?_, unbound, fun d le => ?_⟩
  · exact render_eq_of_roomier r le "{{a}}" vars (by simp [cyclic])
  · exact render_eq_of_roomier r le "{{d}}{{c}}" vars (by simp [unbound])

end Renderer
end PromptAssembly.Template
