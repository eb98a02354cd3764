import PromptAssembly.Prompt.Config
import PromptAssembly.Proofs.Template.Joining

/-!
# Suffixes for single models

The override of a model puts its suffix behind a template. Unless a placeholder straddles the seam,
both render together to what they render to apart (`Renderer.suffix_renders_apart`). The empty name
stands for no particular model, so that an override which is stored under it has no effect
(`Renderer.suffix_of_empty_name`).
-/
namespace PromptAssembly.Prompt.Config

/-- What an override puts its suffix behind. -/
def baseFor (c : Config) (o : ModelOverride) : String :=
  if o.template = "" then c.template else o.template

theorem templateFor_of_override {c : Config} {model : String} {o : ModelOverride}
    (named : model ≠ "") (held : c.modelOverrides.get? model = some o) :
    c.templateFor model = c.baseFor o ++ o.suffix := by
  have proper : model.isEmpty = false := by simpa using named
  simp [templateFor, baseFor, proper, held]

end PromptAssembly.Prompt.Config

namespace PromptAssembly.Template.Renderer
open Prompt (Config ModelOverride)

/-- Let a configuration have an override for a model, and let the template before its suffix and the
suffix render, each for itself. If no placeholder begins in the one and ends in the other, what the
model is given is the one text and then the other, in either mode and whatever variables the two
share. The empty name is given the configuration's template alone. -/
theorem suffix_renders_apart (r : Renderer) (vars : Vars) (c : Config) {model : String}
    {o : ModelOverride} (held : c.modelOverrides.get? model = some o) {a b : String}
    (base : r.render (c.baseFor o) vars = .ok a) (suffix : r.render o.suffix vars = .ok b)
    (apart : ¬ Straddles (c.baseFor o).toList o.suffix.toList) :
    (model ≠ "" → r.render (c.templateFor model) vars = .ok (a ++ b)) ∧
      (model = "" → r.render (c.templateFor model) vars = r.render c.template vars) := by
  constructor
  · intro named
    rw [Config.templateFor_of_override named held]
    exact render_append apart base suffix
  · rintro rfl
    rfl

/-- A stray brace on either side of the seam, and a variable that comes through only because the
template has met a deeper one before. -/
theorem suffix_renders_apart_braces :
    let vars : Vars := Dict.ofList [("a", "{{b}}!"), ("b", "{{c}}"), ("c", "x")]
    let r : Renderer := { maxDepth := 2, strict := true }
    let o : ModelOverride := { suffix := "{{c}}{{b}}\x7d" }
    let c : Config := {
      template := "{{b}}{{a}}\x7b", modelOverrides := Dict.empty.insert "m" o }
    c.modelOverrides.get? "m" = some o ∧ r.render (c.baseFor o) vars = .ok "xx!\x7b" ∧
      r.render o.suffix vars = .ok "xx\x7d" ∧
      ¬ Straddles (c.baseFor o).toList o.suffix.toList ∧
      r.render "{{a}}" vars = .error (.depthExceeded "c" 2) ∧
      r.render (c.templateFor "m") vars = .ok ("xx!\x7b" ++ "xx\x7d") := by
  intro vars r o c
  have held : c.modelOverrides.get? "m" = some o := by decide +kernel
  have base : r.render (c.baseFor o) vars = .ok "xx!\x7b" := by decide +kernel
  have suffix : r.render o.suffix vars = .ok "xx\x7d" := by decide +kernel
  have apart : ¬ Straddles (c.baseFor o).toList o.suffix.toList := by decide +kernel
  have both := suffix_renders_apart r vars c held base suffix apart
  exact ⟨held, base, suffix, apart, by decide +kernel, both.1 (by decide)⟩

/-- An override that is stored under the empty name: its suffix is left out. -/
theorem suffix_of_empty_name :
    let r : Renderer := {}
    let o : ModelOverride := { suffix := "S" }
    let c : Config := { template := "T", modelOverrides := Dict.empty.insert "" o }
    c.modelOverrides.get? "" = some o ∧ r.render (c.baseFor o) Dict.empty = .ok "T" ∧
      r.render o.suffix Dict.empty = .ok "S" ∧
      ¬ Straddles (c.baseFor o).toList o.suffix.toList ∧
      r.render (c.templateFor "") Dict.empty = .ok "T" ∧
      r.render (c.templateFor "") Dict.empty ≠ .ok ("T" ++ "S") := by
  intro r o c
  refine ⟨?_, ?_, ?_, ?_, ?_, ?_⟩
  all_goals decide +kernel

end PromptAssembly.Template.Renderer
