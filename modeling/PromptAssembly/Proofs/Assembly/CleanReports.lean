import PromptAssembly.Proofs.Template.Flat
import PromptAssembly.Registry
import PromptAssembly.Repository.Memory

/-!
# Clean reports

A report and an assembly each have their own view of the names that a template may use. A report
without warnings knows every placeholder (`Config.binds_of_clean`), assembling binds what is known
as soon as the variables are given and the fragments load
(`Registry.run_prepareVariables_of_supplies`), and no renderer then finds a name without a value
(`Registry.assemble_of_clean_report`).
-/
namespace PromptAssembly
open Assembly (Resolved resolveRef fragmentVars)
open Prompt (Config FragmentRef)
open Repository (Memory)
open Template (Vars Plain references substituteOnce)

namespace Prompt.Config
variable {c : Config}

/-- A name for which assembling finds a value. -/
def Binds (c : Config) (name : String) : Prop :=
  name ∈ c.requiredVars ∨ name ∈ c.optionalVars.keys ∨ ∃ f ∈ c.fragments, f.name = name

theorem undeclaredPlaceholders_of_clean (clean : c.report.warnings = []) :
    c.undeclaredPlaceholders = [] := by
  have parts : _ = [] ∧ _ = [] := List.append_eq_nil_iff.1 clean
  exact List.map_eq_nil_iff.1 parts.2

/-- Metadata alone makes a name known to the report, but gives it no value. -/
theorem binds_of_clean (clean : c.report.warnings = [])
    (declared : ∀ v ∈ c.declaredVars, v.name ∈ c.requiredVars ∨ v.name ∈ c.optionalVars.keys)
    {name : String} (mentioned : name ∈ references c.template) : c.Binds name := by
  have known : name ∈ c.knownNames := by
    have passed := List.filter_eq_nil_iff.1 (undeclaredPlaceholders_of_clean clean) name
      (List.mem_eraseDups.2 mentioned)
    simpa using passed
  simp only [knownNames, List.mem_append, List.mem_map] at known
  rcases known with ((required | optional) | ⟨v, hv, rfl⟩) | fragment
  · exact .inl required
  · exact .inr (.inl optional)
  · rcases declared v hv with required | optional
    · exact .inl required
    · exact .inr (.inl optional)
  · exact .inr (.inr fragment)

end Prompt.Config

variable {S : Type}

namespace Assembly

/-- All of these load, one after the other, and what is loaded holds no placeholder. -/
def LoadsPlain (repo : Repository S) (base : Option Files.Path) : List Resolved → Shared S → Prop
  | [], _ => True
  | x :: xs, s => ∃ f s', (loadFragment repo base x).run s = (.ok f, s') ∧
      references f.content = [] ∧ LoadsPlain repo base xs s'

theorem run_fragmentVars_of_loadsPlain {repo : Repository S} {base : Option Files.Path}
    {vars found : Vars} {refs : List FragmentRef} {s : Shared S} (plain : Plain found)
    (loads : LoadsPlain repo base (refs.map (resolveRef vars)) s) :
    ∃ found' s', (fragmentVars repo base vars found refs).run s = (.ok found', s') ∧
      Plain found' ∧ (∀ name, found.contains name → found'.contains name) ∧
      ∀ f ∈ refs, found'.contains (resolveRef vars f).name := by
  induction refs generalizing found s with
  | nil => exact ⟨found, s, rfl, plain, fun _ h => h, by simp⟩
  | cons f refs ih =>
    obtain ⟨fragment, s₁, hload, hplain, rest⟩ := loads
    obtain ⟨found', s', hrun, hfound', kept, all⟩ :=
      ih (plain.insert (resolveRef vars f).name hplain) rest
    refine ⟨found', s', ?run, hfound', ?kept, ?all⟩
    case run =>
      rw [fragmentVars, StateT.run_bind, hload]
      exact hrun
    case kept => exact fun name h => kept name (by simp [h])
    case all =>
      intro f' hf'
      rcases List.mem_cons.1 hf' with rfl | hf'
      · exact kept _ (by simp)
      · exact all f' hf'

end Assembly

namespace Registry
variable {r : Registry S} {s s' : Shared S} {c d : Config} {vars : Vars} {t model : String}

theorem contains_baseVars_iff {name : String} :
    (baseVars c vars).contains name ↔ vars.contains name ∨ c.optionalVars.contains name := by
  simp [Dict.contains, get?_baseVars]

theorem plain_baseVars (defaults : Plain c.optionalVars) (given : Plain vars) :
    Plain (baseVars c vars) :=
  (Plain.empty.overlay defaults).overlay given

/-- All that a configuration asks for is there, and no value of it holds a placeholder. -/
structure Supplies (r : Registry S) (c : Config) (vars : Vars) (s : Shared S) : Prop where
  required : ∀ name ∈ c.requiredVars, ∃ value, vars.get? name = some value ∧ value ≠ ""
  fragments : Assembly.LoadsPlain r.fragmentSource r.fragmentBase
    (c.fragments.map (resolveRef (baseVars c vars))) s
  defaults : Plain c.optionalVars
  given : Plain vars

/-- The contents of the fragments of a configuration, by name, and the state they leave behind. -/
def Fetches (r : Registry S) (c : Config) (vars : Vars) (s : Shared S) (found : Vars)
    (s' : Shared S) : Prop :=
  (Assembly.fragmentVars r.fragmentSource r.fragmentBase (baseVars c vars) Dict.empty
    c.fragments).run s = (.ok found, s')

theorem run_prepareVariables_of_supplies (supplies : r.Supplies c vars s)
    (literal : ∀ f ∈ c.fragments, references f.name = []) (t : String) :
    ∃ found s', r.Fetches c vars s found s' ∧
      (r.prepareVariables c vars t).run s = (.ok ((baseVars c vars).overlay found), s') ∧
      Plain ((baseVars c vars).overlay found) ∧
      ∀ name, c.Binds name → ((baseVars c vars).overlay found).contains name := by
  have base : Plain (baseVars c vars) := plain_baseVars supplies.defaults supplies.given
  obtain ⟨found, s', hrun, hfound, -, all⟩ :=
    Assembly.run_fragmentVars_of_loadsPlain Plain.empty supplies.fragments
  refine ⟨found, s', hrun, ?run, base.overlay hfound, ?bound⟩
  case run =>
    simp only [prepareVariables, Template.missingVars_eq_nil_iff.2 supplies.required]
    rw [StateT.run_bind, hrun]
    rfl
  case bound =>
    intro name binds
    rw [Dict.contains_overlay, Bool.or_eq_true, contains_baseVars_iff]
    rcases binds with required | optional | ⟨f, hf, rfl⟩
    · obtain ⟨value, hvalue, -⟩ := supplies.required name required
      exact .inr (.inl (Dict.contains_iff.2 ⟨value, hvalue⟩))
    · exact .inr (.inr (Dict.contains_of_mem_keys optional))
    · have named : (resolveRef (baseVars c vars) f).name = f.name :=
        Template.substituteOnce_of_no_references _ (literal f hf)
      exact .inl (named ▸ all f hf)

theorem templateFor_of_unchanged (unchanged : model = "" ∨ c.modelOverrides.get? model = none) :
    c.templateFor model = c.template := by
  rcases unchanged with rfl | none
  · rfl
  · rw [Config.templateFor, none, ite_self]

theorem run_assemble_of_binds (held : (r.loadConfig t).run s = (.ok c, s'))
    (known : ∀ name ∈ references c.template, c.Binds name)
    (literal : ∀ f ∈ c.fragments, references f.name = [])
    (unchanged : model = "" ∨ c.modelOverrides.get? model = none)
    (supplies : r.Supplies c vars s') :
    ∃ found s'', r.Fetches c vars s' found s'' ∧
      (∀ name ∈ references c.template, ((baseVars c vars).overlay found).contains name) ∧
      (r.assemble t vars model).run s =
        (.ok (.ofConfig c (substituteOnce c.template ((baseVars c vars).overlay found))), s'') := by
  obtain ⟨found, s'', fetched, hprepare, plain, bound⟩ :=
    run_prepareVariables_of_supplies supplies literal t
  have bound : ∀ name ∈ references c.template, ((baseVars c vars).overlay found).contains name :=
    fun name mentioned => bound name (known name mentioned)
  have rendered := r.renderer.render_of_flat (plain.flat c.template) bound
  have loaded : (r.loadConfig t).run s = pure (.ok c, s') := held
  have prepared : (r.prepareVariables c vars t).run s' =
      pure (.ok ((baseVars c vars).overlay found), s'') := hprepare
  refine ⟨found, s'', fetched, bound, ?_⟩
  simp only [assemble, StateT.run_bind, loaded, prepared, pure_bind,
    templateFor_of_unchanged unchanged, rendered]
  rfl

/-- Let the report on a configuration be free of warnings, its metadata be about required and
optional variables only, and its references name fragments literally. A registry that holds it, as
it is or with defaults filled in, assembles the prompt without error once the required variables are
given and the fragments load, if no value holds a placeholder: every placeholder of the template is
bound, and has its value put in, whatever the renderer's depth bound and strictness. -/
theorem assemble_of_clean_report (clean : c.report.warnings = [])
    (declared : ∀ v ∈ c.declaredVars, v.name ∈ c.requiredVars ∨ v.name ∈ c.optionalVars.keys)
    (literal : ∀ f ∈ c.fragments, references f.name = [])
    (held : (r.loadConfig t).run s = (.ok d, s')) (same : d = c ∨ d = c.withDefaults)
    (unchanged : model = "" ∨ c.modelOverrides.get? model = none)
    (supplies : r.Supplies c vars s') :
    ∃ found s'', r.Fetches c vars s' found s'' ∧
      (∀ name ∈ references c.template, ((baseVars c vars).overlay found).contains name) ∧
      (r.assemble t vars model).run s =
        (.ok (.ofConfig d (substituteOnce c.template ((baseVars c vars).overlay found))), s'') := by
  have known : ∀ name ∈ references c.template, c.Binds name :=
    fun name => Config.binds_of_clean clean declared
  -- The defaults that are filled in are none that the assembly looks at.
  rcases same with rfl | rfl
  · exact run_assemble_of_binds held known literal unchanged supplies
  · have supplies : r.Supplies c.withDefaults vars s' :=
      ⟨supplies.required, supplies.fragments, supplies.defaults, supplies.given⟩
    exact run_assemble_of_binds held known literal unchanged supplies

/-- A strict renderer with the least bound, a default that also goes into a fragment's path, and a
repository that holds the configuration. -/
theorem assemble_of_clean_report_strict :
    let c : Config := {
      taskType := "t", template := "{{who}}, {{tone}}: {{rules}}", requiredVars := ["who"]
      optionalVars := Dict.empty.insert "tone" "kind", declaredVars := [{ name := "who" }]
      fragments := [{ name := "rules", path := some "{{tone}}.md", required := true }] }
    let r : Registry Memory :=
      { repository := some Memory.repository, renderer := { maxDepth := 1, strict := true } }
    let s : Shared Memory :=
      { store := (Memory.insertPrompt {} c).insertFragment "kind.md" { content := "Be brief." } }
    let vars : Vars := Dict.empty.insert "who" "Ann"
    let s' := ((r.loadConfig "t").run s).2
    c.report.warnings = [] ∧ ∃ found s'', r.Fetches c vars s' found s'' ∧
      (∀ name ∈ references c.template, ((baseVars c vars).overlay found).contains name) ∧
      (r.assemble "t" vars "m").run s = (.ok (.ofConfig c.withDefaults
        (substituteOnce c.template ((baseVars c vars).overlay found))), s'') := by
  intro c r s vars s'
  have clean : c.report.warnings = [] := by decide +kernel
  have answer : ((r.loadConfig "t").run s).1 = .ok c.withDefaults := by decide +kernel
  have held : (r.loadConfig "t").run s = (.ok c.withDefaults, s') := Prod.ext answer rfl
  have resolved : c.fragments.map (resolveRef (baseVars c vars)) = [⟨"rules", some "kind.md"⟩] := by
    decide +kernel
  have loaded : ((Assembly.loadFragment r.fragmentSource r.fragmentBase
      ⟨"rules", some "kind.md"⟩).run s').1 = .ok { content := "Be brief." } := by decide +kernel
  refine ⟨clean, assemble_of_clean_report (c := c) clean ?declared ?literal held
    (.inr rfl) (.inr rfl) ⟨?required, ?fragments, ?defaults, ?given⟩⟩
  case declared => simp [c]
  case literal => decide +kernel
  case required => simp [c, vars]
  case fragments =>
    rw [resolved]
    exact ⟨_, _, Prod.ext loaded rfl, by decide +kernel, trivial⟩
  case defaults => exact Plain.empty.insert "tone" (by decide +kernel)
  case given => exact Plain.empty.insert "who" (by decide +kernel)

end Registry
end PromptAssembly
