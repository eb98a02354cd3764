import Mathlib.Data.List.Forall2
import PromptAssembly.Prompt.Defaults

/-!
# What default values fill in

A configuration completes another if it is the same but for what the other leaves open, and that is
filled in (`Config.Completes`). Default values make the one completion of a configuration, and
change nothing exactly if nothing is open (`Config.completed_by_defaults`).
-/
namespace PromptAssembly.Prompt

/-- The same validator, with `true` for a flag that the other leaves open. -/
structure Validator.Completes (w v : Validator) : Prop where
  kind : w.kind = v.kind
  params : w.params = v.params
  enabled_given : ∀ b, v.enabled = some b → w.enabled = some b
  enabled_open : v.enabled = none → w.enabled = some true
  fails_given : ∀ b, v.failOnViolation = some b → w.failOnViolation = some b
  fails_open : v.failOnViolation = none → w.failOnViolation = some true

def Validator.IsComplete (v : Validator) : Prop := v.enabled ≠ none ∧ v.failOnViolation ≠ none

namespace Validator
variable {v w : Validator}

theorem completes_withDefaults (v : Validator) : v.withDefaults.Completes v where
  kind := rfl
  params := rfl
  enabled_given b h := by simp [withDefaults, h]
  enabled_open h := by simp [withDefaults, h]
  fails_given b h := by simp [withDefaults, h]
  fails_open h := by simp [withDefaults, h]

theorem eq_some_getD {flag given : Option Bool} (kept : ∀ b, given = some b → flag = some b)
    (filled : given = none → flag = some true) : flag = some (given.getD true) := by
  cases given with
  | none => exact filled rfl
  | some b => exact kept b rfl

theorem Completes.eq_withDefaults (h : w.Completes v) : w = v.withDefaults := by
  obtain ⟨kind, params, enabled_given, enabled_open, fails_given, fails_open⟩ := h
  have enabled : w.enabled = some (v.enabled.getD true) := eq_some_getD enabled_given enabled_open
  have fails : w.failOnViolation = some (v.failOnViolation.getD true) :=
    eq_some_getD fails_given fails_open
  cases w
  simp_all [withDefaults]

theorem IsComplete.completes (h : v.IsComplete) : v.Completes v :=
  ⟨rfl, rfl, fun _ => id, (absurd · h.1), fun _ => id, (absurd · h.2)⟩

end Validator

namespace Config
variable {c d : Config}

/-- Metadata of the required variables in their order, then of the optional ones by name. -/
structure Describes (c : Config) (vars : List Variable) : Prop where
  names : vars.map (·.name) = c.requiredVars ++ c.optionalVars.keys
  sorted : c.optionalVars.keys.Pairwise (· < ·)
  required : ∀ i v, vars[i]? = some v → i < c.requiredVars.length →
    v = { name := v.name, kind := "string", required := true, default := none }
  optional : ∀ i v, vars[i]? = some v → c.requiredVars.length ≤ i →
    ∃ value, c.optionalVars.get? v.name = some value ∧
      v = { name := v.name, kind := "string", required := false, default := some value }

theorem describes_impliedVariables (c : Config) : c.Describes c.impliedVariables where
  names := by simp [impliedVariables, Dict.keys, Function.comp_def]
  sorted := List.pairwise_map.2 c.optionalVars.sorted
  required i v hv hi := by
    rw [impliedVariables, List.getElem?_append_left (by simpa using hi), List.getElem?_map] at hv
    obtain ⟨name, -, rfl⟩ := Option.map_eq_some_iff.1 hv
    rfl
  optional i v hv hi := by
    rw [impliedVariables, List.getElem?_append_right (by simpa using hi), List.getElem?_map] at hv
    obtain ⟨e, he, rfl⟩ := Option.map_eq_some_iff.1 hv
    exact ⟨e.2, Dict.mem_entries_iff.1 (List.mem_of_getElem? he), rfl⟩

theorem Describes.unique {vars others : List Variable} (h : c.Describes vars)
    (h' : c.Describes others) : vars = others := by
  have names : vars.map (·.name) = others.map (·.name) := h.names.trans h'.names.symm
  refine List.ext_getElem (by simpa using congrArg List.length names) fun i hi hi' => ?_
  have same : others[i].name = vars[i].name := by
    have at_i : (others.map (·.name))[i]? = (vars.map (·.name))[i]? := by rw [names]
    simpa [hi, hi'] using at_i
  have hv : vars[i]? = some vars[i] := List.getElem?_eq_getElem hi
  have hw : others[i]? = some others[i] := List.getElem?_eq_getElem hi'
  rcases Nat.lt_or_ge i c.requiredVars.length with front | back
  · rw [h.required i _ hv front, h'.required i _ hw front, same]
  · obtain ⟨value, hvalue, eq⟩ := h.optional i _ hv back
    obtain ⟨other, hother, eq'⟩ := h'.optional i _ hw back
    obtain rfl : other = value := by simpa [same, hvalue, eq_comm] using hother
    rw [eq, eq', same]

theorem Describes.eq_nil_iff {vars : List Variable} (h : c.Describes vars) :
    vars = [] ↔ c.requiredVars = [] ∧ c.optionalVars.keys = [] := by
  rw [← List.map_eq_nil_iff (f := (·.name)), h.names, List.append_eq_nil_iff]

/-- The same configuration, with what the other leaves open filled in. -/
structure Completes (d c : Config) : Prop where
  rest : { d with engine := c.engine, declaredVars := c.declaredVars,
                  validators := c.validators } = c
  engine_given : ∀ e, c.engine = some e → d.engine = some e
  engine_open : c.engine = none → d.engine = some .standard
  declared_given : c.declaredVars ≠ [] → d.declaredVars = c.declaredVars
  declared_open : c.declaredVars = [] → c.Describes d.declaredVars
  validators : List.Forall₂ Validator.Completes d.validators c.validators

structure IsComplete (c : Config) : Prop where
  engine : c.engine ≠ none
  declared : c.declaredVars = [] → c.requiredVars = [] ∧ c.optionalVars.keys = []
  validators : ∀ v ∈ c.validators, v.IsComplete

theorem completes_withDefaults (c : Config) : c.withDefaults.Completes c where
  rest := rfl
  engine_given e h := by simp [withDefaults, h]
  engine_open h := by simp [withDefaults, h]
  declared_given h := by simp [withDefaults, h]
  declared_open h := by
    have implied : c.withDefaults.declaredVars = c.impliedVariables := by simp [withDefaults, h]
    exact implied ▸ c.describes_impliedVariables
  validators := List.forall₂_map_left_iff.2
    (List.forall₂_same.2 fun v _ => v.completes_withDefaults)

theorem isComplete_withDefaults (c : Config) : c.withDefaults.IsComplete where
  engine := Option.some_ne_none _
  declared none_declared := by
    by_cases given : c.declaredVars = []
    · exact (c.completes_withDefaults.declared_open given).eq_nil_iff.1 none_declared
    · exact absurd (c.completes_withDefaults.declared_given given ▸ none_declared) given
  validators v hv := by
    obtain ⟨w, -, rfl⟩ := List.mem_map.1 hv
    exact ⟨Option.some_ne_none _, Option.some_ne_none _⟩

/-- There is only one way to fill in what is open. -/
theorem Completes.eq_withDefaults (h : d.Completes c) : d = c.withDefaults := by
  have engine : d.engine = c.withDefaults.engine := by
    cases he : c.engine with
    | none => simp [h.engine_open he, withDefaults, he]
    | some e => simp [h.engine_given e he, withDefaults, he]
  have declared : d.declaredVars = c.withDefaults.declaredVars := by
    by_cases given : c.declaredVars = []
    · exact (h.declared_open given).unique (c.completes_withDefaults.declared_open given)
    · rw [h.declared_given given, c.completes_withDefaults.declared_given given]
  have validators : d.validators = c.withDefaults.validators := by
    have each : List.Forall₂ (fun w v => w = v.withDefaults) d.validators c.validators :=
      h.validators.imp fun _ _ => Validator.Completes.eq_withDefaults
    exact List.forall₂_eq_eq_eq ▸ List.forall₂_map_right_iff.2 each
  calc d = { c with engine := d.engine, declaredVars := d.declaredVars,
                    validators := d.validators } := by conv_rhs => rw [← h.rest]
    _ = c.withDefaults := by rw [engine, declared, validators]; rfl

theorem IsComplete.completes (h : c.IsComplete) : c.Completes c where
  rest := rfl
  engine_given _ := id
  engine_open := (absurd · h.engine)
  declared_given _ := rfl
  declared_open given := by
    have none_implied := c.describes_impliedVariables.eq_nil_iff.2 (h.declared given)
    exact (none_implied.trans given.symm) ▸ c.describes_impliedVariables
  validators := List.forall₂_same.2 fun v hv => (h.validators v hv).completes

/-- Default values complete a configuration, in the one way that there is, and once and for all. -/
theorem completed_by_defaults (c : Config) :
    c.withDefaults.withDefaults = c.withDefaults ∧
      c.withDefaults.IsComplete ∧
      (∀ d, d.Completes c ↔ d = c.withDefaults) ∧
      (c.withDefaults = c ↔ c.IsComplete) := by
  refine ⟨c.withDefaults_withDefaults, c.isComplete_withDefaults, fun d => ?_, fun h => ?_,
    fun h => h.completes.eq_withDefaults.symm⟩
  · exact ⟨Completes.eq_withDefaults, fun h => h ▸ c.completes_withDefaults⟩
  · exact h ▸ c.isComplete_withDefaults

end Config
end PromptAssembly.Prompt
