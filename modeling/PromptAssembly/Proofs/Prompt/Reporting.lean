import Mathlib.Data.List.TakeWhile
import PromptAssembly.Prompt.Report
import PromptAssembly.Proofs.Template.Scanning

/-!
# What reports say

A check and its errors come together, so the two lists agree after any number of checks
(`Report.Consistent.check`). The report of a configuration is valid if the configuration is well
formed and not otherwise. Its errors name every defect once, and its warnings every variable that is
declared twice and every placeholder that nothing declares (`Config.report_describes`).
-/
namespace PromptAssembly

namespace Text

theorem trimChars_eq_nil_iff {s : List Char} : trimChars s = [] ↔ ∀ c ∈ s, isBlank c := by
  rw [trimChars, List.reverse_eq_nil_iff, List.dropWhile_eq_nil_iff]
  simp only [List.mem_reverse]
  refine ⟨fun rest c hc => ?_, fun all c hc => all c ((List.dropWhile_sublist _).mem hc)⟩
  rw [← List.takeWhile_append_dropWhile (p := isBlank) (l := s)] at hc
  rcases List.mem_append.1 hc with dropped | kept
  · exact List.mem_takeWhile_imp dropped
  · exact rest c kept

theorem allBlank_iff {s : String} : allBlank s ↔ trim s = "" := by
  rw [trim, ← String.toList_eq_nil_iff, String.toList_ofList, trimChars_eq_nil_iff, allBlank,
    List.all_eq_true]

end Text

namespace Prompt
open Template (IsName StandsAt)
open Text (trim allBlank_iff)

namespace Report
variable {r : Report}

/-- There is an error exactly if some check failed. -/
def Consistent (r : Report) : Prop := r.errors = [] ↔ ∀ check ∈ r.checks, check.2

theorem Consistent.check (h : r.Consistent) (description : String) (defects : List String) :
    (r.check description defects).Consistent := by
  simp only [Consistent, Report.check, List.append_eq_nil_iff, List.forall_mem_append,
    List.forall_mem_singleton, List.isEmpty_iff]
  exact and_congr_left' h

theorem isEmpty_eq_decide {defects : List String} {p : Prop} [Decidable p] (h : defects = [] ↔ p) :
    defects.isEmpty = decide p := by
  rw [Bool.eq_iff_iff, List.isEmpty_iff, decide_eq_true_iff, h]

theorem Consistent.isValid_iff (h : r.Consistent) : r.isValid ↔ r.errors = [] := by
  rw [isValid, Bool.and_eq_true, List.isEmpty_iff, List.all_eq_true]
  exact ⟨And.left, fun none => ⟨none, h.1 none⟩⟩

theorem Consistent.passedChecks_iff (h : r.Consistent) :
    r.passedChecks = r.totalChecks ↔ r.errors = [] := by
  rw [passedChecks, totalChecks, List.countP_eq_length]
  exact h.symm

end Report

namespace Config
variable {c : Config}

/-- Nothing is missing that each configuration must have. -/
structure WellFormed (c : Config) : Prop where
  taskType : c.taskType ≠ ""
  template : trim c.template ≠ ""
  fragments : ∀ f ∈ c.fragments, trim f.name ≠ ""
  overrides : ∀ e ∈ c.modelOverrides.entries, e.2.template ≠ "" ∨ e.2.suffix ≠ ""

theorem mem_unnamedFragments_iff {i : Nat} :
    i ∈ c.unnamedFragments ↔ ∃ f, c.fragments[i]? = some f ∧ trim f.name = "" := by
  simp [unnamedFragments, List.mem_zipIdx_iff_getElem?, allBlank_iff]

theorem pairwise_unnamedFragments (c : Config) : c.unnamedFragments.Pairwise (· < ·) := by
  have positions : (c.fragments.zipIdx.map (·.2)).Pairwise (· < ·) := by
    rw [List.zipIdx_map_snd]
    exact List.pairwise_lt_range'
  exact positions.sublist (List.filter_sublist.map _)

theorem length_unnamedFragments (c : Config) :
    c.unnamedFragments.length = c.fragments.countP fun f => trim f.name = "" := by
  rw [unnamedFragments, List.length_map, ← List.countP_eq_length_filter]
  have names : c.fragments = c.fragments.zipIdx.map (·.1) := (List.zipIdx_map_fst 0 _).symm
  conv_rhs => rw [names, List.countP_map]
  simp [Function.comp_def, ← allBlank_iff]

theorem unnamedFragments_eq_nil_iff :
    c.unnamedFragments = [] ↔ ∀ f ∈ c.fragments, trim f.name ≠ "" := by
  simp [← List.length_eq_zero_iff, length_unnamedFragments]

theorem mem_emptyOverrides_iff {model : String} : model ∈ c.emptyOverrides ↔
    ∃ o, c.modelOverrides.get? model = some o ∧ o.template = "" ∧ o.suffix = "" := by
  simp [emptyOverrides, ModelOverride.isEmpty, Dict.mem_entries_iff]

theorem pairwise_emptyOverrides (c : Config) : c.emptyOverrides.Pairwise (· < ·) :=
  (List.pairwise_map.2 c.modelOverrides.sorted).sublist (List.filter_sublist.map _)

theorem length_emptyOverrides (c : Config) : c.emptyOverrides.length =
    c.modelOverrides.entries.countP fun e => e.2.template = "" ∧ e.2.suffix = "" := by
  rw [emptyOverrides, List.length_map, ← List.countP_eq_length_filter]
  exact List.countP_congr fun e _ => by simp [ModelOverride.isEmpty]

theorem emptyOverrides_eq_nil_iff : c.emptyOverrides = [] ↔
    ∀ e ∈ c.modelOverrides.entries, e.2.template ≠ "" ∨ e.2.suffix ≠ "" := by
  simp [← List.length_eq_zero_iff, length_emptyOverrides, or_iff_not_imp_left]

theorem mem_knownNames_iff {name : String} : name ∈ c.knownNames ↔ name ∈ c.requiredVars ∨
    name ∈ c.optionalVars.keys ∨ (∃ v ∈ c.declaredVars, v.name = name) ∨
      ∃ f ∈ c.fragments, f.name = name := by
  simp [knownNames]

theorem mem_undeclaredPlaceholders_iff {name : String} : name ∈ c.undeclaredPlaceholders ↔
    (IsName name ∧ ∃ i, StandsAt c.template name i) ∧
      name ∉ c.requiredVars ∧ name ∉ c.optionalVars.keys ∧
      (∀ v ∈ c.declaredVars, v.name ≠ name) ∧ ∀ f ∈ c.fragments, f.name ≠ name := by
  rw [undeclaredPlaceholders, Template.findPlaceholders, List.mem_filter, List.mem_eraseDups,
    Template.mem_references_iff, decide_eq_true_iff, mem_knownNames_iff]
  simp

theorem nodup_undeclaredPlaceholders (c : Config) : c.undeclaredPlaceholders.Nodup := by
  rw [undeclaredPlaceholders, Template.findPlaceholders, ← Template.noteAll_nil]
  exact (Template.nodup_noteAll _ .nil).filter _

theorem pairwise_undeclaredPlaceholders (c : Config) : c.undeclaredPlaceholders.Pairwise fun x y =>
    ∀ j, StandsAt c.template y j → ∃ i < j, StandsAt c.template x i := by
  have order := (Template.pairwise_eraseDups (Template.references c.template)).filter
    (· ∉ c.knownNames)
  refine order.imp_of_mem fun {x y} _ hy before j hj => ?_
  obtain ⟨⟨named, -⟩, -⟩ := mem_undeclaredPlaceholders_iff.1 hy
  obtain ⟨earlier, later, split, stands⟩ := Template.exists_of_standsAt named hj
  exact stands x (before earlier later split)

theorem warnings_eq (c : Config) : c.warnings =
    (c.requiredVars.filter (· ∈ c.optionalVars.keys)).map
      (s!"Variable '{·}' is declared both required and optional") ++
    c.undeclaredPlaceholders.map fun name =>
      "Placeholder '" ++ Template.braced name ++ "' is not a declared variable or fragment" := by
  have twice : c.doublyDeclared = c.requiredVars.filter (· ∈ c.optionalVars.keys) :=
    List.filter_congr fun name _ => by
      rw [Bool.eq_iff_iff, Dict.contains_iff_mem_keys, decide_eq_true_iff]
  have text (name : String) :
      s!"Placeholder '\x7b\x7b{name}\x7d\x7d' is not a declared variable or fragment" =
        "Placeholder '" ++ Template.braced name ++ "' is not a declared variable or fragment" :=
    String.toList_inj.1 (by simp [Template.braced, ToString.toString])
  simp only [warnings, twice, text]

theorem report_consistent (c : Config) : c.report.Consistent := by
  have start : ({ taskType := c.taskType, warnings := c.warnings } : Report).Consistent := by
    simp [Report.Consistent]
  exact (((start.check _ _).check _ _).check _ _).check _ _

theorem errors_report (c : Config) : c.report.errors =
    (if c.taskType = "" then ["task_type is empty"] else []) ++
    (if trim c.template = "" then ["system_template is empty"] else []) ++
    c.unnamedFragments.map (s!"Fragment reference #{·} has no name") ++
    c.emptyOverrides.map
      (s!"Model override '{·}' sets neither system_template nor system_template_suffix") := by
  simp [report, Report.check, ← allBlank_iff]

end Config

/-- What is to be said about a configuration. -/
structure Report.Describes (r : Report) (c : Config) : Prop where
  taskType : r.taskType = c.taskType
  valid : r.isValid ↔ c.WellFormed
  consistent : r.errors = [] ↔ ∀ check ∈ r.checks, check.2
  passed : r.errors = [] ↔ r.passedChecks = r.totalChecks
  checks : r.checks =
    [("Task type is set", decide (c.taskType ≠ "")),
      ("System template is not empty", decide (trim c.template ≠ "")),
      ("All fragment references are named", decide (∀ f ∈ c.fragments, trim f.name ≠ "")),
      ("Model overrides are non-empty",
        decide (∀ e ∈ c.modelOverrides.entries, e.2.template ≠ "" ∨ e.2.suffix ≠ ""))]
  /-- One error for each defect, in this order. -/
  errors : ∃ (positions : List Nat) (models : List String),
    r.errors =
      (if c.taskType = "" then ["task_type is empty"] else []) ++
      (if trim c.template = "" then ["system_template is empty"] else []) ++
      positions.map (s!"Fragment reference #{·} has no name") ++
      models.map
        (s!"Model override '{·}' sets neither system_template nor system_template_suffix") ∧
    positions.Pairwise (· < ·) ∧
    (∀ i, i ∈ positions ↔ ∃ f, c.fragments[i]? = some f ∧ trim f.name = "") ∧
    models.Pairwise (· < ·) ∧
    ∀ model, model ∈ models ↔
      ∃ o, c.modelOverrides.get? model = some o ∧ o.template = "" ∧ o.suffix = ""
  count : r.errors.length =
    (if c.taskType = "" then 1 else 0) + (if trim c.template = "" then 1 else 0) +
      (c.fragments.countP fun f => trim f.name = "") +
      c.modelOverrides.entries.countP fun e => e.2.template = "" ∧ e.2.suffix = ""
  /-- A name that is required more than once is warned of each time, a placeholder only once. -/
  warnings : ∃ names : List String,
    r.warnings =
      (c.requiredVars.filter (· ∈ c.optionalVars.keys)).map
        (s!"Variable '{·}' is declared both required and optional") ++
      names.map (fun name =>
        "Placeholder '" ++ Template.braced name ++ "' is not a declared variable or fragment") ∧
    names.Nodup ∧
    (∀ name, name ∈ names ↔ (IsName name ∧ ∃ i, StandsAt c.template name i) ∧
      name ∉ c.requiredVars ∧ name ∉ c.optionalVars.keys ∧
      (∀ v ∈ c.declaredVars, v.name ≠ name) ∧ ∀ f ∈ c.fragments, f.name ≠ name) ∧
    names.Pairwise fun x y => ∀ j, StandsAt c.template y j → ∃ i < j, StandsAt c.template x i
  /-- Whatever is warned of, a report is as valid as it would be without. -/
  harmless : ∀ warnings, { r with warnings }.isValid = r.isValid

namespace Config
variable {c : Config}

theorem errors_report_eq_nil_iff : c.report.errors = [] ↔ c.WellFormed := by
  have parts : c.report.errors = [] ↔ (c.taskType ≠ "" ∧ trim c.template ≠ "") ∧
      c.unnamedFragments = [] ∧ c.emptyOverrides = [] := by
    simp [errors_report, and_assoc]
  rw [parts, unnamedFragments_eq_nil_iff, emptyOverrides_eq_nil_iff]
  exact ⟨fun h => ⟨h.1.1, h.1.2, h.2.1, h.2.2⟩, fun h => ⟨⟨h.1, h.2⟩, h.3, h.4⟩⟩

/-- The report of a configuration tells its defects, all of them, and nothing else. -/
theorem report_describes (c : Config) : c.report.Describes c where
  taskType := rfl
  valid := c.report_consistent.isValid_iff.trans errors_report_eq_nil_iff
  consistent := c.report_consistent
  passed := c.report_consistent.passedChecks_iff.symm
  checks := by
    simp only [report, Report.check, List.nil_append, List.cons_append, List.cons.injEq,
      Prod.mk.injEq, true_and, and_true]
    refine ⟨Report.isEmpty_eq_decide ?taskType, Report.isEmpty_eq_decide ?template,
      Report.isEmpty_eq_decide ?fragments, Report.isEmpty_eq_decide ?overrides⟩
    case taskType => simp
    case template => simp [allBlank_iff]
    case fragments => rw [List.map_eq_nil_iff, unnamedFragments_eq_nil_iff]
    case overrides => rw [List.map_eq_nil_iff, emptyOverrides_eq_nil_iff]
  errors := ⟨_, _, errors_report c, pairwise_unnamedFragments c, fun _ => mem_unnamedFragments_iff,
    pairwise_emptyOverrides c, fun _ => mem_emptyOverrides_iff⟩
  count := by
    rw [errors_report, ← length_unnamedFragments, ← length_emptyOverrides]
    simp only [List.length_append, List.length_map]
    split <;> split <;> rfl
  warnings := ⟨_, warnings_eq c, nodup_undeclaredPlaceholders c,
    fun _ => mem_undeclaredPlaceholders_iff, pairwise_undeclaredPlaceholders c⟩
  harmless _ := rfl

end Config
end Prompt
end PromptAssembly
