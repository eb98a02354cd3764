import PromptAssembly.Proofs.Assembly.Precedence
import PromptAssembly.Proofs.Assembly.Replies
import PromptAssembly.Repository.Probe

/-!
# Required variables

Once a configuration is there, its required variables are looked for in what the caller gives, and
nowhere else. If some are missing the assembly ends with a report of them, before it has asked the
repository for a fragment or touched the cache (`Registry.required_checked_first`).
-/
namespace PromptAssembly
open Assembly (Error)
open Prompt (Config Fragment)
open Repository (Memory Probed)
open Template (Vars)

namespace Template
variable {vars : Vars} {required : List String} {name : String}

/-- The map has no value for the name, or the empty one. -/
def Lacks (vars : Vars) (name : String) : Prop :=
  vars.get? name = none ∨ vars.get? name = some ""

instance (vars : Vars) (name : String) : Decidable (Lacks vars name) :=
  inferInstanceAs (Decidable (_ ∨ _))

theorem missingVars_eq_filter (required : List String) (vars : Vars) :
    missingVars required vars = required.filter (Lacks vars ·) := by
  refine List.filter_congr fun name _ => ?_
  cases h : vars.get? name with
  | none => simp [Lacks, h]
  | some value =>
    rw [Bool.eq_iff_iff]
    simp [Lacks, h]

theorem missingVars_ne_nil_iff :
    missingVars required vars ≠ [] ↔ ∃ name ∈ required, Lacks vars name := by
  rw [missingVars_eq_filter, ne_eq, List.filter_eq_nil_iff]
  simp

end Template

variable {S : Type}

namespace Cache

theorem fragments_getOrLoad {ε : Type} {key : String} {load : Run S (Except ε Config)}
    {s : Shared S} (leaves : ∀ cache,
      (load.run { s with cache }).2.cache.fragments = cache.fragments) :
    ((getOrLoad promptSlot key load).run s).2.cache.fragments = s.cache.fragments := by
  cases held : s.cache.find? promptSlot key with
  | some c => rw [run_getOrLoad_of_find? held]
  | none =>
    have missing := (find?_takeGate promptSlot_lawful s.cache key).trans held
    have left := leaves (s.cache.takeGate promptSlot key).2
    cases hl : load.run { s with cache := (s.cache.takeGate promptSlot key).2 } with
    | mk loaded s' =>
      rw [hl] at left
      cases loaded with
      | error e =>
        rw [run_getOrLoad_of_none held (run_loadBehindGate_error missing hl)]
        exact left
      | ok c =>
        rw [run_getOrLoad_of_none held (run_loadBehindGate_ok missing hl)]
        have kept : ∀ (cache : Cache) generation,
            (cache.keep promptSlot generation key c).fragments = cache.fragments := by
          intro cache generation
          rw [keep]
          split <;> rfl
        exact (kept _ _).trans left

end Cache

namespace Registry
open Template (Lacks)
variable {r : Registry S} {t : String} {s s' : Shared S} {c : Config} {q : Request}

/-- The same registry over a repository that answers otherwise when it is asked for a fragment. -/
def withFragmentLoader (r : Registry S) (load : String → Option String → Option Files.Path →
    Run S (Except Repository.Error Fragment)) : Registry S :=
  { r with repository := r.repository.map fun repo => { repo with loadFragment := load } }

theorem loadConfig_withFragmentLoader (r : Registry S) (load : String → Option String →
    Option Files.Path → Run S (Except Repository.Error Fragment)) (t : String) :
    (r.withFragmentLoader load).loadConfig t = r.loadConfig t := by
  simp only [loadConfig, withFragmentLoader]
  cases r.repository <;> rfl

theorem fragments_loadConfig (leaves : ∀ repo, r.repository = some repo → ∀ cache,
      ((repo.loadPrompt t).run { s with cache }).2.cache.fragments = cache.fragments) :
    ((r.loadConfig t).run s).2.cache.fragments = s.cache.fragments := by
  simp only [loadConfig]
  cases attached : r.repository with
  | none =>
    simp only [StateT.run_bind, Cache.run_getThe, pure_bind]
    cases s.cache.find? Cache.promptSlot t <;> rfl
  | some repo =>
    refine Cache.fragments_getOrLoad fun cache => ?_
    have left := leaves repo attached cache
    rw [StateT.run_bind]
    revert left
    rcases (repo.loadPrompt t).run { s with cache } with ⟨c | e, s'⟩ <;> exact id

theorem run_answer_of_held (held : (r.loadConfig q.taskType).run s = (.ok c, s')) :
    (r.answer q).run s =
      let prepared := (r.prepareVariables c q.vars q.taskType).run s'
      (r.finish q c prepared.1, prepared.2) := by
  rw [answer, assemble, StateT.run_bind, held]
  show StateT.run (r.prepareVariables c q.vars q.taskType >>= _) s' = _
  cases prepared : (r.prepareVariables c q.vars q.taskType).run s' with
  | mk outcome s'' =>
    have ran : (r.prepareVariables c q.vars q.taskType).run s' = pure (outcome, s'') := prepared
    rw [StateT.run_bind, ran, pure_bind]
    cases outcome with
    | error e => rfl
    | ok vars =>
      dsimp only [finish]
      cases r.renderer.render (c.templateFor q.model) vars <;> rfl

theorem run_prepareVariables_of_missing {vars : Vars}
    (missing : Template.missingVars c.requiredVars vars ≠ []) (t : String) (s : Shared S) :
    (r.prepareVariables c vars t).run s =
      (.error (.missingVariables t (Template.missingVars c.requiredVars vars)), s) := by
  simp only [prepareVariables]
  cases h : Template.missingVars c.requiredVars vars with
  | nil => exact absurd h missing
  | cons name names => rfl

theorem run_answer_of_missing (held : (r.loadConfig q.taskType).run s = (.ok c, s'))
    (missing : Template.missingVars c.requiredVars q.vars ≠ []) : (r.answer q).run s =
      (.error (.missingVariables q.taskType (Template.missingVars c.requiredVars q.vars)), s') := by
  rw [run_answer_of_held held, run_prepareVariables_of_missing missing]
  rfl

/-- Whatever else may go wrong is reported as something else. -/
theorem run_answer_ne_missing (held : (r.loadConfig q.taskType).run s = (.ok c, s'))
    (given : Template.missingVars c.requiredVars q.vars = []) (t : String) (names : List String) :
    ((r.answer q).run s).1 ≠ .error (.missingVariables t names) := by
  have passed : Template.checkRequired c.requiredVars q.vars = .ok () := by
    rw [Template.checkRequired, given]
  rw [run_answer_of_held held]
  rcases run_prepareVariables_cases (r := r) q.taskType s' passed with
    ⟨_, bindings, hrun, _⟩ | ⟨_, _, _, _, _, _, _, _, hrun⟩
  · simp only [hrun, finish]
    cases r.renderer.render (c.templateFor q.model) bindings <;> simp
  · simp [hrun, finish]

/-- Let a configuration be found for a task type. The assembly reports missing variables if and only
if the caller lacks a required one, and reports just these, in order of declaration and as often as
they are declared; defaults and fragments do not count. It then ends where the configuration was
found: no fragment has been asked for, so that it makes no difference how the repository would have
answered, and the cached fragments are untouched unless the repository itself has touched them when
it was asked for the configuration. -/
theorem required_checked_first (r : Registry S) {t : String} {s s' : Shared S} {c : Config}
    (vars : Vars) (model : String) (held : (r.loadConfig t).run s = (.ok c, s')) :
    let result := (r.assemble t vars model).run s
    ((∃ t' names, result.1 = .error (.missingVariables t' names)) ↔
      ∃ name ∈ c.requiredVars, Lacks vars name) ∧
    ∀ t' names, result.1 = .error (.missingVariables t' names) →
      t' = t ∧
      names = c.requiredVars.filter (Lacks vars ·) ∧
      result.2 = s' ∧
      (∀ load, ((r.withFragmentLoader load).assemble t vars model).run s = result) ∧
      ((∀ repo, r.repository = some repo → ∀ cache,
          ((repo.loadPrompt t).run { s with cache }).2.cache.fragments = cache.fragments) →
        result.2.cache.fragments = s.cache.fragments) := by
  intro result
  let q : Request := ⟨t, vars, model⟩
  by_cases missing : Template.missingVars c.requiredVars vars = []
  · have other := run_answer_ne_missing (q := q) held missing
    refine ⟨⟨?_, ?_⟩, fun t' names h => absurd h (other t' names)⟩
    · rintro ⟨t', names, h⟩
      exact absurd h (other t' names)
    · exact fun lacking => absurd missing (Template.missingVars_ne_nil_iff.2 lacking)
  · have ended : result = (.error (.missingVariables t _), s') :=
      run_answer_of_missing (q := q) held missing
    refine ⟨⟨fun _ => Template.missingVars_ne_nil_iff.1 missing, fun _ => ⟨_, _, by rw [ended]⟩⟩,
      fun t' names h => ?_⟩
    rw [ended] at h
    cases h
    refine ⟨rfl, Template.missingVars_eq_filter _ _, by rw [ended], fun load => ?_,
      fun leaves => ?_⟩
    · rw [ended]
      refine run_answer_of_missing (r := r.withFragmentLoader load) (q := q) ?_ missing
      rw [← held]
      exact congrArg (StateT.run · s) (loadConfig_withFragmentLoader r load t)
    · have loaded := fragments_loadConfig leaves
      rw [held] at loaded
      rwa [ended]

/-- A name that is required twice and has a default and a cached fragment, and one whose value is
empty. The repository's probe has seen no call but that for the configuration. -/
theorem required_checked_first_probed :
    let c : Config := {
      taskType := "t", template := "{{who}} {{tone}} {{place}}"
      requiredVars := ["who", "place", "tone", "who"]
      optionalVars := Dict.ofList [("who", "Ann"), ("tone", "kind")]
      fragments := [{ name := "who", required := true }] }
    let r : Registry (Probed Memory) := { repository := some (Probed.repository Memory.repository) }
    let s : Shared (Probed Memory) := {
      cache := ({} : Cache).insert Cache.fragmentSlot "who" { content := "Bob" }
      store := { store := (Memory.insertPrompt {} c).insertFragment "who" { content := "Eve" } } }
    let vars : Vars := Dict.ofList [("place", "here"), ("tone", "")]
    let result := (r.assemble "t" vars "").run s
    result.1 = .error (.missingVariables "t" ["who", "tone", "who"]) ∧
      result.2.store.probe.calls = [.loadPrompt] ∧
      result.2.cache.fragments = s.cache.fragments ∧
      ∀ load, ((r.withFragmentLoader load).assemble "t" vars "").run s = result := by
  intro c r s vars result
  have held : (r.loadConfig "t").run s = (.ok c.withDefaults, ((r.loadConfig "t").run s).2) :=
    Prod.ext (by decide +kernel) rfl
  have leaves : ∀ repo, r.repository = some repo → ∀ cache,
      ((repo.loadPrompt "t").run { s with cache }).2.cache.fragments = cache.fragments := by
    rintro _ ⟨⟩ cache
    rfl
  have lacking : ∃ name ∈ c.withDefaults.requiredVars, Lacks vars name := by decide +kernel
  obtain ⟨reported, only⟩ := required_checked_first r vars "" held
  obtain ⟨t, names, failed⟩ := reported.2 lacking
  obtain ⟨rfl, listed, ended, same, kept⟩ := only t names failed
  have names_eq : c.withDefaults.requiredVars.filter (Lacks vars ·) = ["who", "tone", "who"] := by
    decide +kernel
  have calls : ((r.loadConfig "t").run s).2.store.probe.calls = [.loadPrompt] := by decide +kernel
  refine ⟨?_, ?_, kept leaves, same⟩
  · rw [← names_eq, ← listed]
    exact failed
  · rw [← calls, ← ended]

end Registry
end PromptAssembly
