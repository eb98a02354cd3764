import Mathlib.Control.Monad.Basic
import PromptAssembly.Registry
import PromptAssembly.Repository.Memory

/-!
# Where a variable's value comes from

The references of a configuration are tried one after the other, each resolved from the caller's
variables and the defaults alone and loaded through the cache as the ones before have left it
(`attempts`). The first required one that does not load ends the preparation. If there is none, a
name has the content of the last fragment that was loaded under it, else the caller's value, else
the default (`Registry.bindings_by_precedence`).
-/
namespace PromptAssembly
open Assembly (Error Resolved resolveRef)
open Prompt (Config Fragment FragmentRef)
open Repository (Memory)
open Template (Vars substituteOnce)

variable {S : Type}

namespace Assembly

/-- A reference, what it resolves to, and what came of loading it. -/
structure Attempt where
  ref : FragmentRef
  resolved : Resolved
  outcome : Except Repository.Error Fragment
  deriving Repr

namespace Attempt

def Fails (a : Attempt) : Prop := a.ref.required ∧ ∃ cause, a.outcome = .error cause

def content? (name : String) (a : Attempt) : Option String :=
  match a.outcome with
  | .ok f => if name = a.resolved.name then some f.content else none
  | .error _ => none

def addTo (found : Vars) (a : Attempt) : Vars :=
  match a.outcome with
  | .ok f => found.insert a.resolved.name f.content
  | .error _ => found

theorem get?_addTo (found : Vars) (a : Attempt) (name : String) :
    (a.addTo found).get? name = (a.content? name).or (found.get? name) := by
  rw [addTo, content?]
  cases a.outcome with
  | ok f => by_cases h : name = a.resolved.name <;> simp [h]
  | error e => rfl

end Attempt

/-- The content that was loaded last under a name. -/
def lastContent? (name : String) (log : List Attempt) : Option String :=
  log.reverse.findSome? (Attempt.content? name)

theorem get?_foldl_addTo (log : List Attempt) (found : Vars) (name : String) :
    (log.foldl (fun found a => a.addTo found) found).get? name =
      (lastContent? name log).or (found.get? name) := by
  induction log generalizing found with
  | nil => rfl
  | cons a log ih =>
    rw [List.foldl_cons, ih, Attempt.get?_addTo, ← Option.or_assoc]
    simp [lastContent?, List.findSome?_append]

section
variable (repo : Repository S) (base : Option Files.Path) (vars : Vars)

def attempt (ref : FragmentRef) : Run S Attempt := do
  let resolved := resolveRef vars ref
  return { ref, resolved, outcome := ← loadFragment repo base resolved }

/-- All of the references in order, whatever comes of the ones before. -/
def attempts (refs : List FragmentRef) : Run S (List Attempt) := refs.mapM (attempt repo base vars)

variable {repo base vars}

theorem run_attempts_cons (f : FragmentRef) (refs : List FragmentRef) (s : Shared S) :
    (attempts repo base vars (f :: refs)).run s =
      let loaded := (loadFragment repo base (resolveRef vars f)).run s
      let rest := (attempts repo base vars refs).run loaded.2
      (⟨f, resolveRef vars f, loaded.1⟩ :: rest.1, rest.2) := by
  rw [attempts, List.mapM_cons, StateT.run_bind]
  rfl

theorem run_attempts_append (before after : List FragmentRef) (s : Shared S) :
    (attempts repo base vars (before ++ after)).run s =
      let earlier := (attempts repo base vars before).run s
      let later := (attempts repo base vars after).run earlier.2
      (earlier.1 ++ later.1, later.2) := by
  rw [attempts, List.mapM_append, StateT.run_bind]
  rfl

theorem exists_attempt (before : List FragmentRef) (f : FragmentRef) (after : List FragmentRef)
    (s : Shared S) : ∃ later, ((attempts repo base vars (before ++ f :: after)).run s).1 =
      ((attempts repo base vars before).run s).1 ++
        ⟨f, resolveRef vars f, ((loadFragment repo base (resolveRef vars f)).run
          ((attempts repo base vars before).run s).2).1⟩ :: later := by
  simp only [run_attempts_append, run_attempts_cons]
  exact ⟨_, rfl⟩

theorem run_fragmentVars_of_fails (found : Vars) {f : FragmentRef} (refs : List FragmentRef)
    {s : Shared S} {cause : Repository.Error} (required : f.required)
    (failed : ((loadFragment repo base (resolveRef vars f)).run s).1 = .error cause) :
    (fragmentVars repo base vars found (f :: refs)).run s =
      (.error (.missingFragment (resolveRef vars f).name f.name cause),
        ((loadFragment repo base (resolveRef vars f)).run s).2) := by
  have loaded : (loadFragment repo base (resolveRef vars f)).run s =
      (.error cause, ((loadFragment repo base (resolveRef vars f)).run s).2) := Prod.ext failed rfl
  rw [fragmentVars, StateT.run_bind, loaded]
  simp only [required]
  rfl

theorem run_fragmentVars_of_not_fails (found : Vars) {f : FragmentRef} (refs : List FragmentRef)
    {s : Shared S} {a : Attempt}
    (tried : a = ⟨f, resolveRef vars f, ((loadFragment repo base (resolveRef vars f)).run s).1⟩)
    (passes : ¬ a.Fails) : (fragmentVars repo base vars found (f :: refs)).run s =
      (fragmentVars repo base vars (a.addTo found) refs).run
        ((loadFragment repo base (resolveRef vars f)).run s).2 := by
  subst tried
  rw [fragmentVars, StateT.run_bind]
  revert passes
  rcases (loadFragment repo base (resolveRef vars f)).run s with ⟨outcome, s₁⟩
  intro passes
  cases outcome with
  | ok fragment => rfl
  | error cause =>
    have optional : f.required = false := by
      rw [← Bool.not_eq_true]
      exact fun required => passes ⟨required, cause, rfl⟩
    simp only [optional]
    rfl

variable (repo base vars) in
/-- The variables from fragments are those of all references, or the first required one that does
not load is reported and the rest is left alone. -/
theorem run_fragmentVars_cases (found : Vars) (refs : List FragmentRef) (s : Shared S) :
    ((∀ a ∈ ((attempts repo base vars refs).run s).1, ¬ a.Fails) ∧
      (fragmentVars repo base vars found refs).run s =
        (.ok (((attempts repo base vars refs).run s).1.foldl (fun found a => a.addTo found) found),
          ((attempts repo base vars refs).run s).2)) ∨
    ∃ before a after cause, ((attempts repo base vars refs).run s).1 = before ++ a :: after ∧
      (∀ b ∈ before, ¬ b.Fails) ∧ a.ref.required ∧ a.outcome = .error cause ∧
      (fragmentVars repo base vars found refs).run s =
        (.error (.missingFragment a.resolved.name a.ref.name cause),
          ((attempts repo base vars (refs.take (before.length + 1))).run s).2) := by
  induction refs generalizing found s with
  | nil =>
    refine .inl ⟨fun a ha => ?_, rfl⟩
    cases ha
  | cons f refs ih =>
    let s₁ := ((loadFragment repo base (resolveRef vars f)).run s).2
    let a : Attempt :=
      ⟨f, resolveRef vars f, ((loadFragment repo base (resolveRef vars f)).run s).1⟩
    let rest := (attempts repo base vars refs).run s₁
    have log : (attempts repo base vars (f :: refs)).run s = (a :: rest.1, rest.2) :=
      run_attempts_cons f refs s
    -- A failure ends the run here; anything else only changes what is found so far.
    by_cases fails : a.Fails
    · obtain ⟨required, cause, failed⟩ := fails
      refine .inr ⟨[], a, _, cause, by rw [log]; rfl, by simp, required, failed, ?_⟩
      exact run_fragmentVars_of_fails found refs required failed
    · rw [run_fragmentVars_of_not_fails found refs rfl fails, log]
      rcases ih (a.addTo found) s₁ with
        ⟨pass, hrun⟩ | ⟨before, b, after, cause, hlog, pass, required, failed, hrun⟩
      · exact .inl ⟨List.forall_mem_cons.2 ⟨fails, pass⟩, hrun⟩
      · refine .inr ⟨a :: before, b, after, cause, congrArg (a :: ·) hlog,
          List.forall_mem_cons.2 ⟨fails, pass⟩, required, failed, ?_⟩
        rw [List.length_cons, List.take_succ_cons, run_attempts_cons]
        exact hrun

end
end Assembly

namespace Registry
open Assembly (Attempt lastContent? loadFragment fragmentVars)
variable {r : Registry S} {c : Config} {vars : Vars}

/-- The references as this registry loads them, resolved from the given variables. -/
def attempts (r : Registry S) (base : Vars) (refs : List FragmentRef) : Run S (List Attempt) :=
  Assembly.attempts r.fragmentSource r.fragmentBase base refs

theorem missingVars_of_checkRequired {required : List String}
    (passed : Template.checkRequired required vars = .ok ()) :
    Template.missingVars required vars = [] := by
  cases h : Template.missingVars required vars with
  | nil => rfl
  | cons name names => simp [Template.checkRequired, h] at passed

theorem run_prepareVariables_of_passed (t : String) (s : Shared S)
    (passed : Template.checkRequired c.requiredVars vars = .ok ()) :
    (r.prepareVariables c vars t).run s =
      let fragments := (fragmentVars r.fragmentSource r.fragmentBase (baseVars c vars) Dict.empty
        c.fragments).run s
      (fragments.1.map ((baseVars c vars).overlay ·), fragments.2) := by
  simp only [prepareVariables, missingVars_of_checkRequired passed]
  rw [StateT.run_bind]
  rcases (fragmentVars r.fragmentSource r.fragmentBase (baseVars c vars) Dict.empty
    c.fragments).run s with ⟨found | e, s'⟩ <;> rfl

/-- Either every required fragment loads, and the bindings are those of the three layers, or the
first that does not is reported. -/
theorem run_prepareVariables_cases (t : String) (s : Shared S)
    (passed : Template.checkRequired c.requiredVars vars = .ok ()) :
    ((∀ a ∈ ((r.attempts (baseVars c vars) c.fragments).run s).1, ¬ a.Fails) ∧ ∃ bindings,
      (r.prepareVariables c vars t).run s =
        (.ok bindings, ((r.attempts (baseVars c vars) c.fragments).run s).2) ∧
      ∀ name, bindings.get? name =
        (lastContent? name ((r.attempts (baseVars c vars) c.fragments).run s).1).or
          ((vars.get? name).or (c.optionalVars.get? name))) ∨
    ∃ before a after cause,
      ((r.attempts (baseVars c vars) c.fragments).run s).1 = before ++ a :: after ∧
      (∀ b ∈ before, ¬ b.Fails) ∧ a.ref.required ∧ a.outcome = .error cause ∧
      (r.prepareVariables c vars t).run s =
        (.error (.missingFragment a.resolved.name a.ref.name cause),
          ((r.attempts (baseVars c vars) (c.fragments.take (before.length + 1))).run s).2) := by
  rw [run_prepareVariables_of_passed t s passed]
  rcases Assembly.run_fragmentVars_cases r.fragmentSource r.fragmentBase (baseVars c vars)
    Dict.empty c.fragments s with
    ⟨pass, hrun⟩ | ⟨before, a, after, cause, hlog, pass, required, failed, hrun⟩
  · refine .inl ⟨pass, _, by rw [hrun]; rfl, fun name => ?_⟩
    rw [Dict.get?_overlay, Assembly.get?_foldl_addTo, get?_baseVars, Dict.get?_empty,
      Option.or_none]
    rfl
  · exact .inr ⟨before, a, after, cause, hlog, pass, required, failed, by rw [hrun]; rfl⟩

/-- Let the required variables be given. Every reference is resolved by one pass over the defaults
and the caller's variables, and loaded through the cache as the references before it have left it.
The preparation fails if and only if a required one does not load, and reports the first of them;
otherwise a name has the content that was loaded last under it, else the caller's value, else the
default. -/
theorem bindings_by_precedence (r : Registry S) (c : Config) (vars : Vars) (t : String)
    (s : Shared S) (passed : Template.checkRequired c.requiredVars vars = .ok ()) :
    let base := baseVars c vars
    let log := ((r.attempts base c.fragments).run s).1
    let result := (r.prepareVariables c vars t).run s
    (∀ name, base.get? name = (vars.get? name).or (c.optionalVars.get? name)) ∧
    (∀ before f after, c.fragments = before ++ f :: after →
      let earlier := (r.attempts base before).run s
      let resolved : Resolved := {
        name := substituteOnce f.name base
        path := (f.path.map (substituteOnce · base)).filter fun p => !p.isEmpty }
      let loaded := (loadFragment r.fragmentSource r.fragmentBase resolved).run earlier.2
      ∃ later, log = earlier.1 ++ ⟨f, resolved, loaded.1⟩ :: later) ∧
    ((∃ e, result.1 = .error e) ↔ ∃ a ∈ log, a.Fails) ∧
    (∀ e, result.1 = .error e → ∃ before a after cause, log = before ++ a :: after ∧
      (∀ b ∈ before, ¬ b.Fails) ∧ a.ref.required ∧ a.outcome = .error cause ∧
      e = .missingFragment a.resolved.name a.ref.name cause ∧
      result.2 = ((r.attempts base (c.fragments.take (before.length + 1))).run s).2) ∧
    (∀ bindings, result.1 = .ok bindings →
      result.2 = ((r.attempts base c.fragments).run s).2 ∧
      ∀ name, bindings.get? name =
        (lastContent? name log).or ((vars.get? name).or (c.optionalVars.get? name))) := by
  intro base log result
  refine ⟨get?_baseVars c vars, ?order, ?rest⟩
  case order =>
    intro before f after split earlier resolved loaded
    have tried : ∃ later, ((r.attempts base (before ++ f :: after)).run s).1 =
        earlier.1 ++ ⟨f, resolved, loaded.1⟩ :: later :=
      Assembly.exists_attempt before f after s
    rwa [← split] at tried
  case rest =>
    rcases run_prepareVariables_cases t s passed with ⟨pass, bindings, hrun, layers⟩ |
      ⟨before, a, after, cause, hlog, pass, required, failed, hrun⟩
    · have ended : result = (.ok bindings, ((r.attempts base c.fragments).run s).2) := hrun
      refine ⟨⟨?_, ?_⟩, ?_, ?_⟩
      · rintro ⟨e, h⟩
        simp [ended] at h
      · rintro ⟨a, ha, fails⟩
        exact absurd fails (pass a ha)
      · intro e h
        simp [ended] at h
      · intro bindings' h
        obtain rfl : bindings = bindings' := by simpa [ended] using h
        exact ⟨by rw [ended], layers⟩
    · have ended : result = (.error (.missingFragment a.resolved.name a.ref.name cause),
          ((r.attempts base (c.fragments.take (before.length + 1))).run s).2) := hrun
      have split : log = before ++ a :: after := hlog
      refine ⟨⟨?_, ?_⟩, ?_, ?_⟩
      · intro _
        exact ⟨a, by simp [split], required, cause, failed⟩
      · intro _
        exact ⟨_, by rw [ended]⟩
      · intro e h
        obtain rfl : _ = e := by simpa [ended] using h
        exact ⟨before, a, after, cause, split, pass, required, failed, rfl, by rw [ended]⟩
      · intro bindings h
        simp [ended] at h

/-- Two fragments under one name, the first of them resolved by what the caller puts in the place of
a default; a name that is not resolved by the content of a fragment, whose path is found in the
cache; an optional fragment that does not load; and two required ones that do not. -/
theorem bindings_by_precedence_layered :
    let c : Config := {
      taskType := "t", requiredVars := ["who"]
      optionalVars := (Dict.empty.insert "tone" "kind").insert "kind" "default"
      fragments := [{ name := "{{tone}}", path := some "a.md", required := true },
        { name := "lost" }, { name := "{{grave}}", path := some "a.md", required := true },
        { name := "grave", path := some "b.md" }] }
    let d : Config := { c with fragments := c.fragments ++
      [{ name := "{{who}}", required := true }, { name := "gone", required := true }] }
    let r : Registry Memory := { repository := some Memory.repository }
    let s : Shared Memory := { store := (Memory.insertFragment {} "a.md"
      { content := "first" }).insertFragment "b.md" { content := "last" } }
    let vars : Vars := (Dict.empty.insert "who" "Ann").insert "tone" "grave"
    Template.checkRequired c.requiredVars vars = .ok () ∧
      (∃ bindings, ((r.prepareVariables c vars "t").run s).1 = .ok bindings ∧
        bindings.get? "grave" = some "last" ∧ bindings.get? "{{grave}}" = some "first" ∧
        bindings.get? "tone" = some "grave" ∧ bindings.get? "kind" = some "default" ∧
        bindings.get? "lost" = none) ∧
      ((r.prepareVariables d vars "t").run s).1 =
        .error (.missingFragment "Ann" "{{who}}" (.notFound "fragment 'Ann'")) ∧
      ∃ a ∈ ((r.attempts (baseVars d vars) d.fragments).run s).1, a.Fails := by
  intro c d r s vars
  have passed : Template.checkRequired c.requiredVars vars = .ok () := by decide +kernel
  have succeeds : ((r.prepareVariables c vars "t").run s).1.toOption.isSome := by decide +kernel
  have reported : ((r.prepareVariables d vars "t").run s).1 =
      .error (.missingFragment "Ann" "{{who}}" (.notFound "fragment 'Ann'")) := by decide +kernel
  obtain ⟨bindings, hrun⟩ : ∃ bindings,
      ((r.prepareVariables c vars "t").run s).1 = .ok bindings := by
    cases h : ((r.prepareVariables c vars "t").run s).1 with
    | ok bindings => exact ⟨bindings, rfl⟩
    | error e => simp [h, Except.toOption] at succeeds
  obtain ⟨_, _, _, _, layers⟩ := bindings_by_precedence r c vars "t" s passed
  obtain ⟨_, _, fails, _, _⟩ := bindings_by_precedence r d vars "t" s passed
  obtain ⟨_, value⟩ := layers bindings hrun
  refine ⟨passed, ⟨bindings, hrun, ?_, ?_, ?_, ?_, ?_⟩, reported, fails.1 ⟨_, reported⟩⟩
  all_goals
    rw [value]
    decide +kernel

end Registry
end PromptAssembly
