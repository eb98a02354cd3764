import Mathlib.Algebra.BigOperators.Group.List.Basic
import Mathlib.Algebra.GroupWithZero.Nat
import PromptAssembly.Proofs.Template.Rendering
import PromptAssembly.Proofs.Template.Stepwise

/-!
# The effort of an expansion

A variable whose value has been handed over to be expanded is on the chain first and in the table
later, and it is not entered again as long as it is in either. So every step uses up a piece that is
ahead, a text that waits, or the value of a variable that has not begun (`effort_of_step`). An
expansion ends for this reason alone, however large its depth bound is
(`Renderer.expansion_bounded`). The short cut for templates without an opening only saves the run.
-/
namespace PromptAssembly.Template

/-- The pieces of the template and of all values, and a return from each value. -/
def work (vars : Vars) (template : String) : Nat :=
  (pieces template.toList).length +
    (vars.entries.map fun e => (pieces e.2.toList).length + 1).sum

namespace Moment

/-- The variables on the chain and those in the table. -/
def begun (m : Moment) : List String := m.chain ++ m.progress.resolved.map Prod.fst

def untouched (vars : Vars) (m : Moment) : List (String × String) :=
  vars.entries.filter fun e => e.1 ∉ m.begun

/-- The steps that may still be needed. -/
def effort (vars : Vars) (m : Moment) : Nat :=
  m.ahead.length + (m.waiting.map fun w => w.ahead.length + 1).sum +
    ((m.untouched vars).map fun e => (pieces e.2.toList).length + 1).sum

/-- What a step can do that does not end the expansion: write and read on with the same table and
trace, enter a variable that has not begun, or leave one. -/
inductive Moves (vars : Vars) (maxDepth : Nat) (m : Moment) : Moment → Prop
  | write {p : Piece} {behind : List Piece} {text : String} {progress : Progress}
      (ahead : m.ahead = p :: behind) (table : progress.resolved = m.progress.resolved)
      (trace : progress.handed = m.progress.handed) :
      Moves vars maxDepth m (m.write text behind progress)
  | enter {p : Piece} {behind : List Piece} {name value : String} (ahead : m.ahead = p :: behind)
      (held : vars.get? name = some value) (new : name ∉ m.begun)
      (room : m.chain.length < maxDepth) : Moves vars maxDepth m (m.enter name value behind)
  | leave {outer : Waiting} {waiting : List Waiting} (ahead : m.ahead = [])
      (below : m.waiting = outer :: waiting) : Moves vars maxDepth m (m.leave outer waiting)

variable {vars : Vars} {maxDepth : Nat} {m m' : Moment} {name value : String}
  {behind : List Piece}

theorem moves_of_meet {p : Piece} (ahead : m.ahead = p :: behind)
    (held : vars.get? name = some value) (h : m.meet maxDepth name value behind = .moment m') :
    m.Moves vars maxDepth m' := by
  unfold meet at h
  split at h
  · cases h
    exact .write ahead rfl rfl
  · next absent =>
    split_ifs at h with again full
    cases h
    have missing : name ∉ m.progress.resolved.map Prod.fst := by
      intro known
      obtain ⟨e, he, rfl⟩ := List.mem_map.1 known
      simpa using List.lookup_eq_none_iff.1 absent e he
    exact .enter ahead held (by simp [begun, again, missing]) (Nat.lt_of_not_le full)

theorem moves_of_step (h : m.step vars maxDepth = .moment m') : m.Moves vars maxDepth m' := by
  unfold step at h
  split at h
  · next ahead =>
    split at h
    · cases h
    · next below =>
      cases h
      exact .leave ahead below
  · next ahead =>
    split at h
    · cases h
      exact .write ahead rfl rfl
    · split at h
      · next held => exact moves_of_meet ahead held h
      · cases h
        exact .write ahead (Progress.resolved_note _ _) (Progress.handed_note _ _)

theorem begun_write {text : String} {progress : Progress}
    (table : progress.resolved = m.progress.resolved) :
    (m.write text behind progress).begun = m.begun := by
  rw [begun, begun, write, table, chain, chain]

theorem chain_enter : (m.enter name value behind).chain = m.chain ++ [name] := chainOf_cons _

theorem perm_begun_enter : (m.enter name value behind).begun.Perm (name :: m.begun) := by
  rw [begun, chain_enter, List.append_assoc]
  exact List.perm_middle

theorem chain_of_waiting {outer : Waiting} {waiting : List Waiting}
    (below : m.waiting = outer :: waiting) : m.chain = chainOf waiting ++ [outer.name] := by
  rw [chain, below, chainOf_cons]

theorem begun_leave {outer : Waiting} {waiting : List Waiting}
    (below : m.waiting = outer :: waiting) : (m.leave outer waiting).begun = m.begun := by
  rw [begun, begun, chain_of_waiting below, List.append_assoc]
  rfl

theorem untouched_congr (h : m'.begun = m.begun) : m'.untouched vars = m.untouched vars := by
  rw [untouched, untouched, h]

theorem untouched_perm (held : vars.get? name = some value) (new : name ∉ m.begun) :
    (m.untouched vars).Perm ((name, value) :: (m.enter name value behind).untouched vars) := by
  have member : (name, value) ∈ m.untouched vars := by
    simp [untouched, new, Dict.mem_entries_iff.2 held]
  have distinct : (m.untouched vars).Nodup :=
    (List.Nodup.of_map Prod.fst vars.nodup_keys).filter _
  have erased :
      (m.enter name value behind).untouched vars = (m.untouched vars).erase (name, value) := by
    rw [distinct.erase_eq_filter, untouched, untouched, List.filter_filter]
    refine List.filter_congr fun e he => ?_
    have same : e.1 = name ↔ e = (name, value) := by
      constructor
      · rintro rfl
        have found : vars.get? e.1 = some e.2 := Dict.mem_entries_iff.1 he
        exact Prod.ext rfl (Option.some.inj (found.symm.trans held))
      · rintro rfl
        rfl
    by_cases touched : e = (name, value) <;> simp [perm_begun_enter.mem_iff, same, touched]
  rw [erased]
  exact List.perm_cons_erase member

/-- Every step that does not end the expansion uses up one unit of effort. -/
theorem effort_of_step (h : m.step vars maxDepth = .moment m') :
    m'.effort vars + 1 = m.effort vars := by
  cases moves_of_step h with
  | write ahead table _ =>
    rw [effort, effort, untouched_congr (begun_write table), ahead]
    simp only [write, List.length_cons]
    omega
  | @enter _ behind name value ahead held new =>
    -- the pieces of the value were counted with the untouched, and are now ahead
    have perm : (m.untouched vars).Perm
        ((name, value) :: (m.enter name value behind).untouched vars) := untouched_perm held new
    have paid := (perm.map fun e => (pieces e.2.toList).length + 1).sum_eq
    rw [effort, effort, paid, ahead]
    simp only [enter, List.map_cons, List.sum_cons, List.length_cons]
    omega
  | leave ahead below =>
    rw [effort, effort, untouched_congr (begun_leave below), ahead, below]
    simp only [leave, List.map_cons, List.sum_cons, List.length_nil]
    omega

theorem effort_start (vars : Vars) (template : String) :
    (start template).effort vars = work vars template := by
  have all : (start template).untouched vars = vars.entries :=
    List.filter_eq_self.2 fun e _ => by simp [start, begun, chain]
  rw [effort, all, work]
  simp [start]

/-- What has been entered is on the chain or in the table, and nothing is there twice. -/
structure Sound (vars : Vars) (maxDepth : Nat) (m : Moment) : Prop where
  short : m.chain.length ≤ maxDepth
  held : m.entered ⊆ vars.entries
  apart : m.begun.Nodup
  accounted : (m.entered.map Prod.fst).Perm m.begun

namespace Sound

theorem start (template : String) : (start template).Sound vars maxDepth := by
  constructor <;> simp [Moment.start, chain, begun]

theorem step (sound : m.Sound vars maxDepth) (h : m.step vars maxDepth = .moment m') :
    m'.Sound vars maxDepth := by
  cases moves_of_step h with
  | @write _ behind text progress ahead table _ =>
    have same : (m.write text behind progress).begun = m.begun := begun_write table
    exact ⟨sound.short, sound.held, same ▸ sound.apart, same ▸ sound.accounted⟩
  | @enter _ behind name value ahead held new room =>
    have entry : (name, value) ∈ vars.entries := Dict.mem_entries_iff.2 held
    have grown : (m.enter name value behind).begun.Perm (name :: m.begun) := perm_begun_enter
    constructor
    · rw [chain_enter, List.length_append]
      exact room
    · exact List.append_subset.2 ⟨sound.held, by simpa using entry⟩
    · exact grown.nodup_iff.2 (List.nodup_cons.2 ⟨new, sound.apart⟩)
    · rw [enter, List.map_append]
      have last := List.perm_append_singleton name (m.entered.map Prod.fst)
      exact last.trans ((sound.accounted.cons name).trans grown.symm)
  | @leave outer waiting ahead below =>
    have same : (m.leave outer waiting).begun = m.begun := begun_leave below
    have shorter : (m.leave outer waiting).chain.length ≤ m.chain.length := by
      rw [chain_of_waiting below, List.length_append]
      exact Nat.le_add_right _ _
    have short := Nat.le_trans shorter sound.short
    exact ⟨short, sound.held, same ▸ sound.apart, same ▸ sound.accounted⟩

theorem once (sound : m.Sound vars maxDepth) : (m.entered.map Prod.fst).Nodup :=
  sound.accounted.nodup_iff.2 sound.apart

theorem nodup_chain (sound : m.Sound vars maxDepth) : m.chain.Nodup :=
  (List.nodup_append.1 sound.apart).1

theorem chain_subset (sound : m.Sound vars maxDepth) : m.chain ⊆ vars.keys := by
  intro name hname
  have entered := sound.accounted.mem_iff.2 (List.mem_append_left _ hname)
  exact List.map_subset Prod.fst sound.held entered

theorem length_chain_le (sound : m.Sound vars maxDepth) :
    m.chain.length ≤ vars.entries.length := by
  simpa [Dict.keys] using (sound.nodup_chain.subperm sound.chain_subset).length_le

theorem length_entered_le (sound : m.Sound vars maxDepth) :
    m.entered.length ≤ vars.entries.length :=
  ((List.Nodup.of_map Prod.fst sound.once).subperm sound.held).length_le

end Sound

/-- The trace of the expansion is that of the variables that have been entered. -/
theorem handed_of_step (h : m.step vars maxDepth = .moment m') {template : String}
    (traced : m.progress.handed = (m.texts template).reverse) :
    m'.progress.handed = (m'.texts template).reverse := by
  cases moves_of_step h with
  | write _ _ trace => exact trace.trans traced
  | enter => simp [enter, Progress.hand, texts, traced]
  | leave => exact traced

theorem progress_of_ended {text : String} {p : Progress}
    (h : m.step vars maxDepth = .ended (.ok (text, p))) : p = m.progress := by
  unfold step at h
  split at h
  · split at h
    · cases h
      rfl
    · cases h
  · split at h
    · cases h
    · split at h
      · unfold meet at h
        split at h
        · cases h
        · split_ifs at h <;> cases h
      · cases h

end Moment

variable {vars : Vars} {maxDepth : Nat} {template : String}

theorem sound_momentAfter (n : Nat) :
    (momentAfter vars maxDepth template n).Sound vars maxDepth := by
  induction n with
  | zero => exact .start template
  | succ n ih =>
    rw [momentAfter]
    split
    · next hm => exact ih.step hm
    · exact ih

theorem handed_momentAfter (n : Nat) :
    (momentAfter vars maxDepth template n).progress.handed =
      ((momentAfter vars maxDepth template n).texts template).reverse := by
  induction n with
  | zero => rfl
  | succ n ih =>
    rw [momentAfter]
    split
    · next hm => exact Moment.handed_of_step hm ih
    · exact ih

/-- As long as an expansion has not ended, every step has taken its share of the effort. -/
theorem effort_momentAfter (vars : Vars) (maxDepth : Nat) (template : String) (n : Nat) :
    (momentAfter vars maxDepth template n).effort vars + n = work vars template ∨
      ∃ result, (momentAfter vars maxDepth template n).step vars maxDepth = .ended result := by
  induction n with
  | zero => exact .inl (Moment.effort_start vars template)
  | succ n ih =>
    rw [momentAfter]
    split
    · next m hm =>
      rcases ih with ih | ⟨result, ended⟩
      · have := Moment.effort_of_step hm
        exact .inl (by omega)
      · simp [ended] at hm
    · next result ended => exact .inr ⟨result, ended⟩

theorem ended_momentAfter_work (vars : Vars) (maxDepth : Nat) (template : String) :
    ∃ result, (momentAfter vars maxDepth template (work vars template)).step vars maxDepth =
      .ended result := by
  rcases effort_momentAfter vars maxDepth template (work vars template) with exhausted | ended
  · cases hs : (momentAfter vars maxDepth template (work vars template)).step vars maxDepth with
    | moment m =>
      -- no effort is left for another step
      have := Moment.effort_of_step hs
      omega
    | ended result => exact ⟨result, rfl⟩
  · exact ended

namespace Renderer

/-- Whatever the bound on the depth, rendering ends, within as many steps as the template and the
values have pieces and one more for each value. At every moment on the way the chain holds bound
names, each once, no more than the bound allows and no more than there are variables. The variables
whose values have been handed over to be expanded are those on the chain and those in the table,
each once, so that with the template at most one text more is expanded than there are variables. That
is the trace which the expansion keeps of its own texts. What is left to do at that moment leads to
what is rendered. -/
theorem expansion_bounded (r : Renderer) (template : String) (vars : Vars) :
    let moment := momentAfter vars r.maxDepth template
    (∃ result, (moment (work vars template)).step vars r.maxDepth = .ended result ∧
      r.render template vars = r.conclude result) ∧
    (∀ text p, expand vars r.maxDepth template = .ok (text, p) →
      p.handed.length ≤ vars.entries.length + 1) ∧
    ∀ n,
      (moment n).chain.Nodup ∧ (moment n).chain ⊆ vars.keys ∧
      (moment n).chain.length ≤ min r.maxDepth vars.entries.length ∧
      (moment n).entered ⊆ vars.entries ∧ ((moment n).entered.map Prod.fst).Nodup ∧
      ((moment n).entered.map Prod.fst).Perm
        ((moment n).chain ++ (moment n).progress.resolved.map Prod.fst) ∧
      ((moment n).texts template).length ≤ vars.entries.length + 1 ∧
      (moment n).progress.handed = ((moment n).texts template).reverse ∧
      r.render template vars = r.conclude ((moment n).outcome vars r.maxDepth) := by
  intro moment
  have texts (n : Nat) : ((moment n).texts template).length ≤ vars.entries.length + 1 := by
    have sound : (moment n).Sound vars r.maxDepth := sound_momentAfter n
    simpa [Moment.texts] using sound.length_entered_le
  obtain ⟨result, ended⟩ := ended_momentAfter_work vars r.maxDepth template
  have expanded : expand vars r.maxDepth template = result := by
    rw [← outcome_momentAfter vars r.maxDepth template (work vars template),
      ← Moment.outcome_step, ended, Next.outcome]
  refine ⟨⟨result, ended, by rw [render_eq, expanded]⟩, fun text p h => ?_, fun n => ?_⟩
  · obtain rfl : result = .ok (text, p) := expanded.symm.trans h
    rw [Moment.progress_of_ended ended, handed_momentAfter, List.length_reverse]
    exact texts _
  · have sound : (moment n).Sound vars r.maxDepth := sound_momentAfter n
    have short := Nat.le_min.2 ⟨sound.short, sound.length_chain_le⟩
    exact ⟨sound.nodup_chain, sound.chain_subset, short, sound.held, sound.once, sound.accounted,
      texts n, handed_momentAfter n, by rw [render_eq, outcome_momentAfter]⟩

/-- Without the table `c` would be entered eight times. -/
example :
    let vars : Vars := Dict.ofList [("a", "{{b}}{{b}}"), ("b", "{{c}}{{c}}"), ("c", "x")]
    (momentAfter vars 64 "{{a}}{{a}}" (work vars "{{a}}{{a}}")).entered.map Prod.fst =
      ["a", "b", "c"] := by
  decide +kernel

end Renderer
end PromptAssembly.Template
