import PromptAssembly.Proofs.Template.Runs

/-!
# The table of expanded variables

Every entry of the table is a full expansion, and the unbound names that it holds have been noted. A
run that starts from such a table yields a full expansion and leaves such a table behind
(`unfolds_resolve`).
-/
namespace PromptAssembly.Template

/-- Names noted one after the other, each where it is met first. -/
def noteAll (known names : List String) : List String :=
  names.foldl (fun known name => if name ∈ known then known else known ++ [name]) known

theorem noteAll_append (known names more : List String) :
    noteAll known (names ++ more) = noteAll (noteAll known names) more :=
  List.foldl_append

theorem mem_noteAll {known names : List String} {x : String} :
    x ∈ noteAll known names ↔ x ∈ known ∨ x ∈ names := by
  induction names generalizing known with
  | nil => simp [noteAll]
  | cons name names ih =>
    rw [← List.singleton_append, noteAll_append, ih]
    by_cases h : name ∈ known <;> grind [noteAll]

theorem noteAll_of_subset {known names : List String} (h : names ⊆ known) :
    noteAll known names = known := by
  induction names with
  | nil => rfl
  | cons name names ih =>
    obtain ⟨hname, hrest⟩ := List.cons_subset.1 h
    simpa [noteAll, hname] using ih hrest

namespace Progress

theorem unresolved_note (p : Progress) (name : String) :
    (p.note name).unresolved = noteAll p.unresolved [name] := by
  by_cases h : name ∈ p.unresolved <;> simp [note, noteAll, h]

theorem resolved_note (p : Progress) (name : String) : (p.note name).resolved = p.resolved := by
  by_cases h : name ∈ p.unresolved <;> simp [note, h]

theorem handed_note (p : Progress) (name : String) : (p.note name).handed = p.handed := by
  by_cases h : name ∈ p.unresolved <;> simp [note, h]

/-- What the table holds is fully expanded, and its unbound names are noted. -/
def Faithful (vars : Vars) (p : Progress) : Prop :=
  ∀ name text, p.resolved.lookup name = some text → ∃ value missing,
    vars.get? name = some value ∧ Expands vars (pieces value.toList) text missing ∧
      missing ⊆ p.unresolved

variable {vars : Vars} {p q : Progress}

theorem faithful_of_resolved_eq_nil (h : p.resolved = []) : p.Faithful vars := by
  intro name text hl
  simp [h] at hl

theorem Faithful.hand (h : p.Faithful vars) (text : String) : (p.hand text).Faithful vars := h

theorem Faithful.note (h : p.Faithful vars) (name : String) : (p.note name).Faithful vars := by
  intro x text hl
  rw [resolved_note] at hl
  obtain ⟨value, missing, hv, hx, hsub⟩ := h x text hl
  refine ⟨value, missing, hv, hx, fun y hy => ?_⟩
  rw [unresolved_note]
  exact mem_noteAll.2 (.inl (hsub hy))

theorem Faithful.remember {name value text : String} {missing : List String} (h : p.Faithful vars)
    (hv : vars.get? name = some value) (hx : Expands vars (pieces value.toList) text missing)
    (hsub : missing ⊆ p.unresolved) : (p.remember name text).Faithful vars := by
  intro x u hl
  rw [Progress.remember, List.lookup_cons] at hl
  split at hl
  · next heq =>
    obtain rfl := Option.some.inj hl
    exact ⟨value, missing, by rwa [beq_iff_eq.1 heq], hx, hsub⟩
  · exact h x u hl

theorem Faithful.known {name value text : String} (h : p.Faithful vars)
    (hv : vars.get? name = some value) (hl : p.resolved.lookup name = some text) : ∃ missing,
      Expands vars (pieces value.toList) text missing ∧
        p.unresolved = noteAll p.unresolved missing ∧ p.Faithful vars := by
  obtain ⟨u, missing, hu, hx, hsub⟩ := h name text hl
  obtain rfl := Option.some.inj (hv.symm.trans hu)
  exact ⟨missing, hx, (noteAll_of_subset hsub).symm, h⟩

end Progress

/-- Successful runs of the resolver expand to the end and keep the table faithful. -/
def Unfolds (vars : Vars) (resolver : String → String → Expansion String) : Prop :=
  ∀ name value p text q, vars.get? name = some value → p.Faithful vars →
    (resolver name value).run p = .ok (text, q) → ∃ missing,
      Expands vars (pieces value.toList) text missing ∧
        q.unresolved = noteAll p.unresolved missing ∧ q.Faithful vars

variable {vars : Vars} {resolver : String → String → Expansion String} {p q : Progress}
  {out text : String}

theorem Unfolds.expandPieces (h : Unfolds vars resolver) {ps : List Piece} (hp : p.Faithful vars)
    (hrun : (Template.expandPieces vars resolver ps).run p = .ok (out, q)) : ∃ missing,
      Expands vars ps out missing ∧ q.unresolved = noteAll p.unresolved missing ∧
        q.Faithful vars := by
  induction ps generalizing p out with
  | nil =>
    rw [Template.expandPieces, run_return, Except.ok.injEq, Prod.mk.injEq] at hrun
    obtain ⟨rfl, rfl⟩ := hrun
    exact ⟨[], .nil, rfl, hp⟩
  | cons piece ps ih =>
    obtain ⟨head, p', hhead, hrun⟩ := run_bind_eq_ok.1 hrun
    obtain ⟨rest, q', hrest, hrun⟩ := run_bind_eq_ok.1 hrun
    rw [run_return, Except.ok.injEq, Prod.mk.injEq] at hrun
    obtain ⟨rfl, rfl⟩ := hrun
    cases piece with
    | char c =>
      rw [run_expandPiece_char, Except.ok.injEq, Prod.mk.injEq] at hhead
      obtain ⟨rfl, rfl⟩ := hhead
      obtain ⟨missing, hx, hnoted, hq⟩ := ih hp hrest
      exact ⟨missing, .char hx, hnoted, hq⟩
    | placeholder name =>
      cases hv : vars.get? (String.ofList name) with
      | none =>
        rw [run_expandPiece_unbound hv, Except.ok.injEq, Prod.mk.injEq] at hhead
        obtain ⟨rfl, rfl⟩ := hhead
        obtain ⟨missing, hx, hnoted, hq⟩ := ih (hp.note _) hrest
        refine ⟨_, .unbound hv hx, ?_, hq⟩
        rw [hnoted, Progress.unresolved_note, ← noteAll_append, List.singleton_append]
      | some value =>
        rw [expandPiece_bound hv] at hhead
        obtain ⟨missing, hinner, hnoted, hp'⟩ := h _ _ _ _ _ hv hp hhead
        obtain ⟨more, hx, hnoted', hq⟩ := ih hp' hrest
        exact ⟨_, .bound hv hinner hx, by rw [hnoted', hnoted, noteAll_append], hq⟩

theorem Unfolds.expandText (h : Unfolds vars resolver) (hp : p.Faithful vars)
    (hrun : (Template.expandText vars resolver text).run p = .ok (out, q)) : ∃ missing,
      Expands vars (pieces text.toList) out missing ∧
        q.unresolved = noteAll p.unresolved missing ∧ q.Faithful vars :=
  h.expandPieces (p := p.hand text) (hp.hand text) (by rwa [← run_expandText])

theorem unfolds_resolve (maxDepth remaining : Nat) (chain : List String) :
    Unfolds vars (resolve vars maxDepth remaining chain) := by
  induction remaining generalizing chain with
  | zero =>
    intro name value p text q hv hp hrun
    rcases run_resolve_ok_cases hrun with ⟨hl, rfl⟩ | ⟨_, _, hr, _⟩
    · exact hp.known hv hl
    · omega
  | succ remaining ih =>
    intro name value p text q hv hp hrun
    rcases run_resolve_ok_cases hrun with ⟨hl, rfl⟩ | ⟨less, q', hr, _, hvalue, rfl⟩
    · exact hp.known hv hl
    · obtain rfl := Nat.succ.inj hr
      obtain ⟨missing, hx, hnoted, hq'⟩ := (ih (chain ++ [name])).expandText hp hvalue
      refine ⟨missing, hx, hnoted, hq'.remember hv hx fun y hy => ?_⟩
      rw [hnoted]
      exact mem_noteAll.2 (.inr hy)

/-- What is expanded without error is expanded to the end, and the unbound names are noted in the
order in which they are met. -/
theorem expands_of_expand {maxDepth : Nat} (h : expand vars maxDepth text = .ok (out, q)) :
    ∃ missing, Expands vars (pieces text.toList) out missing ∧
      q.unresolved = noteAll [] missing := by
  obtain ⟨missing, hx, hnoted, _⟩ := (unfolds_resolve maxDepth maxDepth []).expandText
    (Progress.faithful_of_resolved_eq_nil rfl) h
  exact ⟨missing, hx, hnoted⟩

end PromptAssembly.Template
