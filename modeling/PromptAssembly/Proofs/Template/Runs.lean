import PromptAssembly.Proofs.Template.Unfolding
import PromptAssembly.Template.Renderer

/-!
# Runs of an expansion

An expansion reads the pieces of a text in order and hands bound placeholders to a resolver. What a
run fails with comes from its resolver (`exists_of_run_expandText_error`), and two runs with
resolvers that follow one another follow one another (`Follows.expandText`). The four ways in which
a variable is resolved are stated one by one.
-/
namespace PromptAssembly.Template
variable {α β : Type}

theorem run_return (a : α) (p : Progress) : (pure a : Expansion α).run p = .ok (a, p) := rfl

theorem run_bind_eq_ok {x : Expansion α} {f : α → Expansion β} {p : Progress} {r : β × Progress} :
    (x >>= f).run p = .ok r ↔ ∃ a q, x.run p = .ok (a, q) ∧ (f a).run q = .ok r := by
  rw [StateT.run_bind]
  rcases x.run p with error | ⟨a, q⟩ <;> simp [bind, Except.bind]

theorem run_bind_eq_error {x : Expansion α} {f : α → Expansion β} {p : Progress} {e : RenderError} :
    (x >>= f).run p = .error e ↔
      x.run p = .error e ∨ ∃ a q, x.run p = .ok (a, q) ∧ (f a).run q = .error e := by
  rw [StateT.run_bind]
  rcases x.run p with error | ⟨a, q⟩ <;> simp [bind, Except.bind]

/-- The pieces one by one, each text in front of the rest. -/
def expandPieces (vars : Vars) (resolve : String → String → Expansion String) :
    List Piece → Expansion String
  | [] => pure ""
  | p :: ps => do
    let text ← expandPiece vars resolve p
    let rest ← expandPieces vars resolve ps
    return text ++ rest

section
variable {vars : Vars} {resolver : String → String → Expansion String}

theorem foldlM_expandPiece (ps : List Piece) (out : String) :
    ps.foldlM (fun out p => return out ++ (← expandPiece vars resolver p)) out =
      (do return out ++ (← expandPieces vars resolver ps)) := by
  induction ps generalizing out with
  | nil => simp [expandPieces]
  | cons p ps ih =>
    simp only [List.foldlM_cons, expandPieces, bind_assoc, pure_bind, ih, String.append_assoc]

theorem expandText_eq (text : String) :
    expandText vars resolver text = (do
      modify (·.hand text)
      expandPieces vars resolver (pieces text.toList)) := by
  rw [expandText, foldlM_expandPiece]
  simp

theorem run_expandText (text : String) (p : Progress) :
    (expandText vars resolver text).run p =
      (expandPieces vars resolver (pieces text.toList)).run (p.hand text) := by
  rw [expandText_eq]
  rfl

theorem run_expandPiece_char (c : Char) (p : Progress) :
    (expandPiece vars resolver (.char c)).run p = .ok (String.ofList (Piece.char c).chars, p) := rfl

theorem run_expandPiece_unbound {name : List Char} (h : vars.get? (String.ofList name) = none)
    (p : Progress) :
    (expandPiece vars resolver (.placeholder name)).run p =
      .ok (String.ofList (Piece.placeholder name).chars, p.note (String.ofList name)) := by
  simp only [expandPiece, Piece.name?, h]
  rfl

theorem expandPiece_bound {name : List Char} {value : String}
    (h : vars.get? (String.ofList name) = some value) :
    expandPiece vars resolver (.placeholder name) = resolver (String.ofList name) value := by
  simp only [expandPiece, Piece.name?, h]

theorem exists_of_run_expandPiece_error {piece : Piece} {p : Progress} {e : RenderError}
    (h : (expandPiece vars resolver piece).run p = .error e) :
    ∃ name value, piece.name? = some name ∧ vars.get? name = some value ∧
      (resolver name value).run p = .error e := by
  cases piece with
  | char c => simp [run_expandPiece_char] at h
  | placeholder name =>
    cases hv : vars.get? (String.ofList name) with
    | none => simp [run_expandPiece_unbound hv] at h
    | some value =>
      rw [expandPiece_bound hv] at h
      exact ⟨_, value, rfl, hv, h⟩

theorem exists_of_run_expandPieces_error {ps : List Piece} {p : Progress} {e : RenderError}
    (h : (expandPieces vars resolver ps).run p = .error e) :
    ∃ piece ∈ ps, ∃ name value q, piece.name? = some name ∧ vars.get? name = some value ∧
      (resolver name value).run q = .error e := by
  induction ps generalizing p with
  | nil => simp only [expandPieces, run_return, reduceCtorEq] at h
  | cons piece ps ih =>
    rcases run_bind_eq_error.1 h with h | ⟨text, q, _, h⟩
    · obtain ⟨name, value, hname, hv, he⟩ := exists_of_run_expandPiece_error h
      exact ⟨piece, by simp, name, value, p, hname, hv, he⟩
    · rcases run_bind_eq_error.1 h with h | ⟨rest, q', _, h⟩
      · obtain ⟨piece', hmem, found⟩ := ih h
        exact ⟨piece', by simp [hmem], found⟩
      · simp only [run_return, reduceCtorEq] at h

theorem exists_of_run_expandText_error {text : String} {p : Progress} {e : RenderError}
    (h : (expandText vars resolver text).run p = .error e) :
    ∃ name ∈ references text, ∃ value q, vars.get? name = some value ∧
      (resolver name value).run q = .error e := by
  rw [run_expandText] at h
  obtain ⟨piece, hp, name, value, q, hname, hv, he⟩ := exists_of_run_expandPieces_error h
  exact ⟨name, mem_references.2 ⟨piece, hp, hname⟩, value, q, hv, he⟩

theorem exists_of_run_expandText_ok {text name value : String} {p : Progress}
    {r : String × Progress} (h : (expandText vars resolver text).run p = .ok r)
    (hname : name ∈ references text) (hv : vars.get? name = some value) :
    ∃ q r', (resolver name value).run q = .ok r' := by
  rw [run_expandText] at h
  obtain ⟨piece, hp, hname⟩ := mem_references.1 hname
  revert h
  generalize p.hand text = p
  generalize pieces text.toList = ps at hp
  intro h
  induction ps generalizing p r with
  | nil => simp at hp
  | cons first ps ih =>
    obtain ⟨out, q, hfirst, h⟩ := run_bind_eq_ok.1 h
    obtain ⟨rest, q', hrest, _⟩ := run_bind_eq_ok.1 h
    rcases List.mem_cons.1 hp with rfl | hp
    · cases piece with
      | char c => simp [Piece.name?] at hname
      | placeholder chars =>
        obtain rfl := Option.some.inj hname
        rw [expandPiece_bound hv] at hfirst
        exact ⟨p, (out, q), hfirst⟩
    · exact ih _ hp hrest

theorem run_expandText_of_no_references {text : String} (h : references text = []) (p : Progress) :
    (expandText vars resolver text).run p = .ok (text, p.hand text) := by
  have chars (p : Progress) : ∀ ps : List Piece, ps.filterMap Piece.name? = [] →
      (expandPieces vars resolver ps).run p = .ok (String.ofList (ps.flatMap Piece.chars), p) := by
    intro ps hps
    induction ps with
    | nil => rfl
    | cons piece ps ih =>
      cases piece with
      | char c =>
        have rest := ih (by simpa [Piece.name?] using hps)
        refine run_bind_eq_ok.2 ⟨_, p, run_expandPiece_char c p, ?_⟩
        refine run_bind_eq_ok.2 ⟨_, p, rest, ?_⟩
        rw [run_return, ← String.ofList_append, List.flatMap_cons]
      | placeholder name => simp [Piece.name?] at hps
  rw [run_expandText, chars _ _ h, flatMap_chars_pieces, String.ofList_toList]

end

/-- The second outcome has the text or the error of the first, unless that is an excused error. -/
inductive Follows (R : Progress → Progress → Prop) (excused : RenderError → Prop) :
    Except RenderError (α × Progress) → Except RenderError (α × Progress) → Prop
  | ok {a : α} {q p : Progress} (h : R q p) : Follows R excused (.ok (a, q)) (.ok (a, p))
  | error {e : RenderError} : Follows R excused (.error e) (.error e)
  | excused {e : RenderError} {other : Except RenderError (α × Progress)} (h : excused e) :
      Follows R excused (.error e) other

namespace Follows
variable {R : Progress → Progress → Prop} {excused : RenderError → Prop} {p q : Progress}

theorem bind {x y : Expansion α} {f g : α → Expansion β}
    (h : Follows R excused (x.run q) (y.run p))
    (next : ∀ a q' p', y.run p = .ok (a, p') → R q' p' →
      Follows R excused ((f a).run q') ((g a).run p')) :
    Follows R excused ((x >>= f).run q) ((y >>= g).run p) := by
  rw [StateT.run_bind, StateT.run_bind]
  revert h next
  generalize x.run q = first
  generalize y.run p = second
  intro h next
  cases h with
  | ok h => exact next _ _ _ rfl h
  | error => exact .error
  | excused h => exact .excused h

section
variable {vars vars' : Vars} {first second : String → String → Expansion String}

theorem expandPieces {ps : List Piece} (hR : R q p)
    (agree : ∀ piece ∈ ps, ∀ name, piece.name? = some name → vars.get? name = vars'.get? name)
    (note : ∀ q p name, R q p → R (q.note name) (p.note name))
    (resolve : ∀ piece ∈ ps, ∀ name, piece.name? = some name → ∀ value,
      vars.get? name = some value → ∀ q p, R q p →
        Follows R excused ((first name value).run q) ((second name value).run p)) :
    Follows R excused ((Template.expandPieces vars first ps).run q)
      ((Template.expandPieces vars' second ps).run p) := by
  induction ps generalizing q p with
  | nil => exact .ok hR
  | cons piece ps ih =>
    obtain ⟨agree, agreeRest⟩ := List.forall_mem_cons.1 agree
    obtain ⟨resolve, resolveRest⟩ := List.forall_mem_cons.1 resolve
    have head : Follows R excused ((expandPiece vars first piece).run q)
        ((expandPiece vars' second piece).run p) := by
      cases piece with
      | char c => exact .ok hR
      | placeholder chars =>
        cases hv : vars.get? (String.ofList chars) with
        | none =>
          rw [run_expandPiece_unbound hv, run_expandPiece_unbound ((agree _ rfl).symm.trans hv)]
          exact .ok (note _ _ _ hR)
        | some value =>
          rw [expandPiece_bound hv, expandPiece_bound ((agree _ rfl).symm.trans hv)]
          exact resolve _ rfl value hv q p hR
    refine head.bind fun out q p _ hR => ?_
    refine (ih hR agreeRest resolveRest).bind fun rest q p _ hR => ?_
    exact .ok hR

theorem expandText {text : String} (hR : R (q.hand text) (p.hand text))
    (agree : ∀ name ∈ references text, vars.get? name = vars'.get? name)
    (note : ∀ q p name, R q p → R (q.note name) (p.note name))
    (resolve : ∀ name ∈ references text, ∀ value, vars.get? name = some value → ∀ q p, R q p →
      Follows R excused ((first name value).run q) ((second name value).run p)) :
    Follows R excused ((Template.expandText vars first text).run q)
      ((Template.expandText vars' second text).run p) := by
  rw [run_expandText, run_expandText]
  have mentioned : ∀ piece ∈ pieces text.toList, ∀ name, piece.name? = some name →
      name ∈ references text := fun piece hp name hname => mem_references.2 ⟨piece, hp, hname⟩
  exact expandPieces hR (fun piece hp name hname => agree name (mentioned piece hp name hname))
    note fun piece hp name hname => resolve name (mentioned piece hp name hname)

end

end Follows

section
variable {vars : Vars} {maxDepth remaining : Nat} {chain : List String} {name value text : String}
  {p : Progress}

theorem run_resolve_of_lookup (h : p.resolved.lookup name = some text) :
    (resolve vars maxDepth remaining chain name value).run p = .ok (text, p) := by
  unfold resolve
  refine run_bind_eq_ok.2 ⟨p, p, rfl, ?_⟩
  simp only [h, run_return]

theorem run_resolve_of_mem (h : p.resolved.lookup name = none) (hc : name ∈ chain) :
    (resolve vars maxDepth remaining chain name value).run p =
      .error (.circularReference (chain ++ [name])) := by
  unfold resolve
  refine run_bind_eq_error.2 (.inr ⟨p, p, rfl, ?_⟩)
  simp only [h, hc, if_true]
  rfl

theorem run_resolve_zero (h : p.resolved.lookup name = none) (hc : name ∉ chain) :
    (resolve vars maxDepth 0 chain name value).run p = .error (.depthExceeded name maxDepth) := by
  unfold resolve
  refine run_bind_eq_error.2 (.inr ⟨p, p, rfl, ?_⟩)
  simp only [h, hc, if_false]
  rfl

theorem run_resolve_succ (h : p.resolved.lookup name = none) (hc : name ∉ chain) :
    (resolve vars maxDepth (remaining + 1) chain name value).run p =
      (do
        let text ← expandText vars (resolve vars maxDepth remaining (chain ++ [name])) value
        modify (Progress.remember · name text)
        return text : Expansion String).run p := by
  conv => lhs; unfold resolve
  simp [h, hc]

/-- A variable is resolved by the table, or by expanding its value below the longer chain. -/
theorem run_resolve_ok_cases {q : Progress}
    (h : (resolve vars maxDepth remaining chain name value).run p = .ok (text, q)) :
    (p.resolved.lookup name = some text ∧ q = p) ∨
      ∃ less q', remaining = less + 1 ∧ name ∉ chain ∧
        (expandText vars (resolve vars maxDepth less (chain ++ [name])) value).run p =
          .ok (text, q') ∧ q = q'.remember name text := by
  cases hl : p.resolved.lookup name with
  | some known =>
    rw [run_resolve_of_lookup hl, Except.ok.injEq, Prod.mk.injEq] at h
    obtain ⟨rfl, rfl⟩ := h
    exact .inl ⟨rfl, rfl⟩
  | none =>
    by_cases hc : name ∈ chain
    · simp [run_resolve_of_mem hl hc] at h
    cases remaining with
    | zero => simp [run_resolve_zero hl hc] at h
    | succ less =>
      rw [run_resolve_succ hl hc] at h
      obtain ⟨out, q', hrun, h⟩ := run_bind_eq_ok.1 h
      cases h
      exact .inr ⟨less, q', rfl, hc, hrun, rfl⟩

/-- A variable is not resolved if it is on the chain, the chain is full, or its value fails. -/
theorem run_resolve_error_cases {e : RenderError}
    (h : (resolve vars maxDepth remaining chain name value).run p = .error e) :
    (name ∈ chain ∧ e = .circularReference (chain ++ [name])) ∨
      (name ∉ chain ∧ remaining = 0 ∧ e = .depthExceeded name maxDepth) ∨
      ∃ less, name ∉ chain ∧ remaining = less + 1 ∧
        (expandText vars (resolve vars maxDepth less (chain ++ [name])) value).run p =
          .error e := by
  cases hl : p.resolved.lookup name with
  | some known => simp [run_resolve_of_lookup hl] at h
  | none =>
    by_cases hc : name ∈ chain
    · rw [run_resolve_of_mem hl hc, Except.error.injEq] at h
      exact .inl ⟨hc, h.symm⟩
    cases remaining with
    | zero =>
      rw [run_resolve_zero hl hc, Except.error.injEq] at h
      exact .inr (.inl ⟨hc, rfl, h.symm⟩)
    | succ less =>
      rw [run_resolve_succ hl hc] at h
      rcases run_bind_eq_error.1 h with hrun | ⟨_, _, _, h⟩
      · exact .inr (.inr ⟨less, hc, rfl, hrun⟩)
      · cases h

end
end PromptAssembly.Template
