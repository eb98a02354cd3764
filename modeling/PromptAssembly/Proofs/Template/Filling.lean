import PromptAssembly.Proofs.Template.Table

/-!
# What the table holds

An expansion that ends without error leaves a table with an entry for every bound variable that can
be reached from its text, and for no other (`holds_iff_of_expand`). A run that starts from a table
adds what its text leads to, so that a variable is never in the table without those that its value
leads to (`Progress.Closed`).
-/
namespace PromptAssembly.Template
open Relation (ReflTransGen)

variable {vars : Vars} {text value : String} {x y name : String}

theorem reachable_iff : Reachable vars text x ↔
    ∃ y ∈ references text, ReflTransGen (Refers vars) y x := by
  constructor
  · intro h
    induction h with
    | mentioned h => exact ⟨_, h, .refl⟩
    | step _ refers ih =>
      obtain ⟨y, hy, leads⟩ := ih
      exact ⟨y, hy, leads.tail refers⟩
  · rintro ⟨y, hy, leads⟩
    induction leads with
    | refl => exact .mentioned hy
    | tail _ refers ih => exact .step ih refers

theorem Refers.contains (h : Refers vars x y) : vars.contains x := by
  obtain ⟨value, hv, _⟩ := h
  exact Dict.contains_iff.2 ⟨value, hv⟩

theorem leads_iff_of_bound (hv : vars.get? name = some value) :
    ReflTransGen (Refers vars) name x ↔
      x = name ∨ ∃ y ∈ references value, ReflTransGen (Refers vars) y x := by
  have refers : ∀ y, Refers vars name y ↔ y ∈ references value := by
    intro y
    simp [Refers, hv]
  rw [ReflTransGen.cases_head_iff, eq_comm]
  simp only [refers]

theorem eq_of_leads_of_unbound (free : vars.get? name = none)
    (h : ReflTransGen (Refers vars) name x) : x = name := by
  rcases ReflTransGen.cases_head_iff.1 h with rfl | ⟨y, refers, _⟩
  · rfl
  · obtain ⟨value, hv, _⟩ := refers
    simp [free] at hv

namespace Progress
variable {p q r : Progress} {names more : List String}

def Holds (p : Progress) (name : String) : Prop := ∃ text, p.resolved.lookup name = some text

@[simp] theorem holds_hand {text : String} : (p.hand text).Holds x ↔ p.Holds x := Iff.rfl

@[simp] theorem holds_note : (p.note name).Holds x ↔ p.Holds x := by
  simp [Holds, resolved_note]

@[simp] theorem holds_remember : (p.remember name text).Holds x ↔ x = name ∨ p.Holds x := by
  by_cases h : x = name <;> simp [Holds, remember, Dict.lookup_entry, h]

theorem lookup_eq_none_of_not_holds (h : ¬ p.Holds name) : p.resolved.lookup name = none := by
  cases hl : p.resolved.lookup name with
  | none => rfl
  | some text => exact absurd ⟨text, hl⟩ h

/-- With a variable the table has the bound ones that its value mentions. -/
def Closed (vars : Vars) (p : Progress) : Prop :=
  ∀ x y, p.Holds x → Refers vars x y → vars.contains y → p.Holds y

theorem closed_of_resolved_eq_nil (h : p.resolved = []) : p.Closed vars := by
  intro x y held
  obtain ⟨text, hl⟩ := held
  simp [h] at hl

theorem Closed.hand (closed : p.Closed vars) (text : String) : (p.hand text).Closed vars := closed

theorem Closed.note (closed : p.Closed vars) (name : String) : (p.note name).Closed vars := by
  simpa [Closed] using closed

theorem Closed.holds (closed : p.Closed vars) (held : p.Holds y)
    (leads : ReflTransGen (Refers vars) y x) (bound : vars.contains x) : p.Holds x := by
  induction leads with
  | refl => exact held
  | tail _ refers ih => exact closed _ _ (ih refers.contains) refers bound

/-- The second table has the entries of the first, and beside them all bound variables to which the
names lead. -/
def Fills (vars : Vars) (names : List String) (p q : Progress) : Prop :=
  ∀ x, q.Holds x ↔
    p.Holds x ∨ vars.contains x ∧ ∃ y ∈ names, ReflTransGen (Refers vars) y x

namespace Fills

theorem refl (vars : Vars) (p : Progress) : Fills vars [] p p := by
  intro x
  simp

theorem trans (h : Fills vars names p q) (h' : Fills vars more q r) :
    Fills vars (names ++ more) p r := by
  intro x
  rw [h' x, h x, or_assoc, ← and_or_left]
  simp only [List.mem_append, or_and_right, exists_or]

theorem note (free : vars.get? name = none) (p : Progress) :
    Fills vars [name] p (p.note name) := by
  intro x
  rw [holds_note]
  refine ⟨.inl, fun h => ?_⟩
  rcases h with held | ⟨bound, y, hy, leads⟩
  · exact held
  · obtain rfl := List.mem_singleton.1 hy
    obtain rfl := eq_of_leads_of_unbound free leads
    simp [Dict.contains, free] at bound

theorem of_holds (closed : p.Closed vars) (held : p.Holds name) : Fills vars [name] p p := by
  refine fun x => ⟨.inl, fun h => ?_⟩
  rcases h with held | ⟨bound, y, hy, leads⟩
  · exact held
  · obtain rfl := List.mem_singleton.1 hy
    exact closed.holds held leads bound

theorem remember (hv : vars.get? name = some value) (h : Fills vars (references value) p q)
    (text : String) : Fills vars [name] p (q.remember name text) := by
  intro x
  have bound : vars.contains name := Dict.contains_iff.2 ⟨value, hv⟩
  rw [holds_remember, h x]
  simp only [List.mem_singleton, exists_eq_left, leads_iff_of_bound hv]
  by_cases same : x = name
  · simp [same, bound]
  · simp [same]

theorem closed (h : Fills vars names p q) (closed : p.Closed vars) : q.Closed vars := by
  intro x y held refers bound
  rcases (h x).1 held with held | ⟨_, z, hz, leads⟩
  · exact (h y).2 (.inl (closed x y held refers bound))
  · exact (h y).2 (.inr ⟨bound, z, hz, leads.tail refers⟩)

end Fills
end Progress

/-- Successful runs of the resolver fill the table with what their variable leads to. -/
def Completes (vars : Vars) (resolver : String → String → Expansion String) : Prop :=
  ∀ name value p text q, vars.get? name = some value → p.Closed vars →
    (resolver name value).run p = .ok (text, q) → Progress.Fills vars [name] p q

variable {resolver : String → String → Expansion String} {p q : Progress} {out : String}

theorem Completes.expandPieces (h : Completes vars resolver) {ps : List Piece}
    (closed : p.Closed vars)
    (hrun : (Template.expandPieces vars resolver ps).run p = .ok (out, q)) :
    Progress.Fills vars (ps.filterMap Piece.name?) p q := by
  induction ps generalizing p out with
  | nil =>
    cases hrun
    exact .refl vars _
  | cons piece ps ih =>
    obtain ⟨head, p', hhead, hrun⟩ := run_bind_eq_ok.1 hrun
    obtain ⟨rest, q', hrest, hrun⟩ := run_bind_eq_ok.1 hrun
    cases hrun
    cases piece with
    | char c =>
      cases hhead
      exact ih closed hrest
    | placeholder chars =>
      have first : Progress.Fills vars [String.ofList chars] p p' := by
        cases hv : vars.get? (String.ofList chars) with
        | none =>
          rw [run_expandPiece_unbound hv] at hhead
          cases hhead
          exact .note hv p
        | some value =>
          rw [expandPiece_bound hv] at hhead
          exact h _ _ _ _ _ hv closed hhead
      exact first.trans (ih (first.closed closed) hrest)

theorem completes_resolve (maxDepth remaining : Nat) (chain : List String) :
    Completes vars (resolve vars maxDepth remaining chain) := by
  induction remaining using Nat.strongRecOn generalizing chain with
  | ind remaining ih =>
    intro name value p text q hv closed hrun
    rcases run_resolve_ok_cases hrun with ⟨hl, rfl⟩ | ⟨less, q', rfl, _, hvalue, rfl⟩
    · exact .of_holds closed ⟨text, hl⟩
    · rw [run_expandText] at hvalue
      have filled := (ih less (Nat.lt_succ_self less) _).expandPieces (closed.hand value) hvalue
      exact .remember hv filled text

theorem holds_iff_of_expand {maxDepth : Nat} (h : expand vars maxDepth text = .ok (out, p)) :
    p.Holds x ↔ vars.contains x ∧ Reachable vars text x := by
  have start : ¬ (Progress.hand {} text).Holds x := by simp [Progress.Holds]
  have closed : (Progress.hand {} text).Closed vars := Progress.closed_of_resolved_eq_nil rfl
  rw [expand, run_expandText] at h
  rw [(completes_resolve maxDepth maxDepth []).expandPieces closed h x, reachable_iff]
  simp [start, references]

end PromptAssembly.Template
