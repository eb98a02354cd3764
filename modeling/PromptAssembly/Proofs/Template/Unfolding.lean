import PromptAssembly.Proofs.Template.References

/-!
# Full expansions

What a text expands to, said without chain, bound or table: every bound placeholder is replaced by
what its value expands to, and nothing that was put in is read again. A text has at most one
expansion (`Expands.unique`), and none if a cycle is reachable from it (`Expands.acyclic`).
-/
namespace PromptAssembly.Template
open Relation (TransGen)

/-- The names are those of the unbound placeholders, in the order in which they are met. -/
inductive Expands (vars : Vars) : List Piece → String → List String → Prop
  | nil : Expands vars [] "" []
  | char {c : Char} {ps : List Piece} {out : String} {missing : List String}
      (rest : Expands vars ps out missing) :
      Expands vars (.char c :: ps) (String.ofList (Piece.char c).chars ++ out) missing
  | unbound {name : List Char} {ps : List Piece} {out : String} {missing : List String}
      (free : vars.get? (String.ofList name) = none) (rest : Expands vars ps out missing) :
      Expands vars (.placeholder name :: ps)
        (String.ofList (Piece.placeholder name).chars ++ out) (String.ofList name :: missing)
  | bound {name : List Char} {value : String} {ps : List Piece} {text out : String}
      {missing more : List String} (held : vars.get? (String.ofList name) = some value)
      (inner : Expands vars (pieces value.toList) text missing)
      (rest : Expands vars ps out more) :
      Expands vars (.placeholder name :: ps) (text ++ out) (missing ++ more)

/-- The text with every bound placeholder expanded to the end. -/
def IsExpansion (vars : Vars) (text out : String) : Prop :=
  ∃ missing, Expands vars (pieces text.toList) out missing

variable {vars : Vars}

theorem mem_references {text name : String} :
    name ∈ references text ↔ ∃ p ∈ pieces text.toList, p.name? = some name :=
  List.mem_filterMap

namespace Expands
variable {ps : List Piece} {out out' : String} {missing missing' : List String}

theorem unique (h : Expands vars ps out missing) (h' : Expands vars ps out' missing') :
    out = out' ∧ missing = missing' := by
  induction h generalizing out' missing' with
  | nil =>
    cases h'
    exact ⟨rfl, rfl⟩
  | char _ ih =>
    cases h' with
    | char rest =>
      obtain ⟨rfl, rfl⟩ := ih rest
      exact ⟨rfl, rfl⟩
  | unbound free _ ih =>
    cases h' with
    | unbound _ rest =>
      obtain ⟨rfl, rfl⟩ := ih rest
      exact ⟨rfl, rfl⟩
    | bound held => simp [free] at held
  | bound held _ _ ihInner ihRest =>
    cases h' with
    | unbound free => simp [held] at free
    | bound held' inner rest =>
      obtain rfl := Option.some.inj (held.symm.trans held')
      obtain ⟨rfl, rfl⟩ := ihInner inner
      obtain ⟨rfl, rfl⟩ := ihRest rest
      exact ⟨rfl, rfl⟩

theorem acc_of_mem (h : Expands vars ps out missing) :
    ∀ p ∈ ps, ∀ name, p.name? = some name → Acc (flip (Refers vars)) name := by
  induction h with
  | nil => simp
  | char _ ih =>
    intro p hp name hname
    rcases List.mem_cons.1 hp with rfl | hp
    · simp [Piece.name?] at hname
    · exact ih p hp name hname
  | unbound free _ ih =>
    intro p hp name hname
    rcases List.mem_cons.1 hp with rfl | hp
    · refine .intro _ fun y hy => ?_
      obtain ⟨value, hv, _⟩ := hy
      obtain rfl := Option.some.inj hname
      simp [free] at hv
    · exact ih p hp name hname
  | bound held _ _ ihInner ihRest =>
    intro p hp name hname
    rcases List.mem_cons.1 hp with rfl | hp
    · obtain rfl := Option.some.inj hname
      refine acc_of_value held fun y hy => ?_
      obtain ⟨q, hq, hqname⟩ := mem_references.1 hy
      exact ihInner q hq y hqname
    · exact ihRest p hp name hname

theorem acc {text : String} (h : Expands vars (pieces text.toList) out missing) :
    ∀ y ∈ references text, Acc (flip (Refers vars)) y := by
  intro y hy
  obtain ⟨p, hp, hname⟩ := mem_references.1 hy
  exact h.acc_of_mem p hp y hname

theorem acyclic {text : String} (h : Expands vars (pieces text.toList) out missing) :
    Acyclic vars text :=
  acyclic_of_acc h.acc

end Expands
end PromptAssembly.Template
