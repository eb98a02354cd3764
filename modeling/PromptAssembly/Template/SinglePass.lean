import PromptAssembly.Template
import PromptAssembly.Template.Placeholder

/-!
# One pass of substitution

Every placeholder with a bound name becomes its value; all else stays, and no value is looked at
again.
-/
namespace PromptAssembly.Template

def Piece.substitute (vars : Vars) (p : Piece) : List Char :=
  match p.name?.bind vars.get? with
  | some value => value.toList
  | none => p.chars

def substituteOnce (text : String) (vars : Vars) : String :=
  if hasOpening text.toList then
    String.ofList ((pieces text.toList).flatMap (Piece.substitute vars))
  else text

/-- A text without placeholders is what its pieces are. -/
theorem flatMap_substitute_of_no_references {text : String} (vars : Vars)
    (h : references text = []) :
    (pieces text.toList).flatMap (Piece.substitute vars) = text.toList := by
  refine Eq.trans ?_ (flatMap_chars_pieces text.toList)
  rw [List.flatMap_def, List.flatMap_def]
  refine congrArg List.flatten (List.map_congr_left fun p hp => ?_)
  have := List.filterMap_eq_nil_iff.1 h p hp
  simp [Piece.substitute, this]

/-- The short cut for texts without an opening changes nothing. -/
theorem toList_substituteOnce (text : String) (vars : Vars) :
    (substituteOnce text vars).toList = (pieces text.toList).flatMap (Piece.substitute vars) := by
  unfold substituteOnce
  split
  · simp
  · next h =>
    rw [Bool.not_eq_true] at h
    exact (flatMap_substitute_of_no_references vars (filterMap_name?_eq_nil h)).symm

theorem substituteOnce_of_no_references {text : String} (vars : Vars) (h : references text = []) :
    substituteOnce text vars = text :=
  String.toList_inj.1 <| by
    rw [toList_substituteOnce, flatMap_substitute_of_no_references vars h]

end PromptAssembly.Template
