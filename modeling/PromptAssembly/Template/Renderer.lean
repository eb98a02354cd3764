import PromptAssembly.Template
import PromptAssembly.Template.Placeholder

/-!
# Rendering

A bound placeholder is replaced by the expansion of its value. The variables whose values are being
expanded form a chain: a name met again on its own chain is a circular reference, and a chain may
not grow past the depth bound. Every variable is expanded once and then looked up. A lenient renderer
leaves unbound placeholders in the text; a strict one reports them, once the rest has been expanded
without error.
-/
namespace PromptAssembly.Template

structure Progress where
  resolved : List (String × String) := []
  unresolved : List String := []
  /-- The texts handed over to be expanded, the last first. Nothing depends on them. -/
  handed : List String := []
  deriving DecidableEq, Repr

def Progress.note (p : Progress) (name : String) : Progress :=
  if name ∈ p.unresolved then p else { p with unresolved := p.unresolved ++ [name] }

def Progress.remember (p : Progress) (name text : String) : Progress :=
  { p with resolved := (name, text) :: p.resolved }

def Progress.hand (p : Progress) (text : String) : Progress := { p with handed := text :: p.handed }

@[simp] theorem Progress.resolved_hand (p : Progress) (text : String) :
    (p.hand text).resolved = p.resolved := rfl

@[simp] theorem Progress.unresolved_hand (p : Progress) (text : String) :
    (p.hand text).unresolved = p.unresolved := rfl

abbrev Expansion := StateT Progress (Except RenderError)

/-- The text of one piece, where `resolve` expands a bound variable from its name and value. -/
def expandPiece (vars : Vars) (resolve : String → String → Expansion String) (p : Piece) :
    Expansion String :=
  match p.name? with
  | none => pure (String.ofList p.chars)
  | some name =>
    match vars.get? name with
    | some value => resolve name value
    | none => do
      modify (·.note name)
      pure (String.ofList p.chars)

def expandText (vars : Vars) (resolve : String → String → Expansion String) (text : String) :
    Expansion String := do
  modify (·.hand text)
  (pieces text.toList).foldlM (fun out p => return out ++ (← expandPiece vars resolve p)) ""

/-- Expands a variable below `chain`, on which `remaining` more names fit. -/
def resolve (vars : Vars) (maxDepth : Nat) (remaining : Nat) (chain : List String)
    (name value : String) : Expansion String := do
  match (← get).resolved.lookup name with
  | some text => return text
  | none =>
    if name ∈ chain then throw (.circularReference (chain ++ [name]))
    match remaining with
    | 0 => throw (.depthExceeded name maxDepth)
    | remaining + 1 =>
      let text ← expandText vars (resolve vars maxDepth remaining (chain ++ [name])) value
      modify (·.remember name text)
      return text

def expand (vars : Vars) (maxDepth : Nat) (template : String) :
    Except RenderError (String × Progress) :=
  (expandText vars (resolve vars maxDepth maxDepth []) template).run {}

structure Renderer where
  maxDepth : Nat := 64
  strict : Bool := false
  maxDepth_pos : 0 < maxDepth := by decide
  deriving DecidableEq, Repr

namespace Renderer

/-- A bound of zero counts as one. -/
def withMaxDepth (r : Renderer) (maxDepth : Nat) : Renderer :=
  { r with maxDepth := max maxDepth 1, maxDepth_pos := by omega }

def withStrict (r : Renderer) (strict : Bool) : Renderer := { r with strict := strict }

def render (r : Renderer) (template : String) (vars : Vars) : Except RenderError String :=
  if hasOpening template.toList then do
    let (text, progress) ← expand vars r.maxDepth template
    if r.strict && !progress.unresolved.isEmpty then
      throw (.unresolvedPlaceholders progress.unresolved)
    return text
  else return template

end Renderer

def checkRequired (required : List String) (vars : Vars) : Except RenderError Unit :=
  match missingVars required vars with
  | [] => .ok ()
  | missing => .error (.missingRequired missing)

end PromptAssembly.Template
