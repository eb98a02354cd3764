import PromptAssembly.Dict

/-!
# Templates

The variables that a template may mention, and what can go wrong when it is rendered.
-/
namespace PromptAssembly.Template

inductive RenderError where
  | missingRequired (names : List String)
  /-- The variables being expanded, outermost first, and last the one met again. -/
  | circularReference (chain : List String)
  | depthExceeded (name : String) (maxDepth : Nat)
  | unresolvedPlaceholders (names : List String)
  deriving DecidableEq, Repr

def RenderError.message : RenderError → String
  | .missingRequired names => "missing required variables: " ++ ", ".intercalate names
  | .circularReference chain => "circular variable reference: " ++ " -> ".intercalate chain
  | .depthExceeded name maxDepth =>
    s!"variable '{name}' nests deeper than the maximum depth of {maxDepth}"
  | .unresolvedPlaceholders names =>
    "unresolved template placeholders: " ++ ", ".intercalate names

/-- Values of the variables a template may mention. -/
abbrev Vars := Dict String

/-- Later maps win. -/
def mergeVars (maps : List Vars) : Vars := maps.foldl Dict.overlay Dict.empty

@[simp] theorem get?_mergeVars_pair (d e : Vars) (k : String) :
    (mergeVars [d, e]).get? k = (e.get? k).or (d.get? k) := by
  simp [mergeVars]

def usedVars (vars : Vars) : List String :=
  (vars.entries.filter (fun e => !e.2.isEmpty)).map (·.1)

/-- The names that are unbound or bound to the empty text, repetitions kept. -/
def missingVars (required : List String) (vars : Vars) : List String :=
  required.filter fun name => (vars.get? name).all String.isEmpty

theorem missingVars_eq_nil_iff {required : List String} {vars : Vars} :
    missingVars required vars = [] ↔
      ∀ name ∈ required, ∃ value, vars.get? name = some value ∧ value ≠ "" := by
  rw [missingVars, List.filter_eq_nil_iff]
  refine forall₂_congr fun name _ => ?_
  cases vars.get? name <;> simp

end PromptAssembly.Template
