import PromptAssembly.Proofs.Template.Runs

/-!
# Expansion step by step

The expansion as a machine that reads one piece at a time. Where it meets a variable that has to be
expanded, the text at hand is put aside and the value is read first. The machine does not recurse on
the depth bound, which is only compared with the length of the chain. At every moment what is left
to do can be handed to the expansion itself (`Moment.outcome`), and no step changes what comes of it
(`outcome_step`).
-/
namespace PromptAssembly.Template

/-- A text put aside for a variable met in it: what is written of it, and the pieces behind. -/
structure Waiting where
  name : String
  written : String
  ahead : List Piece
  deriving DecidableEq, Repr

structure Moment where
  written : String := ""
  ahead : List Piece
  /-- The text put aside last comes first. -/
  waiting : List Waiting := []
  progress : Progress := {}
  /-- The variables whose values have been handed over to be expanded, oldest first. -/
  entered : List (String × String) := []
  deriving DecidableEq, Repr

inductive Next where
  | moment (m : Moment)
  | ended (result : Except RenderError (String × Progress))
  deriving DecidableEq, Repr

/-- The variables whose values are being expanded, outermost first. -/
def chainOf (waiting : List Waiting) : List String := (waiting.map Waiting.name).reverse

namespace Moment

def start (template : String) : Moment where
  ahead := pieces template.toList
  progress := Progress.hand {} template

def chain (m : Moment) : List String := chainOf m.waiting

/-- The texts that have been handed over to be expanded, the template among them. -/
def texts (template : String) (m : Moment) : List String := template :: m.entered.map Prod.snd

def write (m : Moment) (text : String) (ahead : List Piece) (progress : Progress) : Moment :=
  { m with written := m.written ++ text, ahead, progress }

def enter (m : Moment) (name value : String) (behind : List Piece) : Moment where
  ahead := pieces value.toList
  waiting := ⟨name, m.written, behind⟩ :: m.waiting
  progress := m.progress.hand value
  entered := m.entered ++ [(name, value)]

def leave (m : Moment) (outer : Waiting) (waiting : List Waiting) : Moment where
  written := outer.written ++ m.written
  ahead := outer.ahead
  waiting := waiting
  progress := m.progress.remember outer.name m.written
  entered := m.entered

/-- A bound variable is met, with the pieces behind it. -/
def meet (maxDepth : Nat) (m : Moment) (name value : String) (behind : List Piece) : Next :=
  match m.progress.resolved.lookup name with
  | some text => .moment (m.write text behind m.progress)
  | none =>
    if name ∈ m.chain then .ended (.error (.circularReference (m.chain ++ [name])))
    else if maxDepth ≤ m.chain.length then .ended (.error (.depthExceeded name maxDepth))
    else .moment (m.enter name value behind)

def step (vars : Vars) (maxDepth : Nat) (m : Moment) : Next :=
  match m.ahead with
  | [] =>
    match m.waiting with
    | [] => .ended (.ok (m.written, m.progress))
    | outer :: waiting => .moment (m.leave outer waiting)
  | p :: behind =>
    match p.name? with
    | none => .moment (m.write (String.ofList p.chars) behind m.progress)
    | some name =>
      match vars.get? name with
      | some value => m.meet maxDepth name value behind
      | none => .moment (m.write (String.ofList p.chars) behind (m.progress.note name))

end Moment

def momentAfter (vars : Vars) (maxDepth : Nat) (template : String) : Nat → Moment
  | 0 => .start template
  | n + 1 =>
    match (momentAfter vars maxDepth template n).step vars maxDepth with
    | .moment m => m
    | .ended _ => momentAfter vars maxDepth template n

/-- Expands the pieces ahead, and then all that waits for them. -/
def finish (vars : Vars) (maxDepth : Nat) (written : String) (ahead : List Piece) :
    List Waiting → Expansion String
  | [] => do return written ++ (← expandPieces vars (resolve vars maxDepth maxDepth []) ahead)
  | outer :: waiting => do
    let chain := chainOf (outer :: waiting)
    let resolver := resolve vars maxDepth (maxDepth - chain.length) chain
    let text := written ++ (← expandPieces vars resolver ahead)
    modify (·.remember outer.name text)
    finish vars maxDepth (outer.written ++ text) outer.ahead waiting

/-- What the expansion makes of all that is left to do. -/
def Moment.outcome (vars : Vars) (maxDepth : Nat) (m : Moment) :
    Except RenderError (String × Progress) :=
  (finish vars maxDepth m.written m.ahead m.waiting).run m.progress

def Next.outcome (vars : Vars) (maxDepth : Nat) : Next → Except RenderError (String × Progress)
  | .moment m => m.outcome vars maxDepth
  | .ended result => result

variable {vars : Vars} {maxDepth : Nat} {written : String} {p : Piece} {behind : List Piece}
  {waiting : List Waiting}

@[simp] theorem chainOf_nil : chainOf [] = [] := rfl

@[simp] theorem chainOf_cons (outer : Waiting) :
    chainOf (outer :: waiting) = chainOf waiting ++ [outer.name] := by
  simp [chainOf]

theorem finish_cons :
    finish vars maxDepth written (p :: behind) waiting = (do
      let chain := chainOf waiting
      let text ← expandPiece vars (resolve vars maxDepth (maxDepth - chain.length) chain) p
      finish vars maxDepth (written ++ text) behind waiting) := by
  cases waiting with
  | nil => simp [finish, expandPieces, String.append_assoc]
  | cons outer waiting => simp [finish, expandPieces, String.append_assoc]

theorem finish_nil_nil : finish vars maxDepth written [] [] = pure written := by
  simp [finish, expandPieces]

theorem finish_nil_cons (outer : Waiting) :
    finish vars maxDepth written [] (outer :: waiting) = (do
      modify (·.remember outer.name written)
      finish vars maxDepth (outer.written ++ written) outer.ahead waiting) := by
  simp [finish, expandPieces]

namespace Moment
variable {m : Moment} {name value : String}

theorem outcome_cons (h : m.ahead = p :: behind) :
    m.outcome vars maxDepth = (do
      let resolver := resolve vars maxDepth (maxDepth - m.chain.length) m.chain
      let text ← expandPiece vars resolver p
      finish vars maxDepth (m.written ++ text) behind m.waiting : Expansion String).run
        m.progress := by
  rw [outcome, h, finish_cons]
  rfl

/-- A variable that is met is looked up, refused, or entered, as the expansion resolves it. -/
theorem outcome_meet :
    (m.meet maxDepth name value behind).outcome vars maxDepth = (do
      let text ← resolve vars maxDepth (maxDepth - m.chain.length) m.chain name value
      finish vars maxDepth (m.written ++ text) behind m.waiting : Expansion String).run
        m.progress := by
  rw [meet, StateT.run_bind]
  cases hl : m.progress.resolved.lookup name with
  | some text =>
    rw [run_resolve_of_lookup hl]
    rfl
  | none =>
    by_cases hc : name ∈ m.chain
    · rw [run_resolve_of_mem hl hc, if_pos hc]
      rfl
    rw [if_neg hc]
    by_cases full : maxDepth ≤ m.chain.length
    · rw [Nat.sub_eq_zero_of_le full, run_resolve_zero hl hc, if_pos full]
      rfl
    · have room : maxDepth - m.chain.length = maxDepth - (m.chain.length + 1) + 1 := by omega
      rw [room, run_resolve_succ hl hc, if_neg full]
      -- the value is expanded below the longer chain, and behind it the text goes on
      simp only [Next.outcome, outcome, enter, finish, chainOf_cons, chain, run_expandText,
        List.length_append, List.length_singleton, String.empty_append, StateT.run_bind,
        StateT.run_pure, bind_assoc, pure_bind]

/-- No step changes what comes of the whole. -/
theorem outcome_step (m : Moment) :
    (m.step vars maxDepth).outcome vars maxDepth = m.outcome vars maxDepth := by
  unfold step
  split
  · next done =>
    split
    · next last => rw [outcome, done, last, finish_nil_nil, run_return, Next.outcome]
    · next outer waiting rest =>
      rw [outcome, done, rest, finish_nil_cons]
      rfl
  · next p behind ahead =>
    rw [outcome_cons ahead]
    cases p with
    | char c => rfl
    | placeholder chars =>
      simp only [Piece.name?]
      cases hv : vars.get? (String.ofList chars) with
      | none =>
        rw [StateT.run_bind, run_expandPiece_unbound hv]
        rfl
      | some value =>
        rw [expandPiece_bound hv]
        exact outcome_meet

theorem outcome_start (vars : Vars) (maxDepth : Nat) (template : String) :
    (start template).outcome vars maxDepth = expand vars maxDepth template := by
  rw [expand, run_expandText]
  simp [outcome, start, finish]

end Moment

theorem outcome_momentAfter (vars : Vars) (maxDepth : Nat) (template : String) (n : Nat) :
    (momentAfter vars maxDepth template n).outcome vars maxDepth =
      expand vars maxDepth template := by
  induction n with
  | zero => exact Moment.outcome_start vars maxDepth template
  | succ n ih =>
    rw [momentAfter]
    split
    · next m hm =>
      rw [← ih, ← Moment.outcome_step (momentAfter vars maxDepth template n), hm, Next.outcome]
    · exact ih

end PromptAssembly.Template
