import PromptAssembly.Dict

/-!
# Placeholders

A placeholder is two opening braces, a name, and two closing braces. A name is one or more
characters, none of them a brace; blanks in it count. A text is cut into pieces from the left:
wherever a placeholder starts it is taken whole, every other character stands for itself, and the
pieces put together again are the text (`flatMap_chars_pieces`).
-/
namespace PromptAssembly.Template

inductive Piece where
  | char (c : Char)
  | placeholder (name : List Char)
  deriving DecidableEq, Repr

def Piece.chars : Piece → List Char
  | .char c => [c]
  | .placeholder name => '{' :: '{' :: name ++ ['}', '}']

def isNameChar (c : Char) : Bool := c ≠ '{' && c ≠ '}'

/-- The name of a placeholder that starts here, and the text behind it. -/
def placeholderAt? : List Char → Option (List Char × List Char)
  | '{' :: '{' :: s =>
    match s.takeWhile isNameChar, s.dropWhile isNameChar with
    | c :: name, '}' :: '}' :: rest => some (c :: name, rest)
    | _, _ => none
  | _ => none

theorem placeholderAt?_eq_some {s name rest : List Char} (h : placeholderAt? s = some (name, rest)) :
    s = (Piece.placeholder name).chars ++ rest := by
  unfold placeholderAt? at h
  split at h
  · next t =>
    split at h
    · next c n r htake hdrop =>
      simp only [Option.some.injEq, Prod.mk.injEq] at h
      obtain ⟨rfl, rfl⟩ := h
      have split := List.takeWhile_append_dropWhile (p := isNameChar) (l := t)
      rw [htake, hdrop] at split
      simp [Piece.chars, ← split]
    · simp at h
  · simp at h

theorem length_lt_of_placeholderAt? {s name rest : List Char}
    (h : placeholderAt? s = some (name, rest)) : rest.length < s.length := by
  simp [placeholderAt?_eq_some h, Piece.chars]; omega

def pieces : List Char → List Piece
  | [] => []
  | c :: s =>
    match h : placeholderAt? (c :: s) with
    | some (name, rest) =>
      have := length_lt_of_placeholderAt? h
      .placeholder name :: pieces rest
    | none => .char c :: pieces s
termination_by s => s.length
decreasing_by
  · exact this
  · simp

theorem flatMap_chars_pieces (s : List Char) : (pieces s).flatMap Piece.chars = s := by
  fun_induction pieces s with
  | case1 => rfl
  | case2 c s name rest h _ ih => simp [ih, placeholderAt?_eq_some h]
  | case3 c s h ih => simp [ih, Piece.chars]

def Piece.name? : Piece → Option String
  | .char _ => none
  | .placeholder name => some (String.ofList name)

/-- The names of all placeholders of a text, repetitions kept. -/
def references (text : String) : List String := (pieces text.toList).filterMap Piece.name?

/-- The names of a text's placeholders, each once, in order of first appearance. -/
def findPlaceholders (text : String) : List String := (references text).eraseDups

/-- Whether two opening braces stand side by side: no placeholder can do without. -/
def hasOpening : List Char → Bool
  | '{' :: '{' :: _ => true
  | _ :: s => hasOpening s
  | [] => false

theorem filterMap_name?_eq_nil {s : List Char} (h : hasOpening s = false) :
    (pieces s).filterMap Piece.name? = [] := by
  fun_induction pieces s with
  | case1 => rfl
  | case2 c s name rest hp _ ih => simp [placeholderAt?_eq_some hp, Piece.chars, hasOpening] at h
  | case3 c s hp ih =>
    have : hasOpening s = false := by
      unfold hasOpening at h
      split at h <;> simp_all
    simpa [Piece.name?] using ih this

end PromptAssembly.Template
