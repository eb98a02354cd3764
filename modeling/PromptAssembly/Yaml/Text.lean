/-!
# Characters and positions in YAML texts
-/
namespace PromptAssembly.Yaml

def isBreak (c : Char) : Bool :=
  c = '\n' || c = '\r' || c = '\x85' || c = '\u2028' || c = '\u2029'

def isBlank (c : Char) : Bool := c = ' ' || c = '\t'

/-- Letters, digits and marks that names of anchors, handles and directives are made of. -/
def isWordChar (c : Char) : Bool := c.isAlphanum || c = '_' || c = '-'

def isAllowed (c : Char) : Bool :=
  let n := c.toNat
  n = 0x09 || n = 0x0A || n = 0x0D || (0x20 ≤ n && n ≤ 0x7E) || n = 0x85 ||
  (0xA0 ≤ n && n ≤ 0xFFFD && n ≠ 0xFEFF) || 0x10000 ≤ n

def atGap : List Char → Bool
  | [] => true
  | c :: _ => isBlank c || isBreak c

/-- Three dashes or three dots that stand alone. -/
def isDocumentMark : List Char → Bool
  | '-' :: '-' :: '-' :: s => atGap s
  | '.' :: '.' :: '.' :: s => atGap s
  | _ => false

structure Position where
  index : Nat := 0
  line : Nat := 0
  column : Nat := 0
  deriving DecidableEq, Repr

def Position.next (p : Position) : Position := ⟨p.index + 1, p.line, p.column + 1⟩

/-- Behind a line break of `width` characters. -/
def Position.nextLine (p : Position) (width : Nat) : Position := ⟨p.index + width, p.line + 1, 0⟩

structure Cursor where
  rest : List Char
  pos : Position := {}
  deriving DecidableEq, Repr

namespace Cursor

def skip (c : Cursor) (n : Nat) : Cursor :=
  ⟨c.rest.drop n, ⟨c.pos.index + n, c.pos.line, c.pos.column + n⟩⟩

def skipWhile (p : Char → Bool) (c : Cursor) : Cursor := c.skip (c.rest.takeWhile p).length

/-- A line break and what it counts as: the classic ones are all a line feed. -/
def break? (c : Cursor) : Option (Char × Cursor) :=
  match c.rest with
  | '\r' :: '\n' :: s => some ('\n', ⟨s, c.pos.nextLine 2⟩)
  | b :: s =>
    if isBreak b then
      some (if b = '\u2028' || b = '\u2029' then b else '\n', ⟨s, c.pos.nextLine 1⟩)
    else none
  | [] => none

def skipBreak (c : Cursor) : Cursor := (c.break?.map (·.2)).getD c

def skipLine (c : Cursor) : Cursor := c.skipWhile fun x => !isBreak x

end Cursor
end PromptAssembly.Yaml
