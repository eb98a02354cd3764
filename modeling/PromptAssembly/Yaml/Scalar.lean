import PromptAssembly.Text.Number
import PromptAssembly.Yaml.Text

/-!
# Scalars

How the text of a scalar is read off its lines. In plain and quoted scalars a single line break
between words is a blank, and of several the first is dropped; in block scalars the header says
what happens to breaks.
-/
namespace PromptAssembly.Yaml

inductive ScalarStyle where
  | plain
  | singleQuoted
  | doubleQuoted
  | literal
  | folded
  deriving DecidableEq, Repr

/-- Blanks and line breaks met since the last word of a scalar. -/
structure Gap where
  /-- Blanks before the first break. -/
  blanks : List Char := []
  broken : Bool := false
  /-- The first break, unless it was escaped. -/
  first : List Char := []
  later : List Char := []
  deriving DecidableEq, Repr

namespace Gap

def isEmpty (g : Gap) : Bool := g.blanks.isEmpty && !g.broken

def addBlank (g : Gap) (c : Char) : Gap :=
  if g.broken then g else { g with blanks := g.blanks ++ [c] }

def addBreak (g : Gap) (b : Char) : Gap :=
  if g.broken then { g with later := g.later ++ [b] }
  else { blanks := [], broken := true, first := [b], later := [] }

def chars (g : Gap) : List Char :=
  if !g.broken then g.blanks
  else if g.first = ['\n'] then if g.later.isEmpty then [' '] else g.later
  else g.first ++ g.later

end Gap

/-- The text of a scalar, what follows it, and whether a line break stands between. -/
structure ScannedScalar where
  text : List Char
  cursor : Cursor
  crossedLine : Bool := false
  deriving DecidableEq, Repr

def lineBreak (b : Char) : Char := if b = '\u2028' || b = '\u2029' then b else '\n'

/-- A plain scalar ends at a colon or hash that blanks set apart, at a document mark, at a line
that is not indented far enough and, between brackets, at a bracket or comma. `done` holds the
text so far, last character first. -/
def scanPlain (inFlow : Bool) (indent : Nat) (done : List Char) (gap : Gap) (p : Position) :
    List Char → Option ScannedScalar
  | [] => some ⟨done.reverse, ⟨[], p⟩, gap.broken⟩
  | '\r' :: '\n' :: s => scanPlain inFlow indent done (gap.addBreak '\n') (p.nextLine 2) s
  | c :: s =>
    let stop : Option ScannedScalar := some ⟨done.reverse, ⟨c :: s, p⟩, gap.broken⟩
    if isBreak c then scanPlain inFlow indent done (gap.addBreak (lineBreak c)) (p.nextLine 1) s
    else if isBlank c then
      if gap.broken && p.column < indent && c = '\t' then none
      else scanPlain inFlow indent done (gap.addBlank c) p.next s
    else if !gap.isEmpty && (c = '#' || (!inFlow && p.column < indent) ||
        (p.column = 0 && isDocumentMark (c :: s))) then stop
    else if inFlow && c = ':' && (s.head?.map (",?[]\x7b\x7d".toList.contains ·)).getD false then
      none
    else if (c = ':' && atGap s) || (inFlow && ",[]\x7b\x7d".toList.contains c) then stop
    else scanPlain inFlow indent (c :: (gap.chars.reverse ++ done)) {} p.next s

/-- A scalar between apostrophes, the first already read; two of them stand for one. -/
def scanSingleQuoted (done : List Char) (gap : Gap) (p : Position) :
    List Char → Option ScannedScalar
  | [] => none
  | '\r' :: '\n' :: s => scanSingleQuoted done (gap.addBreak '\n') (p.nextLine 2) s
  | '\'' :: '\'' :: s =>
    scanSingleQuoted ('\'' :: (gap.chars.reverse ++ done)) {} p.next.next s
  | c :: s =>
    if isBreak c then scanSingleQuoted done (gap.addBreak (lineBreak c)) (p.nextLine 1) s
    else if isBlank c then scanSingleQuoted done (gap.addBlank c) p.next s
    else if p.column = 0 && isDocumentMark (c :: s) then none
    else if c = '\'' then some { text := done.reverse ++ gap.chars, cursor := ⟨s, p.next⟩ }
    else scanSingleQuoted (c :: (gap.chars.reverse ++ done)) {} p.next s

def escapedChar? : Char → Option Char
  | '0' => some '\x00'
  | 'a' => some '\x07'
  | 'b' => some '\x08'
  | 't' | '\t' => some '\t'
  | 'n' => some '\n'
  | 'v' => some '\x0b'
  | 'f' => some '\x0c'
  | 'r' => some '\r'
  | 'e' => some '\x1b'
  | ' ' => some ' '
  | '"' => some '"'
  | '/' => some '/'
  | '\\' => some '\\'
  | 'N' => some '\x85'
  | '_' => some '\xa0'
  | 'L' => some '\u2028'
  | 'P' => some '\u2029'
  | _ => none

/-- How many hexadecimal digits follow an escape of this letter. -/
def escapeDigits? : Char → Option Nat
  | 'x' => some 2
  | 'u' => some 4
  | 'U' => some 8
  | _ => none

/-- The character behind a backslash, and how many characters it is written with. -/
def escape? (s : List Char) : Option (Char × Nat) := do
  let e ← s.head?
  match escapeDigits? e with
  | none => return (← escapedChar? e, 1)
  | some n =>
    let digits := (s.drop 1).take n
    if digits.length < n then none
    let value ← Text.digits? 16 digits
    if (0xD800 ≤ value && value ≤ 0xDFFF) || 0x10FFFF < value then none
    return (Char.ofNat value, n + 1)

/-- A scalar between quotation marks, the first already read. -/
def scanDoubleQuoted (fuel : Nat) (done : List Char) (gap : Gap) (c : Cursor) :
    Option ScannedScalar :=
  match fuel with
  | 0 => none
  | fuel + 1 =>
    match c.break? with
    | some (b, c) => scanDoubleQuoted fuel done (gap.addBreak b) c
    | none =>
      match c.rest with
      | [] => none
      | x :: s =>
        if isBlank x then scanDoubleQuoted fuel done (gap.addBlank x) (c.skip 1)
        else if c.pos.column = 0 && isDocumentMark c.rest then none
        else if x = '"' then some { text := done.reverse ++ gap.chars, cursor := c.skip 1 }
        else if x = '\\' then
          match (c.skip 1).break? with
          | some (_, c) =>
            scanDoubleQuoted fuel (gap.chars.reverse ++ done) { broken := true } c
          | none => do
            let (e, width) ← escape? s
            scanDoubleQuoted fuel (e :: (gap.chars.reverse ++ done)) {} (c.skip (width + 1))
        else scanDoubleQuoted fuel (x :: (gap.chars.reverse ++ done)) {} (c.skip 1)

inductive Chomping where
  | strip
  | clip
  | keep
  deriving DecidableEq, Repr

/-- The header of a block scalar, its mark already read: how the end is chomped, and by how much
the text is indented if that is said. -/
def blockHeader? (c : Cursor) : Option (Chomping × Option Nat × Cursor) := do
  let chomping (c : Cursor) : Option Chomping × Cursor :=
    match c.rest with
    | '+' :: _ => (some .keep, c.skip 1)
    | '-' :: _ => (some .strip, c.skip 1)
    | _ => (none, c)
  let indent (c : Cursor) : Option (Option Nat × Cursor) :=
    match c.rest with
    | d :: _ =>
      if d = '0' then none
      else if d.isDigit then some (some (d.toNat - '0'.toNat), c.skip 1)
      else some (none, c)
    | [] => some (none, c)
  let (mark, c) := chomping c
  let (hint, c) ← indent c
  let (mark, c) := match mark, hint with
    | none, some _ => chomping c
    | _, _ => (mark, c)
  let c := c.skipWhile isBlank
  let c := if c.rest.head? = some '#' then c.skipLine else c
  if c.rest.isEmpty then return (mark.getD .clip, hint, c)
  let (_, c) ← c.break?
  return (mark.getD .clip, hint, c)

/-- Empty lines of a block scalar: their breaks, the deepest column reached, and what follows. While
`indent` is not settled, any number of blanks counts as empty. -/
def emptyLines (fuel : Nat) (indent : Option Nat) (breaks : List Char) (deepest : Nat) (c : Cursor) :
    Option (List Char × Nat × Cursor) :=
  match fuel with
  | 0 => none
  | fuel + 1 =>
    let spaces := (c.rest.takeWhile (· = ' ')).length
    let c := c.skip (match indent with
      | none => spaces
      | some n => min spaces (n - c.pos.column))
    let deepest := max deepest c.pos.column
    let shallow := indent.all fun n => decide (c.pos.column < n)
    if shallow && c.rest.head? = some '\t' then none
    else match c.break? with
      | some (b, c) => emptyLines fuel indent (breaks ++ [b]) deepest c
      | none => some (breaks, deepest, c)

/-- The lines of a block scalar. `first` is the break behind the last line, `later` are those of the
empty lines since. -/
def blockLines (fuel : Nat) (folds : Bool) (indent : Nat) (done first later : List Char)
    (afterBlank : Bool) (c : Cursor) : Option (List Char × List Char × List Char × Cursor) :=
  match fuel with
  | 0 => none
  | fuel + 1 =>
    if c.pos.column ≠ indent || c.rest.isEmpty then some (done, first, later, c) else do
    let startsBlank := (c.rest.head?.map isBlank).getD false
    let gap :=
      if folds && first = ['\n'] && !afterBlank && !startsBlank then
        if later.isEmpty then [' '] else later
      else first ++ later
    let line := c.rest.takeWhile fun x => !isBreak x
    let done := line.reverse ++ gap.reverse ++ done
    let (first, c) := match c.skipLine.break? with
      | some (b, c) => ([b], c)
      | none => ([], c.skipLine)
    let (later, _, c) ← emptyLines (c.rest.length + 1) (some indent) [] 0 c
    blockLines fuel folds indent done first later startsBlank c

/-- A block scalar inside a collection indented by `outer`, its mark already read. -/
def scanBlock (folds : Bool) (outer : Int) (c : Cursor) : Option ScannedScalar := do
  let (chomping, hint, c) ← blockHeader? c
  let given := hint.map fun n => (max outer 0).toNat + n
  let (breaks, deepest, c) ← emptyLines (c.rest.length + 1) given [] 0 c
  let indent := given.getD (max deepest (max (outer + 1).toNat 1))
  let (done, first, later, c) ← blockLines (c.rest.length + 1) folds indent [] [] breaks false c
  let tail := match chomping with
    | .strip => []
    | .clip => first
    | .keep => first ++ later
  return { text := done.reverse ++ tail, cursor := c }

end PromptAssembly.Yaml
