import PromptAssembly.Yaml.Scalar

/-!
# Tokens of YAML

The lexer walks over the text once. Indentation opens and closes block collections. A word that may
turn out to be a key is remembered until the line ends, and when a colon follows, the key's token is
put in front of it.
-/
namespace PromptAssembly.Yaml

inductive Token where
  | versionDirective (major minor : Nat)
  | tagDirective (handle start : String)
  | documentStart
  | documentEnd
  | blockSequenceStart
  | blockMappingStart
  | blockEnd
  | flowSequenceStart
  | flowSequenceEnd
  | flowMappingStart
  | flowMappingEnd
  | blockEntry
  | flowEntry
  | key
  | value
  | alias (name : String)
  | anchor (name : String)
  | tag (handle suffix : String)
  | scalar (style : ScalarStyle) (text : String)
  deriving DecidableEq, Repr, Inhabited

/-- A place where a key may have begun. -/
structure PossibleKey where
  /-- Nothing but a key can stand here. -/
  required : Bool
  token : Nat
  pos : Position
  deriving DecidableEq, Repr

structure Lexer where
  cursor : Cursor
  tokens : Array Token := #[]
  /-- Column of the innermost block collection, and of those around it. -/
  indent : Int := -1
  outer : List Int := []
  /-- The possible key of this flow level, and of those around it. -/
  possible : Option PossibleKey := none
  outerKeys : List (Option PossibleKey) := []
  keyAllowed : Bool := true

namespace Lexer

def inFlow (l : Lexer) : Bool := !l.outerKeys.isEmpty

def column (l : Lexer) : Nat := l.cursor.pos.column

def push (l : Lexer) (t : Token) : Lexer := { l with tokens := l.tokens.push t }

def skip (l : Lexer) (n : Nat) : Lexer := { l with cursor := l.cursor.skip n }

def allowKey (l : Lexer) (allowed : Bool) : Lexer := { l with keyAllowed := allowed }

/-- Gives up the possible key of this level, which fails if it had to be one. -/
def dropKey (l : Lexer) : Option Lexer :=
  match l.possible with
  | some ⟨true, _, _⟩ => none
  | _ => some { l with possible := none }

/-- Whether a key that began at `k` could still end here: on the same line and not too far. -/
def isFresh (l : Lexer) (k : PossibleKey) : Bool :=
  k.pos.line = l.cursor.pos.line && l.cursor.pos.index ≤ k.pos.index + 1024

def dropStale (l : Lexer) : Option Lexer := do
  let keep : Option PossibleKey → Option (Option PossibleKey)
    | none => some none
    | some k => if l.isFresh k then some (some k) else if k.required then none else some none
  return { l with possible := ← keep l.possible, outerKeys := ← l.outerKeys.mapM keep }

def saveKey (l : Lexer) : Option Lexer :=
  if !l.keyAllowed then some l else do
  let required := !l.inFlow && l.indent = l.column
  let l ← l.dropKey
  return { l with possible := some ⟨required, l.tokens.size, l.cursor.pos⟩ }

/-- Opens a block collection if the column is deeper than the innermost one. -/
def openBlock (l : Lexer) (column : Nat) (at_ : Nat) (t : Token) : Lexer :=
  if l.inFlow || (column : Int) ≤ l.indent then l
  else { l with
    outer := l.indent :: l.outer
    indent := column
    tokens := l.tokens.insertIdxIfInBounds at_ t }

/-- Closes the block collections that are deeper than the column. -/
def closeBlocks (l : Lexer) (column : Int) : Lexer :=
  if l.inFlow then l else go l l.outer
where
  go (l : Lexer) : List Int → Lexer
    | [] => l
    | i :: outer =>
      if column < l.indent then go { l.push .blockEnd with indent := i, outer := outer } outer
      else l

/-- Over blanks, comments and line breaks. Tabs count where no key may begin. -/
def skipGap (fuel : Nat) (l : Lexer) : Lexer :=
  match fuel with
  | 0 => l
  | fuel + 1 =>
    let tabs := l.inFlow || !l.keyAllowed
    let c := l.cursor.skipWhile fun x => x = ' ' || (tabs && x = '\t')
    let c := if c.rest.head? = some '#' then c.skipLine else c
    match c.break? with
    | some (_, c) =>
      skipGap fuel { l with cursor := c, keyAllowed := l.keyAllowed || !l.inFlow }
    | none => { l with cursor := c }

def directiveNumber? (c : Cursor) : Option (Nat × Cursor) :=
  match c.rest.takeWhile Char.isDigit with
  | [] => none
  | ds => if 9 < ds.length then none else some (Text.digitsValue ds, c.skip ds.length)

def isTagChar (c : Char) : Bool := isWordChar c || ";/?:@&=+$.!~*'()".toList.contains c

/-- Bytes written as a percent sign and two hexadecimal digits that together make one character. -/
def percentChar? (s : List Char) : Option (Char × Nat) := do
  let byte (s : List Char) : Option UInt8 :=
    match s with
    | '%' :: a :: b :: _ => (Text.digits? 16 [a, b]).map UInt8.ofNat
    | _ => none
  let first ← byte s
  let width ←
    if first < 0x80 then some 1
    else if first &&& 0xE0 == 0xC0 then some 2
    else if first &&& 0xF0 == 0xE0 then some 3
    else if first &&& 0xF8 == 0xF0 then some 4
    else none
  let bytes ← (List.range width).mapM fun i => byte (s.drop (3 * i))
  let text ← String.fromUTF8? ⟨bytes.toArray⟩
  return (← text.toList.head?, 3 * width)

/-- Characters of a tag, as far as they go. -/
def tagChars (fuel : Nat) (brackets : Bool) (done : List Char) (c : Cursor) :
    Option (List Char × Cursor) :=
  match fuel with
  | 0 => none
  | fuel + 1 =>
    match c.rest with
    | '%' :: _ => do
      let (x, width) ← percentChar? c.rest
      tagChars fuel brackets (x :: done) (c.skip width)
    | x :: _ =>
      if isTagChar x || (brackets && (x = ',' || x = '[' || x = ']')) then
        tagChars fuel brackets (x :: done) (c.skip 1)
      else some (done.reverse, c)
    | [] => some (done.reverse, c)

def tagText? (brackets : Bool) (c : Cursor) : Option (List Char × Cursor) :=
  tagChars (c.rest.length + 1) brackets [] c

/-- An exclamation mark, perhaps a word, and perhaps a second mark. -/
def tagHandle? (c : Cursor) : Option (List Char × Cursor) :=
  match c.rest with
  | '!' :: s =>
    let word := s.takeWhile isWordChar
    let c := c.skip (word.length + 1)
    if c.rest.head? = some '!' then some ('!' :: word ++ ['!'], c.skip 1)
    else some ('!' :: word, c)
  | _ => none

/-- The rest of a line that holds nothing more than a comment. -/
def endLine? (c : Cursor) : Option Cursor :=
  let c := c.skipWhile isBlank
  let c := if c.rest.head? = some '#' then c.skipLine else c
  if c.rest.isEmpty then some c else c.break?.map (·.2)

def directive? (c : Cursor) : Option (Token × Cursor) := do
  let c := c.skip 1
  let name := c.rest.takeWhile isWordChar
  let c := c.skip name.length
  if !atGap c.rest then none
  let c := c.skipWhile isBlank
  match String.ofList name with
  | "YAML" =>
    let (major, c) ← directiveNumber? c
    if c.rest.head? ≠ some '.' then none
    let (minor, c) ← directiveNumber? (c.skip 1)
    return (.versionDirective major minor, ← endLine? c)
  | "TAG" =>
    let (handle, c) ← tagHandle? c
    if handle ≠ ['!'] ∧ (handle.length < 2 ∨ handle.getLast? ≠ some '!') then none
    if !(c.rest.head?.map isBlank).getD false then none
    let (start, c) ← tagText? true (c.skipWhile isBlank)
    if start.isEmpty || !atGap c.rest then none
    return (.tagDirective (String.ofList handle) (String.ofList start), ← endLine? c)
  | _ => none

def name? (c : Cursor) : Option (String × Cursor) :=
  let name := c.rest.takeWhile isWordChar
  let c := c.skip name.length
  let ended := atGap c.rest || (c.rest.head?.map ("?:,]\x7d%@`".toList.contains ·)).getD false
  if name.isEmpty || !ended then none else some (String.ofList name, c)

/-- Handle and suffix of a tag that stands between angle brackets. -/
def verbatimTag? (c : Cursor) : Option (List Char × List Char × Cursor) := do
  let (suffix, c) ← tagText? true (c.skip 2)
  if suffix.isEmpty || c.rest.head? ≠ some '>' then none
  return ([], suffix, c.skip 1)

/-- Handle and suffix of any other tag. A single mark has no handle and is its own suffix. -/
def shorthandTag? (c : Cursor) : Option (List Char × List Char × Cursor) := do
  let (handle, c) ← tagHandle? c
  let (suffix, c) ← tagText? false c
  if 1 < handle.length && handle.getLast? = some '!' then
    if suffix.isEmpty then none
    return (handle, suffix, c)
  match handle.drop 1 ++ suffix with
  | [] => return ([], ['!'], c)
  | suffix => return (['!'], suffix, c)

def tag? (inFlow : Bool) (c : Cursor) : Option (Token × Cursor) := do
  let verbatim := c.rest.take 2 = ['!', '<']
  let (handle, suffix, c) ← if verbatim then verbatimTag? c else shorthandTag? c
  if atGap c.rest || (inFlow && c.rest.head? = some ',') then
    return (.tag (String.ofList handle) (String.ofList suffix), c)
  none

/-- At a directive or document mark, which ends all block collections. -/
def documentToken (l : Lexer) (token : Token) (c : Cursor) : Option Lexer := do
  let l ← (l.closeBlocks (-1)).dropKey
  return { l.push token with cursor := c, keyAllowed := false }

def flowStart (l : Lexer) (t : Token) : Option Lexer := do
  let l ← l.saveKey
  return { (l.push t).skip 1 with
    outerKeys := l.possible :: l.outerKeys, possible := none, keyAllowed := true }

def flowEnd (l : Lexer) (t : Token) : Option Lexer := do
  let l ← l.dropKey
  let l := match l.outerKeys with
    | k :: ks => { l with possible := k, outerKeys := ks }
    | [] => l
  return ((l.push t).skip 1).allowKey false

def flowEntry (l : Lexer) : Option Lexer := do
  return (((← l.dropKey).push .flowEntry).skip 1).allowKey true

def blockEntry (l : Lexer) : Option Lexer := do
  if !l.inFlow && !l.keyAllowed then none
  let l ← (l.openBlock l.column l.tokens.size .blockSequenceStart).dropKey
  return ((l.push .blockEntry).skip 1).allowKey true

def complexKey (l : Lexer) : Option Lexer := do
  if !l.inFlow && !l.keyAllowed then none
  let l ← (l.openBlock l.column l.tokens.size .blockMappingStart).dropKey
  return ((l.push .key).skip 1).allowKey (!l.inFlow)

def value (l : Lexer) : Option Lexer :=
  match l.possible with
  | some k =>
    let l := { l with tokens := l.tokens.insertIdxIfInBounds k.token .key, possible := none }
    let l := l.openBlock k.pos.column k.token .blockMappingStart
    some (((l.push .value).skip 1).allowKey false)
  | none => do
    if !l.inFlow && !l.keyAllowed then none
    let l := l.openBlock l.column l.tokens.size .blockMappingStart
    return ((l.push .value).skip 1).allowKey (!l.inFlow)

/-- A token that may begin a key. -/
def keyStart (l : Lexer) (scan : Lexer → Option (Token × Cursor)) : Option Lexer := do
  let l ← l.saveKey
  let (t, c) ← scan l
  return { l.push t with cursor := c, keyAllowed := false }

def quoted (style : ScalarStyle) (s : ScannedScalar) : Token × Cursor :=
  (.scalar style (String.ofList s.text), s.cursor)

def blockScalar (l : Lexer) (folds : Bool) : Option Lexer := do
  let l ← l.dropKey
  let s ← scanBlock folds l.indent (l.cursor.skip 1)
  let style := if folds then .folded else .literal
  return { l.push (.scalar style (String.ofList s.text)) with
    cursor := s.cursor, keyAllowed := true }

def plainScalar (l : Lexer) : Option Lexer := do
  let l ← l.saveKey
  let s ← scanPlain l.inFlow (l.indent + 1).toNat [] {} l.cursor.pos l.cursor.rest
  return { l.push (.scalar .plain (String.ofList s.text)) with
    cursor := s.cursor, keyAllowed := s.crossedLine }

/-- Whether a plain scalar may begin with `c` before `s`. -/
def startsPlain (inFlow : Bool) (c : Char) (s : List Char) : Bool :=
  !("-?:,[]\x7b\x7d#&*!|>'\"%@`".toList.contains c) ||
  (c = '-' && !((s.head?.map isBlank).getD false)) ||
  (!inFlow && (c = '?' || c = ':') && !atGap s)

def token (l : Lexer) : Option Lexer :=
  let c := l.cursor
  let lineStart := c.pos.column = 0
  match c.rest with
  | [] => none
  | x :: s =>
    if lineStart && x = '%' then do
      let (t, c) ← directive? c
      l.documentToken t c
    else if lineStart && isDocumentMark (x :: s) then
      l.documentToken (if x = '-' then .documentStart else .documentEnd) (c.skip 3)
    else if x = '[' then l.flowStart .flowSequenceStart
    else if x = '{' then l.flowStart .flowMappingStart
    else if x = ']' then l.flowEnd .flowSequenceEnd
    else if x = '}' then l.flowEnd .flowMappingEnd
    else if x = ',' then l.flowEntry
    else if x = '-' && atGap s then l.blockEntry
    else if x = '?' && (l.inFlow || atGap s) then l.complexKey
    else if x = ':' && (l.inFlow || atGap s) then l.value
    else if x = '*' then l.keyStart fun l => (name? (l.cursor.skip 1)).map fun (n, c) => (.alias n, c)
    else if x = '&' then l.keyStart fun l => (name? (l.cursor.skip 1)).map fun (n, c) => (.anchor n, c)
    else if x = '!' then l.keyStart fun l => tag? l.inFlow l.cursor
    else if x = '|' && !l.inFlow then l.blockScalar false
    else if x = '>' && !l.inFlow then l.blockScalar true
    else if x = '\'' then
      l.keyStart fun l => (scanSingleQuoted [] {} l.cursor.pos.next s).map (quoted .singleQuoted)
    else if x = '"' then
      l.keyStart fun l =>
        (scanDoubleQuoted (s.length + 1) [] {} (l.cursor.skip 1)).map (quoted .doubleQuoted)
    else if startsPlain l.inFlow x s then l.plainScalar
    else none

def run (fuel : Nat) (l : Lexer) : Option (Array Token) :=
  match fuel with
  | 0 => none
  | fuel + 1 => do
    let l ← (l.skipGap (l.cursor.rest.length + 1)).dropStale
    if l.cursor.rest.isEmpty then return (← (l.closeBlocks (-1)).dropKey).tokens
    run fuel (← (l.closeBlocks l.column).token)

end Lexer

def tokens? (text : String) : Option (List Token) := do
  let s := text.toList
  if !s.all isAllowed then none
  return (← Lexer.run (s.length + 1) ⟨⟨s, {}⟩, #[], -1, [], none, [], true⟩).toList

end PromptAssembly.Yaml
