import PromptAssembly.Binary64.Shortest
import PromptAssembly.Json.Printer
import PromptAssembly.Yaml.Plain
import PromptAssembly.Yaml.Scalar

/-!
# Writing YAML

Values are written in block style, two blanks for each level, the items of a list at the column of
their key. A text is written plain if it then reads back as the same text; otherwise between
apostrophes, in a block if it has several lines, and between quotation marks if nothing else will
do.
-/
namespace PromptAssembly.Yaml

/-- Characters that are written as they are. -/
def isPrintable (c : Char) : Bool :=
  let n := c.toNat
  n = 0x0A || (0x20 ≤ n && n ≤ 0x7E) || (0xA0 ≤ n && n ≤ 0xFFFD && n ≠ 0xFEFF) || 0x10000 ≤ n

/-- Whether two neighbours of a text fulfil these conditions. -/
def hasNeighbours (p q : Char → Bool) : List Char → Bool
  | c :: d :: s => (p c && q d) || hasNeighbours p q (d :: s)
  | _ => false

def isSpace (c : Char) : Bool := c = ' '

def lastIs (p : Char → Bool) (s : List Char) : Bool := (s.getLast?.map p).getD false

def firstIs (p : Char → Bool) (s : List Char) : Bool := (s.head?.map p).getD false

/-- Whether only quotation marks can hold a text. -/
def needsEscapes (s : List Char) : Bool := !s.all isPrintable || hasNeighbours isSpace isBreak s

def allowsSingleQuotes (s : List Char) : Bool :=
  !needsEscapes s && !hasNeighbours isBreak isSpace s

def allowsBlock (s : List Char) : Bool :=
  !s.isEmpty && !needsEscapes s && !lastIs isSpace s

/-- Whether the text would be taken for something else from its first character on. -/
def startsLikeMark (s : List Char) : Bool :=
  match s with
  | [] => false
  | c :: rest =>
    s.take 3 = ['-', '-', '-'] || s.take 3 = ['.', '.', '.'] ||
    "#,[]\x7b\x7d&*!|>'\"%@`".toList.contains c || ("?:-".toList.contains c && atGap rest)

/-- A colon before a gap, or a hash behind one. -/
def holdsMark : List Char → Bool
  | c :: d :: s =>
    (d = ':' && atGap s) || (d = '#' && (isBlank c || isBreak c)) || holdsMark (d :: s)
  | _ => false

def allowsPlain (s : List Char) : Bool :=
  !needsEscapes s && !s.any isBreak && !firstIs isSpace s && !lastIs isSpace s &&
  !startsLikeMark s && !holdsMark s

/-- How a text is written. `inKey` is true where only a single line has room. -/
def styleOf (inKey : Bool) (s : String) : ScalarStyle :=
  let cs := s.toList
  let single := if allowsSingleQuotes cs then .singleQuoted else .doubleQuoted
  if cs.contains '\n' then if allowsBlock cs && !inKey then .literal else .doubleQuoted
  else if inKey && cs.any isBreak then .doubleQuoted
  else if meaning s ≠ .text || isPaddedNumber cs then single
  else if allowsPlain cs then .plain
  else single

def spaces (n : Nat) : String := String.ofList (List.replicate n ' ')

/-- Lines behind a break are indented, the breaks as they are. -/
def indentLines (indent : Nat) (fresh : Bool) : List Char → List Char
  | [] => []
  | c :: s =>
    if isBreak c then c :: indentLines indent true s
    else (if fresh then List.replicate indent ' ' else []) ++ c :: indentLines indent false s

def upperHex (width n : Nat) : List Char :=
  (List.range width).map fun i => Json.hexDigitUpper (n / Nat.pow 16 (width - 1 - i) % 16)

def escaped (c : Char) : List Char :=
  match c with
  | '\x00' => ['\\', '0']
  | '\x07' => ['\\', 'a']
  | '\x08' => ['\\', 'b']
  | '\t' => ['\\', 't']
  | '\n' => ['\\', 'n']
  | '\x0b' => ['\\', 'v']
  | '\x0c' => ['\\', 'f']
  | '\r' => ['\\', 'r']
  | '\x1b' => ['\\', 'e']
  | '"' => ['\\', '"']
  | '\\' => ['\\', '\\']
  | '\x85' => ['\\', 'N']
  | '\u2028' => ['\\', 'L']
  | '\u2029' => ['\\', 'P']
  | c =>
    if isPrintable c then [c]
    else if c.toNat ≤ 0xFF then '\\' :: 'x' :: upperHex 2 c.toNat
    else if c.toNat ≤ 0xFFFF then '\\' :: 'u' :: upperHex 4 c.toNat
    else '\\' :: 'U' :: upperHex 8 c.toNat

/-- Indentation and end of a block, where they have to be said. -/
def blockHeader (s : List Char) : List Char :=
  (if firstIs (fun c => isSpace c || isBreak c) s then ['2'] else []) ++
  match s.reverse with
  | c :: rest => if !isBreak c then ['-'] else if rest.isEmpty || firstIs isBreak rest then ['+'] else []
  | [] => ['-']

/-- The text of a scalar whose further lines are indented by `indent`. -/
def scalarText (indent : Nat) (inKey : Bool) (s : String) : String :=
  let cs := s.toList
  match styleOf inKey s with
  | .singleQuoted =>
    let doubled := cs.flatMap fun c => if c = '\'' then ['\'', '\''] else [c]
    let closing := if lastIs isBreak cs then List.replicate indent ' ' else []
    String.ofList ('\'' :: indentLines indent false doubled ++ closing ++ ['\''])
  | .doubleQuoted => String.ofList ('"' :: cs.flatMap escaped ++ ['"'])
  | .literal => String.ofList ('|' :: blockHeader cs ++ '\n' :: indentLines indent true cs)
  | _ => s

/-- Puts lines below each other. A line that ends in a break needs no other. -/
def stack (indent : Nat) : List String → String
  | [] => ""
  | [line] => line
  | line :: lines =>
    let gap := if lastIs isBreak line.toList then "" else "\n"
    line ++ gap ++ spaces indent ++ stack indent lines

/-- Whether a key stands on the line of its value. -/
def isShortKey (s : String) : Bool := !s.toList.any isBreak && s.utf8ByteSize ≤ 128

mutual

/-- A value behind a mark: collections begin on the same line. -/
def inlineText (indent : Nat) : Json → String
  | .array (item :: items) => stack (indent + 2) (itemTexts (indent + 2) (item :: items))
  | .object (field :: fields) => stack (indent + 2) (fieldTexts (indent + 2) (field :: fields))
  | .array [] => "[]"
  | .object [] => "\x7b\x7d"
  | .null => "null"
  | .bool b => if b then "true" else "false"
  | .int n => toString n
  | .float x => Binary64.document.text x
  | .string s => scalarText (indent + 2) false s

def itemTexts (indent : Nat) : List Json → List String
  | [] => []
  | item :: items => ("- " ++ inlineText indent item) :: itemTexts indent items

def fieldTexts (indent : Nat) : List (String × Json) → List String
  | [] => []
  | (key, value) :: fields =>
    (if isShortKey key then
      scalarText (indent + 2) true key ++ ":" ++
        match value with
        | .array (item :: items) =>
          "\n" ++ spaces indent ++ stack indent (itemTexts indent (item :: items))
        | .object (field :: fields) =>
          "\n" ++ spaces (indent + 2) ++
            stack (indent + 2) (fieldTexts (indent + 2) (field :: fields))
        | value => " " ++ inlineText indent value
    else
      stack indent ["? " ++ scalarText (indent + 2) false key, ": " ++ inlineText indent value]) ::
    fieldTexts indent fields

end

def print (j : Json) : String :=
  let text := match j with
    | .array (item :: items) => stack 0 (itemTexts 0 (item :: items))
    | .object (field :: fields) => stack 0 (fieldTexts 0 (field :: fields))
    | j => inlineText 0 j
  if lastIs isBreak text.toList then text else text ++ "\n"

end PromptAssembly.Yaml
