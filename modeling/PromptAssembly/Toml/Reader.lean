import PromptAssembly.Toml.Scalar
import PromptAssembly.Toml.Table

/-!
# Reading TOML

Statements end with their line. Values become JSON values, whose arrays may run over several lines.
-/
namespace PromptAssembly.Toml
open Text (digits?)

def isBlank (c : Char) : Bool := c = ' ' || c = '\t'

def skipBlanks (s : List Char) : List Char := s.dropWhile isBlank

/-- What may stand in a comment or a text: no control character but the tab. -/
def isPrintable (c : Char) : Bool := c = '\t' || (0x20 ≤ c.toNat && c.toNat ≠ 0x7F)

def skipComment : List Char → List Char
  | '#' :: s => s.dropWhile isPrintable
  | s => s

def skipGap (fuel : Nat) (s : List Char) : List Char :=
  match fuel, skipComment (skipBlanks s) with
  | fuel + 1, '\n' :: s => skipGap fuel s
  | _, s => s

def simpleEscape? : Char → Option Char
  | 'b' => some '\x08'
  | 't' => some '\t'
  | 'n' => some '\n'
  | 'f' => some '\x0c'
  | 'r' => some '\r'
  | '"' => some '"'
  | '\\' => some '\\'
  | _ => none

/-- The character behind a backslash. -/
def readEscape : List Char → Option (Char × List Char)
  | 'u' :: s => unicode 4 s
  | 'U' :: s => unicode 8 s
  | e :: s => (simpleEscape? e).map (·, s)
  | [] => none
where
  unicode (width : Nat) (s : List Char) : Option (Char × List Char) := do
    if s.length < width then none
    let n ← digits? 16 (s.take width)
    if (0xD800 ≤ n && n ≤ 0xDFFF) || 0x10FFFF < n then none
    return (Char.ofNat n, s.drop width)

/-- What follows a backslash at the end of a line, blanks and breaks skipped. -/
def afterLineEnd? (s : List Char) : Option (List Char) :=
  match skipBlanks s with
  | '\n' :: s => some (s.dropWhile fun c => isBlank c || c = '\n')
  | _ => none

/-- The rest of a text whose opening quotes have been read; `done` holds the characters so far, last
first. A long text runs over lines and ends with three quotes, before which two more may stand. -/
def readText (fuel : Nat) (quote : Char) (long : Bool) (done : List Char) (s : List Char) :
    Option (String × List Char) :=
  match fuel, s with
  | 0, _ | _, [] => none
  | fuel + 1, c :: rest =>
    let finish (done : List Char) : String := String.ofList done.reverse
    if c = quote then
      let run := s.takeWhile (· = quote)
      if !long then some (finish done, rest)
      else if run.length < 3 then readText fuel quote long (run ++ done) (s.drop run.length)
      else if 5 < run.length then none
      else some (finish (run.drop 3 ++ done), s.drop run.length)
    else if c = '\\' && quote = '"' then
      match if long then afterLineEnd? rest else none with
      | some rest => readText fuel quote long done rest
      | none => do
        let (e, rest) ← readEscape rest
        readText fuel quote long (e :: done) rest
    else if isPrintable c || (long && c = '\n') then readText fuel quote long (c :: done) rest
    else none

def readString (s : List Char) : Option (String × List Char) :=
  let fuel := s.length
  match s with
  | '"' :: '"' :: '"' :: '\n' :: s | '"' :: '"' :: '"' :: s => readText fuel '"' true [] s
  | '\'' :: '\'' :: '\'' :: '\n' :: s | '\'' :: '\'' :: '\'' :: s => readText fuel '\'' true [] s
  | '"' :: s => readText fuel '"' false [] s
  | '\'' :: s => readText fuel '\'' false [] s
  | _ => none

def isBare (c : Char) : Bool := c.isAlphanum || c = '_' || c = '-'

/-- One name of a key. A quoted one stays on its line. -/
def readName (s : List Char) : Option (String × List Char) :=
  match s with
  | '"' :: t => readText s.length '"' false [] t
  | '\'' :: t => readText s.length '\'' false [] t
  | s =>
    let name := s.takeWhile isBare
    if name.isEmpty then none else some (String.ofList name, s.drop name.length)

/-- How many names a key has, and how deep values nest, at most. -/
def limit : Nat := 79

def readKey (fuel : Nat) (tables : List String) (s : List Char) : Option (Key × List Char) :=
  match fuel with
  | 0 => none
  | fuel + 1 => do
    let (name, s) ← readName (skipBlanks s)
    match skipBlanks s with
    | '.' :: s => readKey fuel (tables ++ [name]) s
    | s => return (⟨tables, name⟩, s)

mutual

def readValue (fuel depth : Nat) (s : List Char) : Option (Json × List Char) :=
  match fuel with
  | 0 => none
  | fuel + 1 =>
    match s, depth with
    | '"' :: _, _ | '\'' :: _, _ => (readString s).map fun (t, s) => (.string t, s)
    | '[' :: s, depth + 1 =>
      (readItems fuel depth s).map fun (items, s) => (.array items, s)
    | '\x7b' :: s, depth + 1 => do
      let (entries, s) ← match skipBlanks s with
        | '\x7d' :: s => some ([], s)
        | s => readEntries fuel depth s
      return (.object (← fieldsOf? entries), s)
    | s, _ => readScalar s

/-- The rest of an array whose bracket has been opened. -/
def readItems (fuel depth : Nat) (s : List Char) : Option (List Json × List Char) :=
  match fuel with
  | 0 => none
  | fuel + 1 =>
    match skipGap s.length s with
    | ']' :: s => some ([], s)
    | s => do
      let (item, s) ← readValue fuel depth s
      match skipGap s.length s with
      | ',' :: s =>
        let (items, s) ← readItems fuel depth s
        return (item :: items, s)
      | ']' :: s => return ([item], s)
      | _ => none

/-- One or more entries of an inline table, up to its closing brace. -/
def readEntries (fuel depth : Nat) (s : List Char) : Option (List Statement × List Char) :=
  match fuel with
  | 0 => none
  | fuel + 1 => do
    let (entry, s) ← readEntry fuel depth s
    match skipBlanks s with
    | ',' :: s =>
      let (entries, s) ← readEntries fuel depth s
      return (entry :: entries, s)
    | '\x7d' :: s => return ([entry], s)
    | _ => none

def readEntry (fuel depth : Nat) (s : List Char) : Option (Statement × List Char) :=
  match fuel with
  | 0 => none
  | fuel + 1 => do
    match ← readKey limit [] s with
    | (key, '=' :: s) =>
      let (value, s) ← readValue fuel depth (skipBlanks s)
      return (.entry key value, s)
    | _ => none

end

def readStatement (s : List Char) : Option (Statement × List Char) :=
  match s with
  | '[' :: '[' :: s => do
    match ← readKey limit [] s with
    | (key, ']' :: ']' :: s) => return (.element key, s)
    | _ => none
  | '[' :: s => do
    match ← readKey limit [] s with
    | (key, ']' :: s) => return (.table key, s)
    | _ => none
  | s => readEntry (3 * s.length + 3) limit s

/-- The statements of a document, each on lines of its own. -/
def readStatements (fuel : Nat) (s : List Char) : Option (List Statement) :=
  match fuel, skipGap s.length s with
  | _, [] => some []
  | 0, _ => none
  | fuel + 1, s => do
    let (statement, s) ← readStatement s
    match skipComment (skipBlanks s) with
    | [] => return [statement]
    | '\n' :: s => return statement :: (← readStatements fuel s)
    | _ => none

/-- Line breaks without the carriage returns before them; one elsewhere is an error. -/
def unixLines? : List Char → Option (List Char)
  | [] => some []
  | '\r' :: '\n' :: s => (unixLines? s).map ('\n' :: ·)
  | c :: s => if c = '\r' then none else (unixLines? s).map (c :: ·)

/-- The fields of a whole document, which a byte order mark may open. -/
def parse? (text : String) : Option (List (String × Json)) := do
  let s := match text.toList with
    | '\uFEFF' :: s => s
    | s => s
  let s ← unixLines? s
  fieldsOf? (← readStatements s.length s)

end PromptAssembly.Toml
