import PromptAssembly.Binary64.Shortest
import PromptAssembly.Json

/-!
# Writing JSON

On one line without blanks, or one item a line with two spaces of indentation for each level.
-/
namespace PromptAssembly.Json

def hexDigit (n : Nat) : Char :=
  if n < 10 then Char.ofNat ('0'.toNat + n) else Char.ofNat ('a'.toNat + (n - 10))

def hexDigitUpper (n : Nat) : Char := (hexDigit n).toUpper

/-- A quote, a backslash and the control characters below the blank are escaped. -/
def escapedChar (c : Char) : String :=
  match c with
  | '"' => "\\\""
  | '\\' => "\\\\"
  | '\n' => "\\n"
  | '\r' => "\\r"
  | '\t' => "\\t"
  | '\x08' => "\\b"
  | '\x0c' => "\\f"
  | c =>
    if c.toNat < 0x20 then
      "\\u00" ++ String.ofList [hexDigit (c.toNat / 16), hexDigit (c.toNat % 16)]
    else c.toString

def quoted (s : String) : String :=
  "\"" ++ String.join (s.toList.map escapedChar) ++ "\""

mutual

def compact : Json → String
  | .null => "null"
  | .bool b => if b then "true" else "false"
  | .int n => toString n
  | .float x => Binary64.document.text x
  | .string s => quoted s
  | .array items => "[" ++ ",".intercalate (compactItems items) ++ "]"
  | .object fields => "\x7b" ++ ",".intercalate (compactFields fields) ++ "\x7d"

def compactItems : List Json → List String
  | [] => []
  | j :: js => j.compact :: compactItems js

def compactFields : List (String × Json) → List String
  | [] => []
  | (k, j) :: fs => (quoted k ++ ":" ++ j.compact) :: compactFields fs

end

/-- Lines between brackets, indented one level deeper than the brackets. -/
def bracketed (opening closing : String) (depth : Nat) : List String → String
  | [] => opening ++ closing
  | lines =>
    let indent (n : Nat) := "\n" ++ String.ofList (List.replicate (2 * n) ' ')
    opening ++ indent (depth + 1) ++ ("," ++ indent (depth + 1)).intercalate lines ++
      indent depth ++ closing

mutual

def prettyAt (depth : Nat) : Json → String
  | .array items => bracketed "[" "]" depth (prettyItems (depth + 1) items)
  | .object fields => bracketed "\x7b" "\x7d" depth (prettyFields (depth + 1) fields)
  | j => j.compact

def prettyItems (depth : Nat) : List Json → List String
  | [] => []
  | j :: js => prettyAt depth j :: prettyItems depth js

def prettyFields (depth : Nat) : List (String × Json) → List String
  | [] => []
  | (k, j) :: fs => (quoted k ++ ": " ++ prettyAt depth j) :: prettyFields depth fs

end

def pretty (j : Json) : String := prettyAt 0 j

end PromptAssembly.Json
