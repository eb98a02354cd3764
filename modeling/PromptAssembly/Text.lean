/-!
# Texts

Blanks are the characters with Unicode's property White_Space. A quoted text stands between double
quotes, with everything escaped that would not show. Bytes may be read as UTF-8 with a replacement
character for whatever is none.
-/
namespace PromptAssembly.Text

/-- First and last character of each run. -/
def blankRuns : List (Nat × Nat) :=
  [(0x09, 0x0D), (0x20, 0x20), (0x85, 0x85), (0xA0, 0xA0), (0x1680, 0x1680), (0x2000, 0x200A),
   (0x2028, 0x2029), (0x202F, 0x202F), (0x205F, 0x205F), (0x3000, 0x3000)]

def isBlank (c : Char) : Bool := blankRuns.any fun (first, last) => first ≤ c.toNat && c.toNat ≤ last

def trimChars (s : List Char) : List Char :=
  ((s.dropWhile isBlank).reverse.dropWhile isBlank).reverse

def trim (s : String) : String := String.ofList (trimChars s.toList)

def allBlank (s : String) : Bool := s.toList.all isBlank

def hexDigits (n : Nat) : String := String.ofList (Nat.toDigits 16 n)

def quotedChar (c : Char) : String :=
  match c with
  | '"' => "\\\""
  | '\\' => "\\\\"
  | '\n' => "\\n"
  | '\r' => "\\r"
  | '\t' => "\\t"
  | '\x00' => "\\0"
  | c =>
    if c.toNat < 0x20 || (0x7F ≤ c.toNat && c.toNat < 0xA0) then
      "\\u\x7b" ++ hexDigits c.toNat ++ "\x7d"
    else c.toString

def quoted (s : String) : String := "\"" ++ String.join (s.toList.map quotedChar) ++ "\""

/-- A character of which some bytes have been read: its bits so far, and the first and last of what
each further byte may be. -/
abbrev Unfinished := Nat × List (Nat × Nat)

/-- What a byte comes to where a character starts. -/
def firstByte (b : Nat) : List Char × Option Unfinished :=
  let further := (0x80, 0xBF)
  if b < 0x80 then ([Char.ofNat b], none)
  else if 0xC2 ≤ b && b < 0xE0 then ([], some (b - 0xC0, [further]))
  else if 0xE0 ≤ b && b < 0xF0 then
    let second := (if b = 0xE0 then 0xA0 else 0x80, if b = 0xED then 0x9F else 0xBF)
    ([], some (b - 0xE0, [second, further]))
  else if 0xF0 ≤ b && b < 0xF5 then
    let second := (if b = 0xF0 then 0x90 else 0x80, if b = 0xF4 then 0x8F else 0xBF)
    ([], some (b - 0xF0, [second, further, further]))
  else (['\uFFFD'], none)

/-- What a byte comes to behind an unfinished character. -/
def nextByte (u : Unfinished) (b : Nat) : List Char × Option Unfinished :=
  match u with
  | (bits, (first, last) :: rest) =>
    if first ≤ b && b ≤ last then
      let bits := 64 * bits + (b - 0x80)
      if rest.isEmpty then ([Char.ofNat bits], none) else ([], some (bits, rest))
    else
      let (done, u) := firstByte b
      ('\uFFFD' :: done, u)
  | (_, []) => firstByte b

def replacing (u : Option Unfinished) : List UInt8 → List Char
  | [] => if u.isSome then ['\uFFFD'] else []
  | b :: bs =>
    let (done, u) := (u.map (nextByte · b.toNat)).getD (firstByte b.toNat)
    done ++ replacing u bs

def lossy (bytes : ByteArray) : String :=
  (String.fromUTF8? bytes).getD (String.ofList (replacing none bytes.toList))

end PromptAssembly.Text
