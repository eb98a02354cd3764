/-!
# Paths

A path is a text whose parts are set apart by slashes. Empty parts and single dots stay where they
are; they only show when the path is followed.
-/
namespace PromptAssembly.Files

abbrev Path := String

def splitParts : List Char → List (List Char)
  | [] => [[]]
  | c :: s =>
    if c = '/' then [] :: splitParts s
    else match splitParts s with
      | part :: parts => (c :: part) :: parts
      | [] => [[c]]

theorem splitParts_ne_nil (s : List Char) : splitParts s ≠ [] := by
  cases s with
  | nil => simp [splitParts]
  | cons c s =>
    unfold splitParts
    split
    · simp
    · split <;> simp

theorem slash_not_mem_of_mem_splitParts {s part : List Char} (h : part ∈ splitParts s) :
    '/' ∉ part := by
  induction s generalizing part with
  | nil => simp_all [splitParts]
  | cons c s ih =>
    unfold splitParts at h
    split at h
    · rcases List.mem_cons.1 h with rfl | h
      · simp
      · exact ih h
    · next hc =>
      cases hs : splitParts s with
      | nil => exact absurd hs (splitParts_ne_nil s)
      | cons p ps =>
        rw [hs] at h ih
        rcases List.mem_cons.1 h with rfl | h
        · simpa [Ne.symm hc] using @ih p (by simp)
        · exact ih (by simp [h])

namespace Path

def parts (p : Path) : List String := (splitParts p.toList).map String.ofList

def isAbsolute (p : Path) : Bool := p.startsWith "/"

/-- A path inside a directory. An absolute path stands for itself. -/
def join (dir rest : Path) : Path :=
  if isAbsolute rest || dir.isEmpty then rest
  else if dir.endsWith "/" then dir ++ rest
  else dir ++ "/" ++ rest

/-- Whether the path stays below the directory it is joined to. -/
def isConfined (p : Path) : Bool := !isAbsolute p && !(parts p).contains ".."

/-- The parts that lead somewhere: dots count in front only. -/
def steps (p : Path) : List String :=
  match parts p with
  | "." :: rest => "." :: rest.filter fun s => s ≠ "" && s ≠ "."
  | rest => rest.filter fun s => s ≠ "" && s ≠ "."

def fileName? (p : Path) : Option String :=
  match (steps p).getLast? with
  | some "." | some ".." => none
  | name => name

/-- What follows the last dot of the name, unless nothing precedes it. -/
def extension? (p : Path) : Option String := do
  let reversed := (← fileName? p).toList.reverse
  let after := reversed.takeWhile (· ≠ '.')
  match reversed.drop after.length with
  | '.' :: _ :: _ => return String.ofList after.reverse
  | _ => none

def parent? (p : Path) : Option Path :=
  match (steps p).reverse with
  | [] => none
  | [_] => some (if isAbsolute p then "/" else "")
  | _ :: rest =>
    some ((if isAbsolute p then "/" else "") ++ "/".intercalate rest.reverse)

end Path
end PromptAssembly.Files
