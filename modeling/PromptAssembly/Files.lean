import PromptAssembly.Dict
import PromptAssembly.Files.Path

/-!
# Files

A file system: directories, files with their bytes and symbolic links, each under the names that
lead to it from the root, and a working directory from which relative paths start. Files and
directories may refuse to be changed, and a file may run out of room while it is written. Operations
fail as a system call would, and say so in its words. Left out are permissions that hide files or
directories, special files, and other programs that work on the same files meanwhile: so whatever a
directory holds can be listed, and what can be found can be read.
-/
namespace PromptAssembly

namespace Files

inductive Fault where
  | notFound
  | alreadyThere
  | notDirectory
  | isDirectory
  | nameTooLong
  | tooManyLinks
  | noSpace
  | denied
  | readOnly
  | nulInName
  | invalidText
  | noParent
  deriving DecidableEq, Repr

def Fault.message : Fault → String
  | .notFound => "No such file or directory (os error 2)"
  | .alreadyThere => "File exists (os error 17)"
  | .notDirectory => "Not a directory (os error 20)"
  | .isDirectory => "Is a directory (os error 21)"
  | .nameTooLong => "File name too long (os error 36)"
  | .tooManyLinks => "Too many levels of symbolic links (os error 40)"
  | .noSpace => "No space left on device (os error 28)"
  | .denied => "Permission denied (os error 13)"
  | .readOnly => "Read-only file system (os error 30)"
  | .nulInName => "file name contained an unexpected NUL byte"
  | .invalidText => "stream did not contain valid UTF-8"
  | .noParent => "failed to create whole tree"

inductive Entry where
  | directory
  | file (content : ByteArray)
  /-- A symbolic link, with the path to be followed in its place. -/
  | link (target : Path)

def Entry.isDirectory : Entry → Bool
  | .directory => true
  | _ => false

def Entry.isFile : Entry → Bool
  | .file _ => true
  | _ => false

/-- The key of the entry that these names lead to. -/
def location (names : List String) : String := String.join (names.map ("/" ++ ·))

end Files

open Files

structure Files where
  entries : Dict Entry := Dict.empty
  /-- Names that lead from the root to the working directory. -/
  working : List String := []
  /-- What keeps the file at a location from being written, or the directory from new entries. -/
  refusal : String → Option Fault := fun _ => none
  /-- How many bytes can still be written to a file, and what is wrong with more. -/
  room : Option (Nat × Fault) := none

namespace Files

def entryAt? (f : Files) (names : List String) : Option Entry :=
  if names.isEmpty then some .directory else f.entries.get? (location names)

def hasDirectory (f : Files) (names : List String) : Bool :=
  (f.entryAt? names).any Entry.isDirectory

/-- Whether the file or the directory that these names lead to may be changed. -/
def allow (f : Files) (names : List String) : Except Fault Unit :=
  match f.refusal (location names) with
  | some fault => .error fault
  | none => .ok ()

def put (f : Files) (names : List String) (e : Entry) : Files :=
  { f with entries := f.entries.insert (location names) e }

def maxLinks : Nat := 40

/-- Follows the parts of a path from the directory that `names` lead to, and hands over at a link.
A `new` file may be made where the last part is missing. -/
def walkWith (f : Files) (new : Bool)
    (follow : (names : List String) → (target : Path) → List String → Except Fault (List String))
    (names : List String) : List String → Except Fault (List String)
  | [] => .ok names
  | part :: parts =>
    if !f.hasDirectory names then .error .notDirectory
    else if part = "" ∨ part = "." then f.walkWith new follow names parts
    else if part = ".." then f.walkWith new follow names.dropLast parts
    else if 255 < part.utf8ByteSize then .error .nameTooLong
    -- no file is made with slashes behind its name
    else if new && !parts.isEmpty && parts.all String.isEmpty then .error .isDirectory
    else match f.entryAt? (names ++ [part]) with
      | none => if new && parts.isEmpty then .ok (names ++ [part]) else .error .notFound
      | some (.link target) => follow names target parts
      | some _ => f.walkWith new follow (names ++ [part]) parts

/-- Goes on from a link in the directory `names`, with so many more links at most. -/
def follow (f : Files) (new : Bool) : (links : Nat) → (names : List String) → (target : Path) →
    (parts : List String) → Except Fault (List String)
  | 0, _, _, _ => .error .tooManyLinks
  | links + 1, names, target, parts =>
    f.walkWith new (f.follow new links) (if target.isAbsolute then [] else names)
      (target.parts ++ parts)

def walk (f : Files) (new : Bool) (links : Nat) : (names parts : List String) →
    Except Fault (List String) :=
  f.walkWith new (f.follow new links)

/-- Where a path starts, if it can be a path at all. -/
def start (f : Files) (p : Path) : Except Fault (List String) :=
  if p.toList.contains '\x00' then .error .nulInName
  else if p.isEmpty then .error .notFound
  else if 4096 ≤ p.utf8ByteSize then .error .nameTooLong
  else .ok (if p.isAbsolute then [] else f.working)

/-- The names that a path leads to. -/
def resolve (f : Files) (p : Path) : Except Fault (List String) := do
  f.walk false maxLinks (← f.start p) p.parts

def find (f : Files) (p : Path) : Except Fault Entry := do
  match f.entryAt? (← f.resolve p) with
  | some e => return e
  | none => throw .notFound

def contains (f : Files) (p : Path) : Bool := (f.find p).toOption.isSome

def isFile (f : Files) (p : Path) : Bool := (f.find p).toOption.any Entry.isFile

def isDirectory (f : Files) (p : Path) : Bool := (f.find p).toOption.any Entry.isDirectory

def readText (f : Files) (p : Path) : Except Fault String := do
  match ← f.find p with
  | .file content =>
    match String.fromUTF8? content with
    | some s => return s
    | none => throw .invalidText
  | _ => throw .isDirectory

def children (f : Files) (names : List String) : List (String × Entry) :=
  let start := location names ++ "/"
  f.entries.entries.filterMap fun (key, e) =>
    match key.dropPrefix? start with
    | some name => if name.copy.toList.contains '/' then none else some (name.copy, e)
    | none => none

/-- The entries of the directory that a path leads to, links among them. None has to be passed over
because it cannot be looked at, as permissions hide nothing. -/
def list (f : Files) (p : Path) : List (String × Entry) :=
  match f.resolve p with
  | .ok names => if f.hasDirectory names then f.children names else []
  | .error _ => []

/-- The directory in which the last part of a path is to be made, that part, and whether slashes
follow it. The part is empty for the root, a dot or two dots. -/
def place (f : Files) (p : Path) : Except Fault (List String × String × Bool) := do
  let start ← f.start p
  match p.parts.reverse.dropWhile (· = "") with
  | [] => return (start, "", true)
  | last :: before =>
    let names ← f.walk false maxLinks start before.reverse
    if !f.hasDirectory names then throw .notDirectory
    if last = "." ∨ last = ".." then return (← f.walk false maxLinks names [last], "", true)
    if 255 < last.utf8ByteSize then throw .nameTooLong
    return (names, last, p.endsWith "/")

/-- Opens a file for writing, making it if need be; `change` turns what it holds into what it will
hold. A link at the end of the path is followed, even to where nothing is yet. -/
def openFile (f : Files) (p : Path) (change : ByteArray → ByteArray) : Except Fault Files := do
  let names ← f.walk true maxLinks (← f.start p) p.parts
  match f.entryAt? names with
  | some (.file content) =>
    f.allow names
    return f.put names (.file (change content))
  | none =>
    f.allow names.dropLast
    return f.put names (.file (change ByteArray.empty))
  | some _ => throw .isDirectory

def write (f : Files) (p : Path) (content : ByteArray) : Except Fault Files :=
  f.openFile p fun _ => content

/-- As much of a content as there is room for, and what comes of it. -/
def fitting (room : Option (Nat × Fault)) (content : ByteArray) : ByteArray × Except Fault Unit :=
  match room with
  | some (size, fault) =>
    if size < content.size then (content.extract 0 size, .error fault) else (content, .ok ())
  | none => (content, .ok ())

/-- Writes a file as long as there is room. What has been written stays there when a fault occurs. -/
def overwrite (f : Files) (p : Path) (content : ByteArray) : Except Fault Unit × Files :=
  let (part, result) := fitting f.room content
  match f.write p part with
  | .ok f => (result, f)
  | .error fault => (.error fault, f)

/-- Makes sure that a file is there to be appended to. -/
def touch (f : Files) (p : Path) : Except Fault Files := f.openFile p id

def makeDirectory (f : Files) (p : Path) : Except Fault Files := do
  let (names, name, _) ← f.place p
  if name.isEmpty || (f.entryAt? (names ++ [name])).isSome then throw .alreadyThere
  f.allow names
  return f.put (names ++ [name]) .directory

/-- Makes a directory and those above it that are missing. Some of them may have been made when a
fault occurs. -/
def makeDirectories (fuel : Nat) (f : Files) (p : Path) : Except Fault Unit × Files :=
  if p.isEmpty then (.ok (), f) else
  let check (f : Files) (e : Fault) : Except Fault Unit × Files :=
    (if f.isDirectory p then .ok () else .error e, f)
  match f.makeDirectory p with
  | .ok f => (.ok (), f)
  | .error .notFound =>
    match fuel, p.parent? with
    | fuel + 1, some parent =>
      match f.makeDirectories fuel parent with
      | (.error e, f) => (.error e, f)
      | (.ok (), f) =>
        match f.makeDirectory p with
        | .ok f => (.ok (), f)
        | .error e => check f e
    | _, _ => (.error .noParent, f)
  | .error e => check f e

def createAll (f : Files) (p : Path) : Except Fault Unit × Files :=
  f.makeDirectories p.length p

def remove (f : Files) (p : Path) : Except Fault Files := do
  let (names, name, slashed) ← f.place p
  if name.isEmpty then throw .isDirectory
  match f.entryAt? (names ++ [name]) with
  | some .directory => throw .isDirectory
  | some _ =>
    if slashed then throw .notDirectory
    f.allow names
    return { f with entries := f.entries.erase (location (names ++ [name])) }
  | none => throw .notFound

def makeLink (f : Files) (p target : Path) : Except Fault Files := do
  let (names, name, slashed) ← f.place p
  if name.isEmpty || (f.entryAt? (names ++ [name])).isSome then throw .alreadyThere
  if slashed then throw .notFound
  f.allow names
  return f.put (names ++ [name]) (.link target)

end Files
end PromptAssembly
