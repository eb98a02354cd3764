import PromptAssembly.Yaml.Token

/-!
# Nodes of YAML

The tree of scalars, sequences and mappings that tokens describe. While the tree is built, a node
that carries an anchor gets a number, and an alias is a node of its own; afterwards aliases are
replaced by what they stand for (`Node.expand`).
-/
namespace PromptAssembly.Yaml

inductive Node where
  | scalar (tag : Option String) (style : ScalarStyle) (text : String)
  | sequence (tag : Option String) (items : List Node)
  | mapping (tag : Option String) (entries : List (Node × Node))
  /-- Left in a document only where it nests too deep to be read. -/
  | alias (anchor : Nat)
  deriving Repr, Inhabited

namespace Node

def empty : Node := .scalar none .plain ""

structure Builder where
  tokens : List Token
  /-- What a tag handle stands for. -/
  handles : List (String × String)
  /-- Numbers of the anchors known by name. A name that is given again takes the next number, which
  the name after it may take too. -/
  anchors : List (String × Nat) := []
  /-- Which of the anchored nodes, in order of appearance, each number stands for; the latest
  first. -/
  owners : List (Nat × Nat) := []
  anchored : List (Nat × Node) := []
  /-- How many events the document consists of, a collection counting for its begin and end. -/
  events : Nat := 0

abbrev Build := StateT Builder Option

namespace Build

def peek : Build (Option Token) := return (← get).tokens.head?

def drop : Build Unit := modify fun b => { b with tokens := b.tokens.drop 1 }

def count (n : Nat) : Build Unit := modify fun b => { b with events := b.events + n }

def facing (ts : List Token) : Build Bool :=
  return match (← get).tokens with
    | t :: _ => ts.contains t
    | [] => false

def expect (t : Token) : Build Unit := do
  if !(← facing [t]) then failure
  drop

def emptyNode : Build Node := do
  count 1
  return Node.empty

/-- The number of a new anchor, and the place of its node among the anchored nodes. -/
def newAnchor (name : String) : Build Nat := do
  let b ← get
  let number := b.anchors.length
  let anchors := (name, number) :: b.anchors.filter (·.1 ≠ name)
  set { b with anchors, owners := (number, b.owners.length) :: b.owners }
  return b.owners.length

def remember (place : Option Nat) (n : Node) : Build Node := do
  if let some i := place then
    modify fun b => { b with anchored := (i, n) :: b.anchored }
  return n

/-- Anchor and tag in front of a node, in either order. -/
def properties : Build (Option Nat × Option String) := do
  let anchor : Build (Option Nat) := do
    match ← peek with
    | some (.anchor name) =>
      drop
      return some (← newAnchor name)
    | _ => return none
  let tag : Build (Option String) := do
    match ← peek with
    | some (.tag handle suffix) =>
      drop
      if handle.isEmpty then return some suffix
      match (← get).handles.lookup handle with
      | some start => return some (start ++ suffix)
      | none => failure
    | _ => return none
  match ← anchor with
  | some a => return (some a, ← tag)
  | none =>
    let t ← tag
    return (← anchor, t)

mutual

/-- One node. Outside brackets block collections may begin; `indentless` tells whether a sequence
may stand at the column of the key before it. -/
def node (fuel : Nat) (block indentless : Bool) : Build Node := do
  match fuel with
  | 0 => failure
  | fuel + 1 =>
    if let some (.alias name) ← peek then
      drop
      count 1
      match (← get).anchors.lookup name with
      | some number => return .alias number
      | none => failure
    let (anchor, tag) ← properties
    let collection (build : Build Node) : Build Node := do
      drop
      count 2
      remember anchor (← build)
    match ← peek, block with
    | some (.scalar style text), _ =>
      drop
      count 1
      remember anchor (.scalar (if tag = some "!" then none else tag) style text)
    | some .flowSequenceStart, _ =>
      collection do return .sequence tag (← flowSequence fuel true)
    | some .flowMappingStart, _ =>
      collection do return .mapping tag (← flowMapping fuel true)
    | some .blockSequenceStart, true =>
      collection do return .sequence tag (← blockSequence fuel)
    | some .blockMappingStart, true =>
      collection do return .mapping tag (← blockMapping fuel)
    | next, _ =>
      if indentless && next = some .blockEntry then
        count 2
        remember anchor (.sequence tag (← indentlessSequence fuel))
      else if anchor.isSome || tag.isSome then
        count 1
        remember anchor (.scalar tag .plain "")
      else failure

def blockSequence (fuel : Nat) : Build (List Node) := do
  match fuel with
  | 0 => failure
  | fuel + 1 =>
    if ← facing [.blockEnd] then
      drop
      return []
    expect .blockEntry
    let item ←
      if ← facing [.blockEntry, .blockEnd] then emptyNode else node fuel true false
    return item :: (← blockSequence fuel)

def indentlessSequence (fuel : Nat) : Build (List Node) := do
  match fuel with
  | 0 => failure
  | fuel + 1 =>
    if !(← facing [.blockEntry]) then return []
    drop
    let item ←
      if ← facing [.blockEntry, .key, .value, .blockEnd] then emptyNode else node fuel true false
    return item :: (← indentlessSequence fuel)

def blockMapping (fuel : Nat) : Build (List (Node × Node)) := do
  match fuel with
  | 0 => failure
  | fuel + 1 =>
    if ← facing [.blockEnd] then
      drop
      return []
    expect .key
    let part : Build Node := do
      if ← facing [.key, .value, .blockEnd] then emptyNode else node fuel true true
    let key ← part
    let value ←
      if ← facing [.value] then
        drop
        part
      else emptyNode
    return (key, value) :: (← blockMapping fuel)

/-- A key among the items of a sequence begins a mapping of one entry. Where nothing stands between
the key's mark and the token that ends it, that token is lost. -/
def flowSequence (fuel : Nat) (first : Bool) : Build (List Node) := do
  match fuel with
  | 0 => failure
  | fuel + 1 =>
    if ← facing [.flowSequenceEnd] then
      drop
      return []
    if !first then
      expect .flowEntry
      if ← facing [.flowSequenceEnd] then
        drop
        return []
    let item ←
      if ← facing [.key] then
        drop
        count 2
        let key ←
          if ← facing [.value, .flowEntry, .flowSequenceEnd] then
            drop
            emptyNode
          else node fuel false false
        let value ←
          if ← facing [.value] then
            drop
            if ← facing [.flowEntry, .flowSequenceEnd] then emptyNode else node fuel false false
          else emptyNode
        pure (.mapping none [(key, value)])
      else node fuel false false
    return item :: (← flowSequence fuel false)

def flowMapping (fuel : Nat) (first : Bool) : Build (List (Node × Node)) := do
  match fuel with
  | 0 => failure
  | fuel + 1 =>
    if ← facing [.flowMappingEnd] then
      drop
      return []
    if !first then
      expect .flowEntry
      if ← facing [.flowMappingEnd] then
        drop
        return []
    let entry ←
      if ← facing [.key] then
        drop
        let key ←
          if ← facing [.value, .flowEntry, .flowMappingEnd] then emptyNode
          else node fuel false false
        let value ←
          if ← facing [.value] then
            drop
            if ← facing [.flowEntry, .flowMappingEnd] then emptyNode else node fuel false false
          else emptyNode
        pure (key, value)
      else pure (← node fuel false false, ← emptyNode)
    return entry :: (← flowMapping fuel false)

end

/-- Directives in front of a document: at most one version, which has to be 1.1 or 1.2, and tag
handles with different names. -/
def directives (fuel : Nat) (versioned : Bool) (handles : List (String × String)) : Build Unit := do
  match fuel, ← peek with
  | fuel + 1, some (.versionDirective major minor) =>
    if versioned || major ≠ 1 || (minor ≠ 1 && minor ≠ 2) then failure
    drop
    directives fuel true handles
  | fuel + 1, some (.tagDirective handle start) =>
    if (handles.lookup handle).isSome then failure
    drop
    directives fuel versioned ((handle, start) :: handles)
  | _, _ => modify fun b => { b with handles := handles ++ b.handles }

/-- The only document of a text, absent if there is none. -/
def document : Build Node := do
  let fuel := 2 * (← get).tokens.length + 4
  let marked ← match ← peek with
    | some (.versionDirective _ _) | some (.tagDirective _ _) | some .documentStart => pure true
    | _ => pure false
  let root ←
    if (← peek).isNone then pure Node.empty
    else if marked then
      directives fuel false []
      expect .documentStart
      match ← peek with
      | none | some (.versionDirective _ _) | some (.tagDirective _ _) | some .documentStart
      | some .documentEnd => emptyNode
      | _ => node fuel true false
    else node fuel true false
  modify fun b => { b with tokens := b.tokens.dropWhile (· = .documentEnd) }
  if (← peek).isSome then failure
  return root

end Build

/-- The node an alias stands for, as long as the document has not used up its aliases. -/
def follow (target : Nat → Option Node) (n : Node) : StateM Nat Node := do
  match n with
  | .alias anchor =>
    match ← get, target anchor with
    | left + 1, some m =>
      set left
      return m
    | _, _ => return n
  | n => return n

/-- Replaces aliases in a tree of at most `depth` nested collections; what is deeper turns into an
alias that cannot be read. -/
def expand (target : Nat → Option Node) : Nat → Node → StateM Nat Node
  | _, .scalar tag style text => return .scalar tag style text
  | depth + 1, .sequence tag items => do
    return .sequence tag (← items.mapM fun n => do expand target depth (← follow target n))
  | depth + 1, .mapping tag entries => do
    return .mapping tag (← entries.mapM fun e => do
      return (← expand target depth (← follow target e.1),
        ← expand target depth (← follow target e.2)))
  | _, .alias anchor => return .alias anchor
  | 0, _ => return .alias 0

/-- Collections may nest this deep. -/
def maxDepth : Nat := 128

/-- Predefined tag handles. -/
def standardHandles : List (String × String) := [("!", "!"), ("!!", "tag:yaml.org,2002:")]

def ofTokens? (tokens : List Token) : Option Node := do
  let (root, b) ← Build.document.run { tokens, handles := standardHandles }
  let target (number : Nat) : Option Node := do b.anchored.lookup (← b.owners.lookup number)
  return ((expand target maxDepth root).run (100 * b.events)).1

def parse? (text : String) : Option Node := do ofTokens? (← tokens? text)

end Node
end PromptAssembly.Yaml
