import Workflow.Yaml.Layout
import Workflow.Yaml.Tag

/-!
# The nodes of a document

The tokens of a document as a tree of nodes, each with its tag. An alias stands for the node with its anchor;
a node that is neither closed nor unique in its anchor makes the document malformed.
-/

namespace Workflow.Yaml

inductive Node where
  | scalar (tag text : String)
  | sequence (tag : String) (items : List Node)
  | mapping (tag : String) (entries : List (Node × Node))

def Node.null : Node := .scalar Tag.null ""

/-- What is left of a document, and the anchors so far; one that has no node yet is still open. -/
structure Pending where
  tokens : List Token
  anchors : List (String × Option Node)

abbrev Compose := StateT Pending Option

namespace Compose

def peek : Compose (Option Token) := do return (← get).tokens.head?

def take : Compose Unit := modify fun p => { p with tokens := p.tokens.tail }

/-- Whether the next token is one of some; it is left in place. -/
def isNext (ts : List Token) : Compose Bool := do return (← peek).any ts.contains

def taken (t : Token) : Compose Bool := do
  let found ← isNext [t]
  if found then take
  return found

def expect (t : Token) : Compose Unit := do if !(← taken t) then failure

def anchor? : Compose (Option String) := do
  match ← peek with
  | some (.anchor name) => take; return some name
  | _ => return none

def tag? (handles : List (String × String)) : Compose (Option String) := do
  match ← peek with
  | some (.tag none suffix) => take; return some suffix
  | some (.tag (some handle) suffix) =>
    take
    match handles.lookup handle with
    | some start => return some (start ++ suffix)
    | none => failure
  | _ => return none

def properties (handles : List (String × String)) : Compose (Option String × Option String) := do
  match ← anchor? with
  | some name => return (some name, ← tag? handles)
  | none =>
    let tag ← tag? handles
    if tag.isSome then return (← anchor?, tag) else return (none, none)

/-- The node of an anchor that is closed. -/
def resolve (name : String) : Compose Node := do
  match (← get).anchors.lookup name with
  | some (some n) => return n
  | _ => failure

def openAnchor : Option String → Compose Unit
  | none => pure ()
  | some name => do
    if ((← get).anchors.lookup name).isSome then failure
    modify fun p => { p with anchors := (name, none) :: p.anchors }

def closeAnchor (n : Node) : Option String → Compose Unit
  | none => pure ()
  | some name => modify fun p => { p with anchors := (name, some n) :: p.anchors }

def collectionTag (tag : Option String) (otherwise : String) : String :=
  match tag with
  | none => otherwise
  | some "!" => otherwise
  | some t => t

def scalarTag (tag : Option String) (text : String) (plain : Bool) : String :=
  match tag with
  | none => if plain then Tag.ofText text else Tag.text
  | some "!" => Tag.ofText text
  | some t => t

def optional (ends : List Token) (node : Compose Node) : Compose Node := do
  if ← isNext ends then return .null else node

mutual

/-- A node. In a block it may be a block collection, and under a key a sequence without indentation. -/
def node (handles : List (String × String)) : Nat → Bool → Bool → Compose Node
  | 0, _, _ => failure
  | fuel + 1, block, unindented => do
    match ← peek with
    | some (.reference name) => take; resolve name
    | _ =>
      let (anchor, tag) ← properties handles
      openAnchor anchor
      let n ← content handles fuel block unindented tag (anchor.isSome || tag.isSome)
      closeAnchor n anchor
      return n

def content (handles : List (String × String)) : Nat → Bool → Bool → Option String → Bool → Compose Node
  | 0, _, _, _, _ => failure
  | fuel + 1, block, unindented, tag, mayBeEmpty => do
    let sequence := collectionTag tag Tag.sequence
    let mapping := collectionTag tag Tag.mapping
    match ← peek with
    | some (.scalar text plain) => take; return .scalar (scalarTag tag text plain) text
    | some .flowSequence => take; return .sequence sequence (← flowItems handles fuel true)
    | some .flowMapping => take; return .mapping mapping (← flowEntries handles fuel true)
    | t =>
      if unindented ∧ t = some .blockEntry then return .sequence sequence (← looseItems handles fuel)
      else if block ∧ t = some .blockSequence then take; return .sequence sequence (← blockItems handles fuel)
      else if block ∧ t = some .blockMapping then take; return .mapping mapping (← blockEntries handles fuel)
      -- an anchor or a tag alone is a node
      else if mayBeEmpty then return .scalar (scalarTag tag "" (tag = none ∨ tag = some "!")) ""
      else failure

def blockItems (handles : List (String × String)) : Nat → Compose (List Node)
  | 0 => failure
  | fuel + 1 => do
    if ← taken .blockEntry then
      let n ← optional [.blockEntry, .blockEnd] (node handles fuel true false)
      return n :: (← blockItems handles fuel)
    else
      expect .blockEnd
      return []

/-- The items of a sequence that is not indented. -/
def looseItems (handles : List (String × String)) : Nat → Compose (List Node)
  | 0 => failure
  | fuel + 1 => do
    if ← taken .blockEntry then
      let n ← optional [.blockEntry, .key, .value, .blockEnd] (node handles fuel true false)
      return n :: (← looseItems handles fuel)
    else return []

def blockEntries (handles : List (String × String)) : Nat → Compose (List (Node × Node))
  | 0 => failure
  | fuel + 1 => do
    let ends := [.key, .value, .blockEnd]
    if ← taken .key then
      let k ← optional ends (node handles fuel true true)
      let v ← if ← taken .value then optional ends (node handles fuel true true) else pure .null
      return (k, v) :: (← blockEntries handles fuel)
    else
      expect .blockEnd
      return []

def flowItems (handles : List (String × String)) : Nat → Bool → Compose (List Node)
  | 0, _ => failure
  | fuel + 1, first => do
    if ← taken .flowSequenceEnd then return []
    if !first then expect .flowEntry
    -- a key among the items makes a mapping of one entry
    if ← taken .key then
      let k ← optional [.value, .flowEntry, .flowSequenceEnd] (node handles fuel false false)
      let v ← if ← taken .value then optional [.flowEntry, .flowSequenceEnd] (node handles fuel false false)
        else pure .null
      return .mapping Tag.mapping [(k, v)] :: (← flowItems handles fuel false)
    else if ← taken .flowSequenceEnd then return []
    else
      let n ← node handles fuel false false
      return n :: (← flowItems handles fuel false)

def flowEntries (handles : List (String × String)) : Nat → Bool → Compose (List (Node × Node))
  | 0, _ => failure
  | fuel + 1, first => do
    if ← taken .flowMappingEnd then return []
    if !first then expect .flowEntry
    if ← taken .key then
      let k ← optional [.value, .flowEntry, .flowMappingEnd] (node handles fuel false false)
      let v ← if ← taken .value then optional [.flowEntry, .flowMappingEnd] (node handles fuel false false)
        else pure .null
      return (k, v) :: (← flowEntries handles fuel false)
    else if ← taken .flowMappingEnd then return []
    else
      let k ← node handles fuel false false
      return (k, .null) :: (← flowEntries handles fuel false)

end

/-! ## Documents -/

def commonHandles : List (String × String) := [("!", "!"), ("!!", Tag.common)]

/-- The directives in front of a document: its handles of tags. One version, the first, may be given. -/
def directives : Nat → Bool → List (String × String) → Compose (List (String × String))
  | 0, _, _ => failure
  | fuel + 1, versioned, handles => do
    match ← peek with
    | some (.directive (.version major)) =>
      take
      if versioned ∨ major ≠ 1 then failure
      directives fuel true handles
    | some (.directive (.tag handle start)) =>
      take
      if (handles.lookup handle).isSome then failure
      directives fuel versioned ((handle, start) :: handles)
    | some (.directive .other) => take; directives fuel versioned handles
    | _ => return handles ++ commonHandles

def dropEnds : Nat → Compose Unit
  | 0 => failure
  | fuel + 1 => do if ← taken .documentEnd then dropEnds fuel

def isBare : Option Token → Bool
  | some (.directive _) => false
  | some .documentStart => false
  | some .streamEnd => false
  | _ => true

def endsContent : Option Token → Bool
  | some (.directive _) => true
  | some .documentStart => true
  | some .documentEnd => true
  | some .streamEnd => true
  | _ => false

/-- The only document of a stream; none when the stream is empty. -/
def stream (fuel : Nat) : Compose (Option Node) := do
  let document ← if isBare (← peek) then do
      pure (some (← node commonHandles fuel true false))
    else do
      if ← isNext [.streamEnd] then pure none
      else
        let handles ← directives fuel false []
        expect .documentStart
        if endsContent (← peek) then pure (some Node.null)
        else pure (some (← node handles fuel true false))
  dropEnds fuel
  expect .streamEnd
  return document

end Compose

/-- The document of a text: nothing when the text is malformed, and no node when it holds none. -/
def document? (text : List Char) : Option (Option Node) := do
  let ts ← tokens? text
  -- a node within a node takes three calls and a token at least
  (Compose.stream (4 * ts.length + 8)).run' ⟨ts, []⟩

end Workflow.Yaml
