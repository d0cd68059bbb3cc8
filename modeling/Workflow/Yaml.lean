import Workflow.Value
import Workflow.Yaml.Node
import Workflow.Yaml.Scalar

/-!
# Documents in YAML

The value of a document. Mappings take in the mappings that they merge, in front of their own members.
Of several faults the one nearest to the root counts, and of those the first.
-/

namespace Workflow.Yaml

/-- A node whose mappings have taken in what they merge; one that merges something else has no members. -/
inductive Tree where
  | scalar (tag text : String)
  | sequence (tag : String) (items : List Tree)
  | mapping (tag : String) (entries : Option (List (Tree × Tree)))
  deriving Inhabited

namespace Tree

def merged? : Tree → Option (List (Tree × Tree))
  | mapping _ entries => entries
  | sequence _ items =>
    (items.reverse.mapM fun
      | mapping _ entries => entries
      | _ => none).map List.flatten
  | scalar .. => none

def isMerge : Tree → Bool
  | scalar tag _ => tag == Tag.merge
  | _ => false

/-- A key that would stand for a value is a text. -/
def asKey : Tree → Tree
  | scalar tag text => scalar (if tag = Tag.value then Tag.text else tag) text
  | t => t

def mergeEntries (entries : List (Tree × Tree)) : Option (List (Tree × Tree)) :=
  let merges := entries.filter fun e => e.1.isMerge
  let own := entries.filter fun e => !e.1.isMerge
  (merges.mapM fun e : Tree × Tree => e.2.merged?).map fun merged =>
    merged.flatten ++ own.map fun e => (e.1.asKey, e.2)

mutual

def ofNode : Node → Tree
  | .scalar tag text => scalar tag text
  | .sequence tag items => sequence tag (ofNodes items)
  | .mapping tag entries => mapping tag (mergeEntries (ofEntries entries))

def ofNodes : List Node → List Tree
  | [] => []
  | n :: rest => ofNode n :: ofNodes rest

def ofEntries : List (Node × Node) → List (Tree × Tree)
  | [] => []
  | (k, v) :: rest => (ofNode k, ofNode v) :: ofEntries rest

end

end Tree

/-- A result, or a fault with its distance from the root. -/
abbrev Built (α : Type) := Except (Nat × Fault) α

/-- Of two faults the one nearer to the root counts, and the first of two at one distance. -/
def Built.both {α β : Type} : Built α → Built β → Built (α × β)
  | .ok a, .ok b => .ok (a, b)
  | .ok _, .error f => .error f
  | .error f, .ok _ => .error f
  | .error f, .error g => .error (if g.1 < f.1 then g else f)

def Built.malformed {α : Type} (level : Nat) : Built α := .error (level, .malformed)

def Built.given {α β : Type} (first : Built α) (second : Built β) : Built β := (Built.both first second).map Prod.snd

namespace Tree

/-- Whether a key can be one: collections cannot. -/
def keyFault (level : Nat) : Tree → Built Unit
  | scalar .. => .ok ()
  | _ => .malformed level

def isListTag (tag : String) : Bool := [Tag.sequence, Tag.ordered, Tag.pairs].contains tag

def isMapTag (tag : String) : Bool := [Tag.mapping, Tag.set].contains tag

/-- A tag that a node cannot have: one of another collection is seen when the node is filled in. -/
def wrongTag {α : Type} (level : Nat) (tag : String) : Built α :=
  .malformed (if isListTag tag || isMapTag tag then level + 1 else level)

mutual

def build (level : Nat) : Tree → Built Value
  | scalar tag text =>
    if isListTag tag || isMapTag tag then wrongTag level tag
    else
      match Yaml.scalar tag text with
      | .ok s => .ok (.scalar s)
      | .error f => .error (level, f)
  | sequence tag items =>
    if tag = Tag.sequence then (buildItems (level + 1) items).map .list
    else if tag = Tag.ordered ∨ tag = Tag.pairs then (buildPairs (level + 1) items).map .list
    else wrongTag level tag
  | mapping tag entries =>
    if isMapTag tag then
      match entries with
      -- what was merged has no members
      | none => .malformed (level + 1)
      | some es =>
        (buildMembers (level + 1) es).map fun ms =>
          if tag = Tag.set then .set (ms.map fun m => .scalar m.1) else .mapping ms
    else wrongTag level tag

def buildItems (level : Nat) : List Tree → Built (List Value)
  | [] => .ok []
  | t :: rest => (Built.both (build level t) (buildItems level rest)).map fun (v, vs) => v :: vs

def buildPairs (level : Nat) : List Tree → Built (List Value)
  | [] => .ok []
  | mapping _ (some [(k, v)]) :: rest =>
    (Built.both (Built.both (build level k) (build level v)) (buildPairs level rest)).map fun ((k, v), vs) =>
      .tuple [k, v] :: vs
  | _ :: rest => Built.given (Built.malformed (α := Unit) level) (buildPairs level rest)

def buildMembers (level : Nat) (entries : List (Tree × Tree)) : Built Members :=
  (buildEntries level entries).map Members.ofList

def buildEntries (level : Nat) : List (Tree × Tree) → Built (List (Scalar × Value))
  | [] => .ok []
  | (k, v) :: rest =>
    let key := Built.given (keyFault level k) (build level k)
    (Built.both (Built.both key (build level v)) (buildEntries level rest)).map fun ((k, v), ms) =>
      match k with
      | .scalar s => (s, v) :: ms
      | _ => ms

end

end Tree

/-- The value of a document; one without a node is null. -/
def read (text : String) : Result Value :=
  match document? text.toList with
  | none => .error .malformed
  | some none => .ok .null
  | some (some n) =>
    match (Tree.ofNode n).build 0 with
    | .ok v => .ok v
    | .error f => .error f.2

end Workflow.Yaml
