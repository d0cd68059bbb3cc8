import Workflow.Template.Piece
import Workflow.Template.Tag

/-!
# Templates

A template is literal text with placeholders. A placeholder names a path into the context and may give
a text to use when the path is absent. Nothing else is accepted: other tags and other expressions
are refused, well formed or not.
-/

namespace Workflow

structure Placeholder where
  path : List PathStep
  /-- The text that stands in for an absent value. -/
  fallback : Option String
  deriving DecidableEq

/-- The path of a placeholder with points between its steps. -/
def Placeholder.dotted (p : Placeholder) : Except Breakdown String := writtenPath p.path

inductive Segment where
  | text (s : String)
  | placeholder (p : Placeholder)
  deriving DecidableEq

namespace Template

inductive Node where
  | text (s : String)
  | output (e : Expr)
  | statement

/-- A section is no longer blank once something other than blank text stands in it. -/
def Section.stain (blank : Bool) : Section → Section
  | .block name blankOnly b => .block name blankOnly (b && blank)
  | s => s

def stainTop (blank : Bool) : List Section → List Section
  | [] => []
  | s :: rest => s.stain blank :: rest

/-- The nodes of a sequence of pieces inside the given open sections, the innermost first. The pieces are read in
order, and the first that is malformed or cannot be read ends the reading. -/
def nodes : List Section → List Piece → Except TemplateFault (List Node)
  | [], [] => .ok []
  | _ :: _, [] => .error .malformed
  | _, .broken :: _ => .error .malformed
  | stack, .text s :: rest => do
    let ns ← nodes (stainTop (s.all isBlank) stack) rest
    return if stack = [] then .text (String.ofList s) :: ns else ns
  | stack, .placeholder ts :: rest => do
    let (e, ts) ← tuple (fuelFor ts) true [] false ts
    close ts
    let ns ← nodes (stainTop false stack) rest
    return if stack = [] then .output e :: ns else ns
  | [], .statement ts :: rest => do
    match ← statement ts with
    | .print es => return es.map .output ++ (← nodes [] rest)
    | .single => return .statement :: (← nodes [] rest)
    | .opens s => return .statement :: (← nodes [s] rest)
  | s :: outer, .statement ts :: rest =>
    match ts with
    | .name word :: after =>
      if s.words.contains word then do
        match ← s.follow word after with
        | none => nodes outer rest
        | some s => nodes (s :: outer) rest
      else do
        match ← statement ts with
        | .print es => nodes (stainTop es.isEmpty (s :: outer)) rest
        | .single => nodes (stainTop false (s :: outer)) rest
        | .opens t => nodes (t :: stainTop false (s :: outer)) rest
    | ts => failAt ts

def pathOf? : Expr → Option (List PathStep)
  | .name s => some [.key s]
  | .attribute e s => (pathOf? e).map (· ++ [.key s])
  | .item e (.literal (.int n)) => (pathOf? e).map (· ++ [.index n])
  | .item e (.literal (.text s)) => (pathOf? e).map (· ++ [.key s])
  | _ => none

def Literal.written : Literal → Except Breakdown String
  | .null => .ok "None"
  | .bool b => .ok (if b then "True" else "False")
  | .int n => integerText n
  | .float x => .ok x.text
  | .text s => .ok s

def pathOf (e : Expr) : Except TemplateFault (List PathStep) :=
  match pathOf? e with
  | some p => .ok p
  | none => .error .notPath

def placeholderOf : Expr → Except TemplateFault Placeholder
  | .filter e name args extra =>
    if name ≠ "default" then .error (.filter name)
    else
      match args, extra with
      | [.literal .null], false => .error .defaultLiteral
      | [.literal l], false => do
        let path ← pathOf e
        return ⟨path, some (← l.written.mapError .breakdown)⟩
      | [_], false => .error .defaultLiteral
      | _, _ => .error .defaultArity
  | e => (pathOf e).map fun p => ⟨p, none⟩

def segmentOf : Node → Except TemplateFault Segment
  | .text s => .ok (.text s)
  | .output e => (placeholderOf e).map .placeholder
  | .statement => .error .statement

end Template

/-- A source together with the segments it was read as. -/
structure Template where
  source : String
  segments : List Segment

namespace Template

/-- Read a source, where a text may call characters by these names. -/
def parseWith (names : CharacterNames) (source : String) : Except TemplateFault Template := do
  let ns ← nodes [] (piecesOf names source)
  return ⟨source, ← ns.mapM segmentOf⟩

def parse (source : String) : Except TemplateFault Template := parseWith characterNamed source

def placeholders (t : Template) : List Placeholder :=
  t.segments.filterMap fun
    | .placeholder p => some p
    | .text _ => none

/-- The dotted paths of the placeholders in reading order. -/
def paths (t : Template) : Except Breakdown (List String) := t.placeholders.mapM Placeholder.dotted

/-- The placeholder that is all of a template. -/
def lone? (t : Template) : Option Placeholder :=
  match t.segments with
  | [.placeholder p] => some p
  | _ => none

end Template

end Workflow
