import Workflow.Template
import Workflow.Text.Split
import Workflow.Value.Json

/-!
# Resolution

Paths are followed through mappings and sequences. A template is resolved strictly, where the first
path that is absent and has no default is an error, or leniently, where it counts as empty text and is noted.
A lone placeholder resolves to the value itself, every other template to text. Either way a position or a value
that has to be written and cannot be ends the resolution.
-/

namespace Workflow

/-- A reference without a value, and the text that it stands in. -/
structure Unresolved where
  path : String
  source : String
  deriving DecidableEq

def Unresolved.message (u : Unresolved) : String := s!"Unresolved reference '{u.path}' in template {quoted u.source}"

namespace Value

/-- The item at a position, counted from the end when negative. -/
def itemAt? (items : List Value) (n : Int) : Option Value :=
  if 0 ≤ n then items[n.toNat]?
  else if (-n).toNat ≤ items.length then items[items.length - (-n).toNat]?
  else none

/-- One step into a value. A position that is no key of a mapping is tried as its text. -/
def step (v : Value) (p : PathStep) : Except Breakdown (Option Value) :=
  match v, p with
  | .mapping ms, .key s => .ok (Members.get? ms s)
  | .mapping ms, .index n =>
    match Members.find? ms (.int n) with
    | some w => .ok (some w)
    | none => (integerText n).map (Members.get? ms)
  | .list items, .index n => .ok (itemAt? items n)
  | .tuple items, .index n => .ok (itemAt? items n)
  | _, _ => .ok none

/-- The value at the end of a path, if there is one. -/
def lookup (v : Value) : List PathStep → Except Breakdown (Option Value)
  | [] => .ok (some v)
  | p :: rest => do
    match ← v.step p with
    | some w => w.lookup rest
    | none => return none

/-- The text that a value contributes to a template. -/
def asText (v : Value) : Except Breakdown String :=
  match v with
  | .scalar .null => .ok ""
  | .scalar (.bool b) => .ok (if b then "true" else "false")
  | .mapping _ => v.sortedJson
  | .list _ => v.sortedJson
  | .tuple _ => v.sortedJson
  | v => v.writtenText

end Value

/-- A part of a dotted path: digits are a position. A text of digits that is no numeral is refused. -/
def dottedStep (part : List Char) : Except Breakdown PathStep :=
  if part ≠ [] ∧ part.all isDigitLike then
    if isNumeral part then .ok (.index (decimalNumeral part)) else .error (.numeral (String.ofList part))
  else .ok (.key (String.ofList part))

def dottedSteps (dotted : String) : Except Breakdown (List PathStep) :=
  (partsBetween '.' dotted.toList).mapM dottedStep

/-- Whether a dotted path leads to a value. -/
def hasPath (context : Members) (dotted : String) : Except Breakdown Bool := do
  let path ← dottedSteps dotted
  return (← (Value.mapping context).lookup path).isSome

/-- Why a template is not resolved. -/
inductive ResolutionFault where
  | unresolved (u : Unresolved)
  | breakdown (b : Breakdown)
  deriving DecidableEq

/-- What a placeholder stands for: the value at its path, or else its default. Where neither is there, that is an error,
or none if resolution is lenient. -/
def Placeholder.resolve (p : Placeholder) (context : Members) (source : String) (lenient : Bool) :
    Except ResolutionFault (Option Value) := do
  match ← ((Value.mapping context).lookup p.path).mapError .breakdown, p.fallback with
  | some v, _ => return some v
  | none, some d => return some (.text d)
  | none, none =>
    if lenient then return none
    else
      let path ← p.dotted.mapError .breakdown
      throw (.unresolved ⟨path, source⟩)

/-- A resolution that notes absent paths. What was noted is kept if it fails. -/
abbrev Resolution := ExceptT ResolutionFault (StateM (List String))

namespace Resolution

/-- A text that is needed. -/
def need (text : Except Breakdown String) : Resolution String :=
  (text.mapError ResolutionFault.breakdown : Except ResolutionFault String)

/-- Note that a placeholder has no value. -/
def note (p : Placeholder) : Resolution Unit := do
  let path ← need p.dotted
  modify fun noted => noted ++ [path]

def result {α : Type} (r : Resolution α) : Except ResolutionFault α := (r.run.run []).1

end Resolution

namespace Template

def textsOf (source : String) (context : Members) (lenient : Bool) : List Segment → Resolution (List String)
  | [] => return []
  | .text s :: rest => return s :: (← textsOf source context lenient rest)
  | .placeholder p :: rest => do
    match ← (p.resolve context source lenient : Except _ _) with
    | some v =>
      let text ← Resolution.need v.asText
      return text :: (← textsOf source context lenient rest)
    | none =>
      Resolution.note p
      textsOf source context lenient rest

def resolveText (t : Template) (context : Members) (lenient : Bool) : Resolution String :=
  return String.join (← textsOf t.source context lenient t.segments)

/-- Resolve a template to a value: a lone placeholder to what it stands for, every other template to text. -/
def resolveValue (t : Template) (context : Members) (lenient : Bool) : Resolution Value := do
  match t.lone? with
  | none => return .text (← t.resolveText context lenient)
  | some p =>
    match ← (p.resolve context t.source lenient : Except _ _) with
    | some v => return v
    | none =>
      Resolution.note p
      return .text ""

/-- The text of a template all of whose paths are there. -/
def render (t : Template) (context : Members) : Except ResolutionFault String := (t.resolveText context false).result

/-- The value of a template all of whose paths are there. -/
def value (t : Template) (context : Members) : Except ResolutionFault Value := (t.resolveValue context false).result

end Template

end Workflow
