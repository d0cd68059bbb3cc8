import Workflow.Breakdown
import Workflow.Manifest.Rules
import Workflow.Shape

/-!
# Outputs

The output of a step is a mapping that says whether the step succeeded. Checks of outputs can be registered by name.
Schemas are such checks: they have fields of their own, and members that a schema does not list are allowed.
-/

namespace Workflow

/-- What a check finds wrong with an output, and where. -/
structure OutputProblem where
  location : Location
  message : String
  deriving DecidableEq

def OutputProblem.text (p : OutputProblem) : String := dottedPath p.location ++ ": " ++ p.message

/-- A check accepts the outputs that it finds nothing wrong with. -/
abbrev OutputCheck := Members → List OutputProblem

/-! ## Schemas -/

inductive OutputType where
  | text | int | float | bool | texts
  /-- A text or null, and it may be left out. -/
  | optionalText
  deriving DecidableEq

namespace OutputType

def faultsOf {α : Type} : ShapeResult α → List ShapeFault
  | .ok _ => []
  | .error fs => fs

def faults (v : Value) : OutputType → List ShapeFault
  | text => faultsOf (Shape.text.read v)
  | int => faultsOf (Shape.int.read v)
  | float => faultsOf (Shape.anyFloat.read v)
  | bool => faultsOf (Shape.bool.read v)
  | texts => faultsOf ((Shape.items .list .text).read v)
  | optionalText => faultsOf ((Shape.nullable .text).read v)

def required : OutputType → Bool
  | optionalText => false
  | _ => true

end OutputType

/-- The fields of an output. -/
abbrev OutputSchema := Index OutputType

namespace OutputSchema

def base : OutputSchema := [("success", .bool), ("error", .optionalText)]

def extend (fields : List (String × OutputType)) : OutputSchema := fields.foldl (fun s (name, t) => Index.put name t s) base

def fieldFaults (output : Members) (name : String) (t : OutputType) : List ShapeFault :=
  match Members.get? output name with
  | some v => (t.faults v).map (ShapeFault.under (.key name))
  | none => if t.required then [⟨[.key name], .missing⟩] else []

/-- What an output lacks of a schema: field by field, and then members whose keys are no texts. -/
def faults (s : OutputSchema) (output : Members) : List ShapeFault :=
  s.flatMap (fun (name, t) => fieldFaults output name t) ++
    output.filterMap fun (k, _) =>
      match k with
      | .text _ => none
      | k => some ⟨[Shape.stepOfKey k], .key⟩

/-- The check that a schema makes. -/
def check (s : OutputSchema) : OutputCheck := fun output => (s.faults output).map fun f => ⟨f.location, f.cause.message⟩

end OutputSchema

/-! ## Faults -/

inductive OutputFault where
  | kind (name : String)
  | unsuccessful (error : Option String)
  | fields (names : List String)
  | schema (name : String) (problems : List String)
  | artifacts (paths : List String)
  deriving DecidableEq

namespace OutputFault

def message : OutputFault → String
  | kind name => s!"step output must be a mapping, got {name}"
  | unsuccessful _ => "step did not report success"
  | fields names => "output is missing required fields: " ++ joinWith ", " names
  | schema name _ => s!"output does not match schema '{name}'"
  | artifacts paths => "required artifacts were not produced: " ++ joinWith ", " paths

def problems : OutputFault → List String
  | kind _ => []
  | unsuccessful error => error.toList
  | fields names => names
  | schema _ problems => problems
  | artifacts paths => paths

end OutputFault

def reportsSuccess (output : Members) : Bool :=
  match Members.get? output "success" with
  | some (.scalar (.bool b)) => b
  | _ => false

/-- The error that an output reports, as text. -/
def reportedError (output : Members) : Except Breakdown (Option String) :=
  match Members.get? output "error" with
  | some v => if v.isSomething then v.writtenText.map some else .ok none
  | none => .ok none

end Workflow
