import Workflow.Output
import Workflow.Predicate.Evaluate

/-!
# Rejections

A rule of a step that an invocation does not meet rejects it, and so does an expression of the step that cannot be
applied. The checks decide on that; a host may do so too, where it is asked for rows or files.
-/

namespace Workflow

/-- Why an invocation is rejected. -/
inductive Rejection where
  | payloadField (name : String)
  | precondition (expression table : String)
  | state (expression : String) (current : Option String)
  | artifact (path : String)
  | output (f : OutputFault)
  | expression (f : ExpressionFault)

namespace Rejection

def message : Rejection → String
  | payloadField name => s!"Required payload field '{name}' is missing"
  | precondition e table => s!"No row in '{table}' matches {quoted e}"
  | state e current => s!"Current state {(stateScalar current).display} does not satisfy {quoted e}"
  | artifact path => s!"Required artifact '{path}' is missing"
  | output f => f.message
  | expression f => f.message

/-- The kind of a rejection in a log. -/
def kind : Rejection → String
  | payloadField _ => "MissingPayloadField"
  | precondition .. => "PreconditionNotMet"
  | state .. => "StateMismatch"
  | artifact _ => "MissingArtifact"
  | output _ => "OutputRejected"
  | expression f => f.kind

/-- The code of a rejection for other programs; an expression that cannot be applied has none. -/
def code? : Rejection → Option String
  | payloadField _ => some "missing_payload_field"
  | precondition .. => some "precondition_not_met"
  | state .. => some "state_mismatch"
  | artifact _ => some "missing_artifact"
  | output _ => some "output_rejected"
  | expression _ => none

/-- Whether the check of an output rejects for it: something is wrong with the output, or with a template. -/
def isOfOutput : Rejection → Bool
  | output _ => true
  | expression (.template ..) => true
  | expression (.unresolved _) => true
  | _ => false

end Rejection

end Workflow
