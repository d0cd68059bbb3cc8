import Workflow.Predicate.Render

/-!
# Evaluation

An existence predicate becomes one question to a store: how many rows of the table match the rendered
clause. A predicate about a state is decided here, against the state an entity is in.
-/

namespace Workflow

/-- A question to a store. -/
structure CountQuery where
  table : String
  clause : String
  deriving DecidableEq

def existenceQuery (expression : String) (context : Members) (fallback : Option String) :
    Except ExpressionFault CountQuery := do
  let p ← Predicate.parse expression
  match p.target fallback with
  | .error c => throw (.predicate expression c)
  | .ok table => return ⟨table, ← (renderClause (← p.bind context expression)).mapError .breakdown⟩

def stateScalar (state : Option String) : Scalar := (state.map Scalar.text).getD .null

/-- Whether a state meets a condition; none when the operator needs an order. -/
def BoundCondition.holdsFor (state : Option String) : BoundCondition → Except Predicate.Cause Bool
  | comparison _ .eq s => .ok (stateScalar state == s)
  | comparison _ .ne s => .ok (stateScalar state != s)
  | comparison _ .isNull _ => .ok state.isNone
  | comparison _ .notNull _ => .ok state.isSome
  | comparison _ op _ => .error (.stateOperator op)
  | membership _ negated values => .ok ((values.contains (stateScalar state)) != negated)

/-- Whether a state meets every condition; the first that it does not meet decides. -/
def holdsForAll (state : Option String) : List BoundCondition → Except Predicate.Cause Bool
  | [] => .ok true
  | c :: rest =>
    match c.holdsFor state with
    | .error e => .error e
    | .ok true => holdsForAll state rest
    | .ok false => .ok false

/-- Whether a state meets a predicate. The names of columns are not looked at. -/
def evaluateState (expression : String) (context : Members) (state : Option String) :
    Except ExpressionFault Bool := do
  let p ← Predicate.parse expression
  if p.table.isSome then throw (.predicate expression .stateExists)
  let bound ← p.bind context expression
  match holdsForAll state bound with
  | .ok b => return b
  | .error c => throw (.predicate expression c)

end Workflow
