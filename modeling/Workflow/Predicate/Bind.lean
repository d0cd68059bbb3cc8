import Workflow.Predicate

/-!
# Binding

Templates and parameters get their values after a predicate is read, so a value can only ever be
compared: it adds no condition and changes no operator, but for `=` and `!=` on null, which become tests
for null. A lone operand of a list that resolves to a sequence stands for its items.
-/

namespace Workflow

/-- A condition whose operands are values. -/
inductive BoundCondition where
  | comparison (column : String) (operator : Predicate.Operator) (value : Scalar)
  | membership (column : String) (negated : Bool) (values : List Scalar)
  deriving DecidableEq

namespace BoundCondition

def column : BoundCondition → String
  | comparison c .. => c
  | membership c .. => c

def operatorText : BoundCondition → String
  | comparison _ op _ => op.text
  | membership _ negated _ => if negated then "NOT IN" else "IN"

end BoundCondition

namespace Predicate

def Operand.value (context : Members) (expression : String) : Operand → Except ExpressionFault Value
  | literal s => .ok (.scalar s)
  | template t => (t.value context).mapError ResolutionFault.within
  | param name =>
    match Members.get? context name with
    | some v => .ok v
    | none => .error (.unresolved ⟨":" ++ name, expression⟩)

/-- The fault of a value that is no scalar. Its message tells the value, if that can be written. -/
def structuredFault (expression : String) (v : Value) : ExpressionFault :=
  if v.isWritable then .predicate expression (.structured v) else .breakdown .unwritten

/-- Only scalars can be compared with a column. -/
def scalarOf (expression : String) : Value → Except ExpressionFault Scalar
  | .scalar s => .ok s
  | v => .error (structuredFault expression v)

/-- The operator that compares with a value: null is tested for, and has no order. -/
def operatorFor (expression : String) (c : Column) (op : Operator) (s : Scalar) :
    Except ExpressionFault Operator :=
  if s = .null then
    match op with
    | .eq | .isNull => .ok .isNull
    | .ne | .notNull => .ok .notNull
    | _ => .error (.predicate expression (.orderNull c.text))
  else .ok op

/-- The values of one operand of a list, which may be its only one. -/
def listValues (context : Members) (expression : String) (lone : Bool) (o : Operand) :
    Except ExpressionFault (List Scalar) := do
  let v ← o.value context expression
  match v, lone with
  | .list items, true => items.mapM (scalarOf expression)
  | .tuple items, true => items.mapM (scalarOf expression)
  | v, _ => return [← scalarOf expression v]

def Condition.bind (context : Members) (expression : String) : Condition → Except ExpressionFault BoundCondition
  | comparison c op o => do
    let s ← scalarOf expression (← o.value context expression)
    return .comparison c.name (← operatorFor expression c op s) s
  | membership c negated os => do
    let parts ← os.mapM (listValues context expression (os.length == 1))
    match parts.flatten with
    | [] => throw (.predicate expression (.emptyList c.text))
    | values => return .membership c.name negated values

/-- The conditions of a predicate with every operand resolved; `expression` is its text. -/
def bind (p : Predicate) (context : Members) (expression : String) :
    Except ExpressionFault (List BoundCondition) :=
  p.conditions.mapM (Condition.bind context expression)

end Predicate

end Workflow
