import Workflow.Template.Resolve

/-!
# Predicates

A predicate is a conjunction of conditions over the rows of one table. A condition compares a column
with an operand, or asks whether it is among some; an operand is a literal, a template or a parameter,
and the last two get their values only after the predicate is read.
-/

namespace Workflow

namespace Predicate

structure Column where
  table : Option String
  name : String
  deriving DecidableEq

def Column.text (c : Column) : String :=
  match c.table with
  | some t => t ++ "." ++ c.name
  | none => c.name

inductive Operand where
  | literal (s : Scalar)
  | template (t : Template)
  | param (name : String)

inductive Operator where
  | eq | ne | lt | le | gt | ge | isNull | notNull
  deriving DecidableEq

namespace Operator

def text : Operator → String
  | eq => "="
  | ne => "!="
  | lt => "<"
  | le => "<="
  | gt => ">"
  | ge => ">="
  | isNull => "IS"
  | notNull => "IS NOT"

def isOrder : Operator → Bool
  | lt | le | gt | ge => true
  | _ => false

end Operator

inductive Condition where
  | comparison (column : Column) (operator : Operator) (operand : Operand)
  | membership (column : Column) (negated : Bool) (operands : List Operand)

def Condition.column : Condition → Column
  | comparison c .. => c
  | membership c .. => c

def Condition.operands : Condition → List Operand
  | comparison _ _ o => [o]
  | membership _ _ os => os

end Predicate

structure Predicate where
  /-- The table named by an `EXISTS` clause. -/
  table : Option String
  conditions : List Predicate.Condition

namespace Predicate

/-- Why a text is no predicate, or a predicate cannot be applied. -/
inductive Cause where
  | input (offset : Nat) (snippet : String)
  | empty
  | ended (expected : String)
  | expected (what got : String)
  | disjunction
  | leftover (got : String)
  | parentheses
  | deepColumn (got : String)
  | functionCall (name : String)
  | templateHere
  | keywordValue (got : String)
  | columnValue (got : String)
  | severalTables (tables : List String)
  | tableMismatch (qualifier table : String)
  | noTable
  | structured (v : Value)
  | orderNull (column : String)
  | emptyList (column : String)
  | stateExists
  | stateOperator (operator : Operator)

def Cause.message : Cause → String
  | input offset snippet => s!"unexpected input at offset {offset}: {quoted snippet}"
  | empty => "empty predicate"
  | ended what => s!"expected {what}, got end of expression"
  | expected what got => s!"expected {what}, got {quoted got}"
  | disjunction => "OR is not supported; split into separate rules"
  | leftover got => s!"unexpected {quoted got}"
  | parentheses => "parentheses are not supported"
  | deepColumn got => s!"column reference too deep: {quoted got}"
  | functionCall name => s!"function calls are not supported: {name}("
  | templateHere => "templates are not allowed in a rendered clause"
  | keywordValue got => s!"expected value, got keyword {quoted got}"
  | columnValue got => s!"column-to-column comparison is not supported: {quoted got}"
  | severalTables tables => s!"columns reference several tables: {displayTexts tables}"
  | tableMismatch qualifier table => s!"column table '{qualifier}' does not match EXISTS table '{table}'"
  | noTable => "cannot determine table (qualify a column or use EXISTS table WHERE)"
  | structured v => s!"cannot compare a column to a structured value: {v.display}"
  | orderNull column => s!"cannot order-compare {column} with NULL"
  | emptyList column => s!"IN list for {column} is empty"
  | stateExists => "state predicates cannot use EXISTS"
  | stateOperator operator => s!"operator {operator.text} is not valid for states"

def qualifiers (p : Predicate) : List String :=
  ((p.conditions.filterMap fun c => c.column.table).eraseDups).mergeSort

def columns (p : Predicate) : List Column := p.conditions.map Condition.column

def operands (p : Predicate) : List Operand := p.conditions.flatMap Condition.operands

def literals (p : Predicate) : List Scalar :=
  p.operands.filterMap fun
    | .literal s => some s
    | _ => none

def params (p : Predicate) : List String :=
  p.operands.filterMap fun
    | .param name => some name
    | _ => none

/-- The table whose rows a predicate ranges over: the one named, else the one that qualifies its
columns, else the default. -/
def target (p : Predicate) (fallback : Option String) : Except Cause String :=
  match p.qualifiers, p.table with
  | [], some t => .ok t
  | [], none =>
    match fallback with
    | some t => .ok t
    | none => .error .noTable
  | [q], some t => if q = t then .ok t else .error (.tableMismatch q t)
  | [q], none => .ok q
  | qs, _ => .error (.severalTables qs)

end Predicate

/-- Why an expression of a manifest cannot be read or applied. -/
inductive ExpressionFault where
  | template (source : String) (f : TemplateFault)
  | unresolved (u : Unresolved)
  | predicate (expression : String) (c : Predicate.Cause)
  | breakdown (b : Breakdown)

def ResolutionFault.within : ResolutionFault → ExpressionFault
  | unresolved u => .unresolved u
  | breakdown b => .breakdown b

namespace ExpressionFault

def message : ExpressionFault → String
  | template source f => f.message source
  | unresolved u => u.message
  | predicate expression c => s!"Unsupported predicate {quoted expression}: {c.message}"
  | breakdown b => b.message

def kind : ExpressionFault → String
  | template _ (.breakdown b) => b.kind
  | template .. => "TemplateSyntaxError"
  | unresolved _ => "UnresolvedReferenceError"
  | predicate .. => "UnsupportedPredicateError"
  | breakdown b => b.kind

/-- The breakdown that a fault is, where it is more than a fault of the expression. -/
def breakdown? : ExpressionFault → Option Breakdown
  | template _ f => f.breakdown?
  | breakdown b => some b
  | _ => none

end ExpressionFault

end Workflow
