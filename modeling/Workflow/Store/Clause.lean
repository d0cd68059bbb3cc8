import Workflow.Predicate.Render
import Workflow.Store.Column

/-!
# Clauses of a store

A clause is read back as a predicate, its literals become cells, and a row is kept when every condition is
true of it. A comparison with null is neither true nor false.
-/

namespace Workflow

/-- Why a store does not do what it is asked. -/
inductive StoreFault where
  | noTable
  | clause (f : ExpressionFault)
  | clauseColumn (name : String)
  | orderedTruth
  | unknownColumn
  | misfit
  | cell (f : CellFault)
  | missingValue
  | statement
  | repeatedColumn

namespace StoreFault

def databaseText : String := "<sqlalchemy>"

def message : StoreFault → String
  | clause f => f.message
  | clauseColumn name => quoted name
  | cell .tooLarge => "Python int too large to convert to SQLite INTEGER"
  | _ => databaseText

end StoreFault

structure ColumnShape where
  name : String
  kind : ColumnKind
  nullable : Bool
  deriving DecidableEq

/-! ## Tests of a cell -/

inductive CellTest where
  | isNull
  | notNull
  | compares (op : Predicate.Operator) (c : Cell)
  | among (negated : Bool) (cs : List Cell)

def Predicate.Operator.allows (o : Ordering) : Predicate.Operator → Bool
  | .eq => o == .eq
  | .ne => o != .eq
  | .lt => o == .lt
  | .le => o != .gt
  | .gt => o == .gt
  | .ge => o != .lt
  | _ => false

namespace CellTest

/-- Whether a cell is equal to an operand; unknown when one of them is null. -/
def equal? (a : Affinity) (c d : Cell) : Option Bool := (c.order? (d.compared a)).map (· == .eq)

def member? (a : Affinity) (c : Cell) (cs : List Cell) : Option Bool :=
  let answers := cs.map (equal? a c)
  if answers.contains (some true) then some true else if answers.contains none then none else some false

/-- Whether a test is true of the cell of a column; none when that is unknown. -/
def holds? (a : Affinity) (c : Cell) : CellTest → Option Bool
  | isNull => some (c == .null)
  | notNull => some (c != .null)
  | compares op d => (c.order? (d.compared a)).map op.allows
  | among negated cs => (member? a c cs).map (· != negated)

end CellTest

/-! ## From conditions to tests -/

namespace BoundCondition

/-- Whether a condition makes sense: the column is there, and truth values are not ordered. -/
def check (columns : List ColumnShape) (b : BoundCondition) : Except StoreFault Unit :=
  if (columns.map ColumnShape.name).contains b.column then
    match b with
    | comparison _ op (.bool _) => if op.isOrder then .error .orderedTruth else .ok ()
    | _ => .ok ()
  else .error (.clauseColumn b.column)

/-- The operands of a condition. Those of a list are all treated as the first one is, unless there is a null
among them. -/
def operands? : BoundCondition → Option (List Value)
  | comparison _ _ s => some [.scalar s]
  | membership _ _ ss =>
    let vs := ss.map Value.scalar
    if ss.contains .null then some vs
    else
      match ss.head? with
      | some (.bool _) => vs.mapM ColumnKind.boolean.accept?
      | some (.float _) => vs.mapM ColumnKind.float.accept?
      | _ => some vs

def test (b : BoundCondition) (cs : List Cell) : CellTest :=
  match b with
  | comparison _ .isNull _ => .isNull
  | comparison _ .notNull _ => .notNull
  | comparison _ op _ => .compares op (cs.headD .null)
  | membership _ negated _ => .among negated cs

end BoundCondition

def readConditions (columns : List ColumnShape) (clause : String) : Except StoreFault (List BoundCondition) := do
  let bs ← (readClause clause).mapError .clause
  bs.forM (BoundCondition.check columns)
  return bs

def acceptAll {α : Type} (accept? : α → Option Value) (as : List α) : Except StoreFault (List Value) :=
  match as.mapM accept? with
  | some vs => .ok vs
  | none => .error .misfit

def cellsOf (vs : List Value) : Except StoreFault (List Cell) := vs.mapM fun v => (Cell.ofValue v).mapError .cell

end Workflow
