import Workflow.Predicate.Bind
import Workflow.Predicate.Parse

/-!
# Rendering

Bound conditions as a clause over unqualified columns. The clause is a predicate again, with literals
only, and a store reads it back as such. An integer with too many digits has no literal.
-/

namespace Workflow

def doubleQuotes (cs : List Char) : List Char := cs.flatMap fun c => if c = singleQuote then [c, c] else [c]

def sqlText (s : String) : String :=
  String.ofList (singleQuote :: doubleQuotes s.toList ++ [singleQuote])

def Scalar.sql : Scalar → Except Breakdown String
  | null => .ok "NULL"
  | bool b => .ok (if b then "TRUE" else "FALSE")
  | int n => integerText n
  | float x => .ok x.text
  | s => .ok (sqlText s.plainText)

/-- A value as a literal of a clause; what is no scalar counts as its text. -/
def Value.sql : Value → Except Breakdown String
  | scalar s => s.sql
  | v => v.writtenText.map sqlText

namespace BoundCondition

def render : BoundCondition → Except Breakdown String
  | comparison c op s =>
    match op with
    | .isNull => .ok (c ++ " IS NULL")
    | .notNull => .ok (c ++ " IS NOT NULL")
    | op => s.sql.map fun literal => c ++ " " ++ op.text ++ " " ++ literal
  | membership c negated values =>
    (values.mapM Scalar.sql).map fun literals =>
      c ++ (if negated then " NOT IN (" else " IN (") ++ joinWith ", " literals ++ ")"

end BoundCondition

/-- Bound conditions as a clause. -/
def renderClause (cs : List BoundCondition) : Except Breakdown String :=
  (cs.mapM BoundCondition.render).map (joinWith " AND ")

/-- Read, bind and render a predicate. -/
def compileClause (expression : String) (context : Members) : Except ExpressionFault String := do
  let p ← Predicate.parse expression
  (renderClause (← p.bind context expression)).mapError .breakdown

/-- The conditions that a rendered clause stands for. -/
def readClause (text : String) : Except ExpressionFault (List BoundCondition) := do
  let p ← Predicate.parseClause text
  p.bind [] text

end Workflow
