import Workflow.Check.Finding
import Workflow.Manifest.Step
import Workflow.Predicate.Parse

/-!
# Checks of persist actions

Every table, column, template and clause of an action has to fit the tables that are declared. Locations
are relative to the list of actions.
-/

namespace Workflow

namespace Table

/-- Whether a column can be there: it is declared, or no columns are. -/
def mayHave (t : Table) (column : String) : Bool := t.columnNames?.all fun ns => ns.contains column

end Table

def checkTemplate (location : Location) (source : String) : List Located :=
  match Template.parse source with
  | .ok _ => []
  | .error f => [⟨location, .template source f⟩]

def checkAssignments (t : Table) (path : Location) (values : Assignments) : List Located :=
  values.flatMap fun (column, value) =>
    let location := path ++ [.key column]
    findIf (!t.mayHave column) location (.column column t.name) ++
      (match value with
      | .text source => checkTemplate location source
      | _ => [])

def predicateOn (expression : String) (fallback : Option String) : Except ExpressionFault (Predicate × String) := do
  let p ← Predicate.parse expression
  match p.target fallback with
  | .ok target => return (p, target)
  | .error c => throw (.predicate expression c)

def checkClause (t : Table) (path : Location) (clause : String) : List Located :=
  match predicateOn clause (some t.name) with
  | .error f => [⟨path, .expression f⟩]
  | .ok (p, target) =>
    findIf (target != t.name) path (.clauseTable target t.name) ++
      p.columns.flatMap fun c => findIf (!t.mayHave c.name) path (.clauseColumn c.name t.name)

/-- The table with a name; of several the first one. -/
def tableNamed? (tables : List Table) (name : String) : Option Table := tables.find? fun t => t.name == name

def checkOnTable (tables : List Table) (path : Location) (name : String) (check : Table → List Located) : List Located :=
  match tableNamed? tables name with
  | none => [⟨path ++ [.key "table"], .table name⟩]
  | some t => check t

def checkAction (tables : List Table) (custom : Option (List String)) (path : Location) : PersistAction → List Located
  | .update u => checkOnTable tables path u.table fun t =>
    checkAssignments t (path ++ [.key "set"]) u.values ++
      (match u.clause with
      | none => [⟨path, .updateAll t.name⟩]
      | some clause => checkClause t (path ++ [.key "where"]) clause)
  | .insert r => checkOnTable tables path r.table fun t => checkAssignments t (path ++ [.key "values"]) r.values
  | .log r => checkOnTable tables path r.table fun t => checkAssignments t (path ++ [.key "data"]) r.values
  | .custom c => findIf (custom.any fun refs => !refs.contains c.ref) (path ++ [.key "ref"]) (.customAction c.ref)

/-- The findings about a list of actions. References to custom actions are checked where their names are
given. -/
def checkActions (tables : List Table) (custom : Option (List String)) (path : Location) (actions : List PersistAction) :
    List Located :=
  (numbered 0 actions).flatMap fun (i, a) => checkAction tables custom (path ++ [.index i]) a

end Workflow
