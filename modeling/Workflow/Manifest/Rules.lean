import Workflow.Shape

/-!
# Rules of a step

The conditions before and after the body of a step and the actions that record its result.
-/

namespace Workflow

/-- Conditions on the input; an empty rule asks for nothing. -/
structure ValidationRule where
  payload : List String
  exist : Option String
  state : Option String
  files : List String
  deriving DecidableEq

structure OutputRule where
  requireSuccess : Bool
  requireArtifacts : Bool
  requiredFields : List String
  deriving DecidableEq

/-- Columns and the scalars or templates that are written to them. -/
abbrev Assignments := List (String × Scalar)

structure UpdateAction where
  table : String
  values : Assignments
  clause : Option String
  deriving DecidableEq

structure RowAction where
  table : String
  values : Assignments
  deriving DecidableEq

structure CustomAction where
  ref : String
  deriving DecidableEq

inductive PersistAction where
  | update (u : UpdateAction)
  | insert (r : RowAction)
  | log (r : RowAction)
  | custom (c : CustomAction)
  deriving DecidableEq

namespace PersistAction

def kind : PersistAction → String
  | update _ => "update"
  | insert _ => "insert"
  | log _ => "log"
  | custom _ => "custom"

def table? : PersistAction → Option String
  | update u => some u.table
  | insert r => some r.table
  | log r => some r.table
  | custom _ => none

end PersistAction

structure StepRules where
  input : ValidationRule
  output : OutputRule
  persist : List PersistAction
  deriving DecidableEq

namespace Shape

def validationRule : Shape ValidationRule :=
  node "ValidationRule" <| Fields.of ValidationRule.mk
    |>.fieldOr "payload" (tuple text) [] (·.payload)
    |>.fieldOr "exists" (nullable text) none (·.exist)
    |>.fieldOr "state" (nullable text) none (·.state)
    |>.fieldOr "files" (tuple text) [] (·.files)

def outputRule : Shape OutputRule :=
  node "OutputRule" <| Fields.of OutputRule.mk
    |>.fieldOr "require_success" bool true (·.requireSuccess)
    |>.fieldOr "require_artifacts" bool false (·.requireArtifacts)
    |>.fieldOr "required_fields" (tuple text) [] (·.requiredFields)

def updateAction : Shape UpdateAction :=
  node "UpdateAction" <| (Fields.of UpdateAction.mk).constant "action" "update"
    |>.field "table" text (·.table)
    |>.spelled ["set", "set_"] (filledEntries literal) none (·.values)
    |>.fieldOr "where" (nullable text) none (·.clause)

def insertAction : Shape RowAction :=
  node "InsertAction" <| (Fields.of RowAction.mk).constant "action" "insert"
    |>.field "table" text (·.table)
    |>.field "values" (filledEntries literal) (·.values)

def logAction : Shape RowAction :=
  node "LogAction" <| (Fields.of RowAction.mk).constant "action" "log"
    |>.field "table" text (·.table)
    |>.fieldOr "data" (entries literal) [] (·.values)

def customAction : Shape CustomAction :=
  node "CustomAction" <| (Fields.of CustomAction.mk).constant "action" "custom"
    |>.field "ref" filledText (·.ref)

def persistAction : Shape PersistAction where
  read := readTagged "action" [
    ("update", fun v => (updateAction.read v).map .update),
    ("insert", fun v => (insertAction.read v).map .insert),
    ("log", fun v => (logAction.read v).map .log),
    ("custom", fun v => (customAction.read v).map .custom)]
  write
    | .update u => updateAction.write u
    | .insert r => insertAction.write r
    | .log r => logAction.write r
    | .custom c => customAction.write c

def stepRules : Fields StepRules StepRules :=
  Fields.of StepRules.mk
    |>.fieldOr "validate_input" validationRule ⟨[], none, none, []⟩ (·.input)
    |>.fieldOr "validate_output" outputRule ⟨true, false, []⟩ (·.output)
    |>.fieldOr "persist" (tuple persistAction) [] (·.persist)

end Shape

end Workflow
