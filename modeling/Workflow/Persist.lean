import Workflow.Host
import Workflow.Manifest.Rules

/-!
# Persist actions

Actions are prepared before any of them is applied: if one cannot be resolved, nothing is written. They are
then applied in order. A failure stops the list and says what was applied and what was skipped; only the
failure of a log entry is noted and passed over.
-/

namespace Workflow

/-- An action with its templates resolved. -/
structure Prepared where
  index : Nat
  action : PersistAction
  values : Row
  clause : Option String
  /-- The columns that a template left empty for want of a value. -/
  emptyColumns : List String

/-! ## Preparation -/

/-- The value that is written to a column, and whether a reference was missing. -/
def resolveScalar (context : Members) : Scalar → Except ExpressionFault (Value × Bool)
  | .text source =>
    match Template.parse source with
    | .error f => .error (.template source f)
    | .ok t =>
      match (t.resolveValue context true).run.run [] with
      | (.ok v, missing) => .ok (v, !missing.isEmpty)
      | (.error f, _) => .error f.within
  | s => .ok (.scalar s, false)

/-- The values of columns, and those columns that were left empty. -/
def resolveAssignments (context : Members) (values : Assignments) : Except ExpressionFault (Row × List String) := do
  let resolved ← values.mapM fun (column, s) => (resolveScalar context s).map fun r => (column, r)
  return (resolved.map fun (column, v, _) => (column, v), (resolved.filter fun (_, _, e) => e).map Prod.fst)

namespace PersistAction

/-- The columns that an action writes. -/
def assignments : PersistAction → Assignments
  | update u => u.values
  | insert r => r.values
  | log r => r.values
  | custom _ => []

def clause? : PersistAction → Option String
  | update u => u.clause
  | _ => none

/-- An action with its templates resolved: what it writes leniently, its clause strictly. -/
def prepare (context : Members) (index : Nat) (a : PersistAction) : Except ExpressionFault Prepared := do
  let (values, emptyColumns) ← resolveAssignments context a.assignments
  let clause ← a.clause?.mapM fun c => compileClause c context
  return { index, action := a, values, clause, emptyColumns }

end PersistAction

/-- Actions with their templates resolved; `n` is the position of the first. -/
def prepareAll (context : Members) (n : Nat) : List PersistAction → Except ExpressionFault (List Prepared)
  | [] => .ok []
  | a :: rest => do
    let p ← a.prepare context n
    let ps ← prepareAll context (n + 1) rest
    return p :: ps

/-! ## Application -/

/-- What became of an action. -/
structure MutationRecord where
  index : Nat
  action : PersistAction
  values : Row
  clause : Option String
  emptyColumns : List String
  /-- Why a log entry was not written. -/
  error : Option String
  /-- How many rows were written, as far as that is known. -/
  rows : Option Int

def MutationRecord.applied (r : MutationRecord) : Bool := r.error.isNone

def Prepared.record (p : Prepared) (error : Option String) (rows : Option Int) : MutationRecord :=
  { index := p.index, action := p.action, values := p.values, clause := p.clause, emptyColumns := p.emptyColumns, error, rows }

/-- A list of actions that stopped at one of them. -/
structure PersistFailure where
  applied : List MutationRecord
  index : Nat
  skipped : List Nat
  cause : Failure

def PersistFailure.message (f : PersistFailure) : String :=
  s!"Persist action {f.index} failed after {f.applied.length} applied ({f.skipped.length} skipped): {f.cause.message}"

def persistLogger : String := loggerName "engine.persistence"

section

variable {σ : Type} (h : Host σ) (registered : List String) (context : Members)

def applyAction (p : Prepared) : Run σ (Except Failure MutationRecord) :=
  match p.action with
  | .update u => do
    match ← Run.ask h (.update u.table p.values p.clause) with
    | .ok rows => return .ok (p.record none rows)
    | .error f => return .error f
  | .insert r => do
    match ← Run.ask h (.insert r.table p.values) with
    | .ok () => return .ok (p.record none (some 1))
    | .error f => return .error f
  | .log r => do
    match ← Run.ask h (.log r.table p.values) with
    | .ok () => return .ok (p.record none none)
    | .error f =>
      Run.note .warning persistLogger "log_action_failed" [("table", .text r.table), ("error", .text f.message)]
      return .ok (p.record (some f.message) none)
  | .custom c => do
    if registered.contains c.ref then
      match ← Run.ask h (.custom c.ref context) with
      | .ok () => return .ok (p.record none none)
      | .error f => return .error f
    else return .error (.unregistered c.ref)

def noteEmptyColumns (p : Prepared) : Run σ Unit :=
  if p.emptyColumns.isEmpty then return ()
  else
    Run.note .warning persistLogger "persist_empty_columns" [
      ("action_index", .int p.index),
      ("table", (p.action.table?.map Value.text).getD .null),
      ("columns", .list (p.emptyColumns.map Value.text))]

def noteFailure (p : Prepared) (skipped : List Nat) (f : Failure) : Run σ Unit :=
  Run.note .error persistLogger "persist_action_failed" [
    ("action_index", .int p.index),
    ("kind", .text p.action.kind),
    ("error", .text f.message),
    ("skipped", .list (skipped.map fun (n : Nat) => .int n))]

def applyPrepared (applied : List MutationRecord) : List Prepared → Run σ (Except PersistFailure (List MutationRecord))
  | [] => return .ok applied
  | p :: rest => do
    noteEmptyColumns p
    match ← applyAction h registered context p with
    | .ok r => applyPrepared (applied ++ [r]) rest
    | .error f =>
      let skipped := rest.map Prepared.index
      noteFailure p skipped f
      return .error ⟨applied, p.index, skipped, f⟩

/-- Why a list of actions was not applied to its end. -/
inductive PersistFault where
  | unresolved (f : ExpressionFault)
  | failed (f : PersistFailure)

def PersistFault.message : PersistFault → String
  | unresolved f => f.message
  | failed f => f.message

/-- Prepare actions, and apply them if all could be prepared. -/
def applyActions (actions : List PersistAction) : Run σ (Except PersistFault (List MutationRecord)) :=
  match prepareAll context 0 actions with
  | .error f => return .error (.unresolved f)
  | .ok ps => do
    match ← applyPrepared h registered context [] ps with
    | .ok rs => return .ok rs
    | .error f => return .error (.failed f)

end

end Workflow
