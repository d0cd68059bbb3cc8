import Workflow.Predicate
import Workflow.Settings

/-!
# Findings

What can be wrong with a manifest whose nodes are all well shaped. A finding does not depend on the
settings; these only decide how much some kinds of it matter.
-/

namespace Workflow

inductive Finding where
  | duplicate (what name : String)
  | initialState (state : String)
  | transitionTarget (state target : String)
  | deadEnd (state : String)
  | unreachable (state initial : String)
  | state (name : String)
  | event (name : String)
  | idempotencyKey (key event : String)
  | unconsumed (event : String)
  | function (name : String)
  | functionPattern (function webhook : String)
  | actor (name : String)
  | actorMissing
  | expression (f : ExpressionFault)
  | predicateTable (target table : String)
  | column (column table : String)
  | cron (name : String)
  | webhook (name : String)
  | correlationKey (key event : String)
  | routeKey (key event : String)
  | transition (target source : String)
  | table (name : String)
  | template (source : String) (f : TemplateFault)
  | payloadField (name : String)
  | stateExists
  | stateOperator (op : Predicate.Operator)
  | customAction (ref : String)
  | updateAll (table : String)
  | clauseTable (target table : String)
  | clauseColumn (column table : String)

namespace Finding

def code : Finding → String
  | duplicate what _ => "duplicate_" ++ what
  | initialState _ => "unknown_state"
  | transitionTarget .. => "unknown_state"
  | deadEnd _ => "dead_end_state"
  | unreachable .. => "unreachable_state"
  | state _ => "unknown_state"
  | event _ => "unknown_event"
  | idempotencyKey .. => "unknown_payload_field"
  | unconsumed _ => "unconsumed_event"
  | function _ => "unknown_function"
  | functionPattern .. => "function_pattern_mismatch"
  | actor _ => "unknown_actor"
  | actorMissing => "condition_missing_actor"
  | expression _ => "invalid_predicate"
  | predicateTable .. => "predicate_table_mismatch"
  | column .. => "unknown_column"
  | cron _ => "unknown_cron"
  | webhook _ => "unknown_webhook"
  | correlationKey .. => "correlation_key_missing"
  | routeKey .. => "unknown_payload_field"
  | transition .. => "undeclared_transition"
  | table _ => "unknown_table"
  | template .. => "template_syntax"
  | payloadField _ => "unknown_payload_field"
  | stateExists => "invalid_predicate"
  | stateOperator _ => "invalid_predicate"
  | customAction _ => "unknown_custom_action"
  | updateAll _ => "update_without_where"
  | clauseTable .. => "where_table_mismatch"
  | clauseColumn .. => "unknown_column"

def message : Finding → String
  | duplicate what name => s!"duplicate {what} name '{name}'"
  | initialState s => s!"initial state '{s}' is not declared"
  | transitionTarget s target => s!"state '{s}' transitions to undeclared state '{target}'"
  | deadEnd s => s!"state '{s}' is not terminal but has no transitions"
  | unreachable s initial => s!"state '{s}' is not reachable from '{initial}'"
  | state name => s!"state '{name}' is not declared"
  | event name => s!"event '{name}' is not declared"
  | idempotencyKey key e => s!"idempotency_key '{key}' is not a payload field of event '{e}'"
  | unconsumed e => s!"no step is triggered by event '{e}'"
  | function name => s!"function '{name}' is not declared"
  | functionPattern f w => s!"function '{f}' must use pattern 'inngest-first-webhook' to receive webhook '{w}'"
  | actor name => s!"actor '{name}' is not declared"
  | actorMissing => "condition must reference :actor"
  | expression f => f.message
  | predicateTable target t => s!"predicate targets '{target}', not '{t}'"
  | column c t => s!"column '{c}' is not declared on table '{t}'"
  | cron name => s!"cron '{name}' is not declared"
  | webhook name => s!"webhook '{name}' is not declared"
  | correlationKey key e => s!"correlation_key '{key}' is not a payload field of event '{e}'"
  | routeKey key e => s!"route_on '{key}' is not a payload field of event '{e}'"
  | transition target source => s!"state_out '{target}' is not a declared transition from '{source}'"
  | table name => s!"table '{name}' is not declared"
  | template source f => f.message source
  | payloadField name => s!"'{name}' is not a payload field of any trigger event"
  | stateExists => "state predicates cannot use EXISTS"
  | stateOperator op => s!"operator {op.text} is not valid for states"
  | customAction ref => s!"custom action '{ref}' is not registered"
  | updateAll t => s!"update on '{t}' has no where clause and affects every row"
  | clauseTable target t => s!"where clause targets '{target}', not '{t}'"
  | clauseColumn c t => s!"where clause column '{c}' is not declared on table '{t}'"

def severity (settings : Settings) : Finding → Severity
  | deadEnd _ => settings.deadEndStates.severity
  | unreachable .. => settings.unreachableStates.severity
  | transition .. => settings.undeclaredTransitions.severity
  | unconsumed _ => .info
  | updateAll _ => .warning
  | _ => .error

/-- The breakdown that a finding is, where it is more than a finding. -/
def breakdown? : Finding → Option Breakdown
  | expression f => f.breakdown?
  | template _ f => f.breakdown?
  | _ => none

end Finding

/-- A finding and the place that it is about. -/
structure Located where
  location : Location
  finding : Finding

def Located.diagnostic (settings : Settings) (l : Located) : Diagnostic :=
  ⟨l.location, .crossReference, l.finding.code, l.finding.message, l.finding.severity settings⟩

/-- The diagnostics of what was found, unless a breakdown put an end to the search. -/
def Located.diagnostics (settings : Settings) (found : List Located) : Except Breakdown (List Diagnostic) :=
  match found.findSome? fun l => l.finding.breakdown? with
  | some b => .error b
  | none => .ok (found.map (Located.diagnostic settings))

def Located.below (path : Location) (ls : List Located) : List Located := ls.map fun l => ⟨path ++ l.location, l.finding⟩

def findIf (b : Bool) (location : Location) (f : Finding) : List Located := if b then [⟨location, f⟩] else []

end Workflow
