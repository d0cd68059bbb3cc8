import Workflow.EventGraph
import Workflow.Value
import Workflow.Policy
import Workflow.Value.Canonical

/-!
# Plans

A plan is what a manifest says, indexed by name and ready to be run: the rules of its tables, the steps that
each event starts, and a fingerprint that tells manifests with different contents apart.
-/

namespace Workflow

structure Plan where
  manifest : Manifest
  fingerprint : String
  states : Index StateDefinition
  events : Index EventDefinition
  steps : Index Step
  tables : Index Table
  actors : Index Actor
  policies : Index TablePolicies
  /-- The events that start steps, with these steps. -/
  triggers : Index (List String)
  /-- What was noticed on the way and is no error. -/
  warnings : List Diagnostic

/-- Why a manifest has no plan. -/
inductive PlanFault where
  | fingerprint (f : CanonicalFault)
  | policy (f : PolicyFault)

namespace Manifest

/-- The hash of a manifest with every default written out. -/
def fingerprint (m : Manifest) : Except CanonicalFault String := stableHash m.dump

/-- The rules of every table. -/
def tablePolicies (m : Manifest) : Except PolicyFault (Index TablePolicies) :=
  (Index.of Table.name m.database.tables).mapM fun (name, t) =>
    (t.policies m.database.actors).map fun p => (name, p)

/-- The plan of a manifest whose references are sound. -/
def plan (m : Manifest) (warnings : List Diagnostic) : Except PlanFault Plan :=
  match m.fingerprint, m.tablePolicies with
  | .error f, _ => .error (.fingerprint f)
  | .ok _, .error f => .error (.policy f)
  | .ok fingerprint, .ok policies => .ok {
      manifest := m
      fingerprint
      states := Index.of StateDefinition.name m.stateMachine.states
      events := Index.of EventDefinition.name m.events.definitions
      steps := Index.of Step.name (m.steps.map Prod.snd)
      tables := Index.of Table.name m.database.tables
      actors := Index.of Actor.name m.database.actors
      policies
      triggers := m.eventGraph.triggers?.getD []
      warnings }

end Manifest

/-- A name that no step has. -/
structure UnknownStep where
  name : String
  known : List String
  deriving DecidableEq

def UnknownStep.message (u : UnknownStep) : String :=
  s!"Step '{u.name}' is not declared. Known: {displayTexts u.known}"

/-- What kind of step a step is: an agent, or the pattern of a function. -/
def Step.pattern : Step → String
  | .agent _ => "agent"
  | .function f => f.trigger.pattern

def PersistAction.writes : PersistAction → Bool
  | custom _ => false
  | _ => true

def Step.usesStore (s : Step) : Bool := s.rules.input.exist.isSome || s.rules.persist.any PersistAction.writes

namespace Plan

def step (p : Plan) (name : String) : Except UnknownStep Step :=
  match p.steps.get? name with
  | some s => .ok s
  | none => .error ⟨name, p.steps.names.mergeSort⟩

/-- The steps that an event starts. -/
def consumers (p : Plan) (event : String) : List String := (p.triggers.get? event).getD []

def requiresStore (p : Plan) : Bool := p.steps.any fun s => s.2.usesStore

/-! ## Summary -/

def entry (key : String) (v : Value) : Scalar × Value := (.text key, v)

def names (ns : List String) : Value := .list (ns.map Value.text)

def listing {α : Type} (index : Index α) (f : α → Value) : Value := .mapping (index.map fun e => entry e.1 (f e.2))

def stateSummary (s : StateDefinition) : Value :=
  .mapping [entry "transitions_to" (names s.transitions), entry "terminal" (.bool s.terminal)]

def ruleSummary (r : AccessRule) : Value :=
  .mapping [entry "actor" (.text r.actor), entry "operation" (.text r.operation.name), entry "condition" (.text r.condition)]

def policySummary (p : TablePolicies) : Value :=
  .mapping [entry "rules" (.list (p.rules.map ruleSummary)), entry "uncovered" (names (p.uncovered.map Operation.name))]

def fingerprintVersion : String := "sha256-rfc8785-v1"

def summary (p : Plan) : Value :=
  .mapping [
    entry "product" (.text p.manifest.product.name),
    entry "version" (.text p.manifest.product.version),
    entry "fingerprint" (.text p.fingerprint),
    entry "fingerprint_version" (.text fingerprintVersion),
    entry "initial_state" (.text p.manifest.stateMachine.initial),
    entry "states" (listing p.states stateSummary),
    entry "events" (names p.events.names.mergeSort),
    entry "steps" (listing p.steps fun s => .text s.pattern),
    entry "triggers" (listing p.triggers names),
    entry "policies" (listing p.policies policySummary),
    entry "warnings" (.list (p.warnings.map Diagnostic.dump))]

end Plan

end Workflow
