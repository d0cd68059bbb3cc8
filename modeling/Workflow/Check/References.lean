import Workflow.Check.Persist
import Workflow.EventGraph
import Workflow.Policy

/-!
# References

The checks of a manifest that need more than one of its nodes: names are unique and resolve, the states make
a graph without dead ends, predicates and templates fit the tables and events they are about. All findings
are collected, check by check in document order. Of several declarations of a name the first one counts.
-/

namespace Workflow

/-! ## Names -/

def checkUnique (what : String) : List String → List (Location × String) → List Located
  | _, [] => []
  | seen, (location, name) :: rest =>
    findIf (seen.contains name) location (.duplicate what name) ++ checkUnique what (name :: seen) rest

def nameSites {α : Type} (path : Location) (name : α → String) (as : List α) : List (Location × String) :=
  (numbered 0 as).map fun (i, a) => (path ++ [.index i, .key "name"], name a)

def statesPath : Location := [.key "state_machine", .key "states"]

def definitionsPath : Location := [.key "events", .key "definitions"]

def tablesPath : Location := [.key "database", .key "tables"]

namespace Manifest

def checkDuplicates (m : Manifest) : List Located :=
  checkUnique "state" [] (nameSites statesPath StateDefinition.name m.stateMachine.states) ++
  checkUnique "event" [] (nameSites definitionsPath EventDefinition.name m.events.definitions) ++
  checkUnique "step" [] (m.steps.map fun (path, s) => (path ++ [.key "name"], s.name)) ++
  checkUnique "table" [] (nameSites tablesPath Table.name m.database.tables) ++
  checkUnique "actor" [] (nameSites [.key "database", .key "actors"] Actor.name m.database.actors) ++
  checkUnique "webhook" [] (nameSites [.key "webhooks"] (fun w : Webhook => w.name) m.webhooks) ++
  checkUnique "cron" [] (nameSites [.key "crons"] Cron.name m.crons) ++
  (numbered 0 m.database.tables).flatMap fun (i, t) =>
    checkUnique "column" [] (nameSites (tablesPath ++ [.index i, .key "columns"]) Column.name (t.columns.getD []))

/-! ## States -/

def stateNamed? (m : Manifest) (name : String) : Option StateDefinition :=
  m.stateMachine.states.find? fun s => s.name == name

def hasState (m : Manifest) (name : String) : Bool := m.stateMachine.names.contains name

def declarationPath (path : Location) (names : List String) (name : String) : Location :=
  path ++ [.index (names.idxOf name)]

def checkTransitions (m : Manifest) : List Located :=
  (numbered 0 m.stateMachine.states).flatMap fun (i, s) =>
    (numbered 0 s.transitions).flatMap fun (j, target) =>
      findIf (!m.hasState target) (statesPath ++ [.index i, .key "transitions_to", .index j])
        (.transitionTarget s.name target)

def checkStates (m : Manifest) : List Located :=
  let machine := m.stateMachine
  let graph := machine.graph
  findIf (!m.hasState machine.initial) [.key "state_machine", .key "initial"] (.initialState machine.initial) ++
  m.checkTransitions ++
  graph.deadEnds.map (fun s => ⟨declarationPath statesPath machine.names s, .deadEnd s⟩) ++
  graph.unreachable.map (fun s => ⟨declarationPath statesPath machine.names s, .unreachable s machine.initial⟩)

def checkState (m : Manifest) (location : Location) (name : String) : List Located :=
  findIf (!m.hasState name) location (.state name)

/-! ## Events -/

def eventNamed? (m : Manifest) (name : String) : Option EventDefinition :=
  m.events.definitions.find? fun e => e.name == name

def checkEvent (m : Manifest) (location : Location) (name : String) : List Located :=
  findIf (m.eventNamed? name).isNone location (.event name)

end Manifest

def EventDefinition.hasField (e : EventDefinition) (name : String) : Bool := (e.payload.map Prod.fst).contains name

namespace Manifest

def checkEvents (m : Manifest) : List Located :=
  (numbered 0 m.events.definitions).flatMap fun (i, e) =>
    match e.idempotencyKey with
    | some key =>
      findIf (!e.hasField key) (definitionsPath ++ [.index i, .key "idempotency_key"]) (.idempotencyKey key e.name)
    | none => []

def checkUnconsumed (m : Manifest) : List Located :=
  (m.eventGraph.unconsumed?.getD []).map fun e => ⟨declarationPath definitionsPath m.events.names e, .unconsumed e⟩

/-! ## Webhooks and crons -/

def functionNamed? (m : Manifest) (name : String) : Option Function := m.functions.find? fun f => f.name == name

end Manifest

def Function.isWebhook (f : Function) : Bool :=
  match f.trigger with
  | .webhook _ => true
  | _ => false

namespace Manifest

def checkWebhook (m : Manifest) (path : Location) (w : Webhook) : List Located :=
  match w.target with
  | .event r => m.checkEvent (path ++ [.key "emits"]) r.emits
  | .function r =>
    let location := path ++ [.key "function"]
    match m.functionNamed? r.function with
    | none => [⟨location, .function r.function⟩]
    | some f => findIf (!f.isWebhook) location (.functionPattern r.function w.name)

def checkWebhooksAndCrons (m : Manifest) : List Located :=
  (numbered 0 m.webhooks).flatMap (fun (i, w) => m.checkWebhook [.key "webhooks", .index i] w) ++
  (numbered 0 m.crons).flatMap fun (i, c) =>
    findIf (m.functionNamed? c.function).isNone [.key "crons", .index i, .key "function"] (.function c.function)

/-! ## Policies -/

def checkPredicate (location : Location) (expression : String) (t : Table) : List Located :=
  match predicateOn expression (some t.name) with
  | .error f => [⟨location, .expression f⟩]
  | .ok (p, target) =>
    if target ≠ t.name then [⟨location, .predicateTable target t.name⟩]
    else p.columns.flatMap fun c => findIf (!t.mayHave c.name) location (.column c.name t.name)

def checkPolicy (m : Manifest) (path : Location) (t : Table) (p : AccessPolicy) : List Located :=
  findIf (!(m.database.actors.map Actor.name).contains p.actor) (path ++ [.key "actor"]) (.actor p.actor) ++
  findIf (!mentionsActor p.condition) (path ++ [.key "condition"]) .actorMissing ++
  checkPredicate (path ++ [.key "condition"]) p.condition t

def checkPolicies (m : Manifest) : List Located :=
  (numbered 0 m.database.tables).flatMap fun (i, t) =>
    (numbered 0 t.access).flatMap fun (j, p) =>
      m.checkPolicy (tablesPath ++ [.index i, .key "access", .index j]) t p

/-! ## Steps -/

end Manifest

def Step.triggerSites : Step → List EventSite
  | .agent a => (numbered 0 a.triggers).map fun (i, t) => ⟨t.event, [.key "triggers", .index i, .key "event"]⟩
  | .function f =>
    match f.trigger with
    | .simple t => [⟨t.event, [.key "trigger", .key "event"]⟩]
    | .fanIn t =>
      ⟨t.primary, [.key "trigger", .key "primary"]⟩ ::
        (numbered 0 t.waitFor).map fun (i, e) => ⟨e, [.key "trigger", .key "wait_for", .index i]⟩
    | .routing t => [⟨t.event, [.key "trigger", .key "event"]⟩]
    | .cron _ => []
    | .webhook _ => []

namespace Manifest

def checkSource (m : Manifest) (path : Location) : Step → List Located
  | .agent _ => []
  | .function f =>
    match f.trigger with
    | .cron t => findIf (!(m.crons.map Cron.name).contains t.cron) (path ++ [.key "trigger", .key "cron"]) (.cron t.cron)
    | .webhook t =>
      findIf (!(m.webhooks.map fun w => w.name).contains t.webhook) (path ++ [.key "trigger", .key "webhook"])
        (.webhook t.webhook)
    | _ => []

def checkSites (m : Manifest) (path : Location) (sites : List EventSite) : List Located :=
  sites.flatMap fun s => m.checkEvent (path ++ s.location) s.event

def triggersOf (m : Manifest) (s : Step) : List EventDefinition :=
  (s.triggerSites.map EventSite.event).filterMap m.eventNamed?

def checkTriggerKeys (path : Location) (triggers : List EventDefinition) : Step → List Located
  | .agent _ => []
  | .function f =>
    match f.trigger with
    | .fanIn t =>
      triggers.flatMap fun e =>
        findIf (!e.hasField t.correlationKey) (path ++ [.key "trigger", .key "correlation_key"])
          (.correlationKey t.correlationKey e.name)
    | .routing t =>
      (triggers.take 1).flatMap fun e =>
        findIf (!e.hasField t.routeOn) (path ++ [.key "trigger", .key "route_on"]) (.routeKey t.routeOn e.name)
    | _ => []

def checkStateOut (m : Manifest) (path : Location) (c : Contract) : List Located :=
  if m.hasState c.stateOut then
    c.stateIn.flatMap fun name =>
      match m.stateNamed? name with
      | some s =>
        findIf (c.stateOut != name && !s.transitions.contains c.stateOut) (path ++ [.key "state_out"])
          (.transition c.stateOut name)
      | none => []
  else []

def checkDbSource (m : Manifest) (path : Location) (s : DbSource) : List Located :=
  (match tableNamed? m.database.tables s.table with
  | none => [⟨path ++ [.key "table"], .table s.table⟩]
  | some t =>
    (numbered 0 s.mustHave).flatMap fun (j, c) =>
      findIf (!t.mayHave c) (path ++ [.key "must_have", .index j]) (.column c t.name)) ++
  (match s.template with
  | some source => checkTemplate (path ++ [.key "template"]) source
  | none => [])

def checkContract (m : Manifest) (path : Location) (c : Contract) : List Located :=
  (numbered 0 c.stateIn).flatMap (fun (i, name) => m.checkState (path ++ [.key "state_in", .index i]) name) ++
  m.checkState (path ++ [.key "state_out"]) c.stateOut ++
  m.checkStateOut path c ++
  (numbered 0 c.contextIn.fromDb).flatMap (fun (i, s) =>
    m.checkDbSource (path ++ [.key "context_in", .key "from_db", .index i]) s) ++
  (numbered 0 c.contextOut.artifacts).flatMap fun (i, a) =>
    checkTemplate (path ++ [.key "context_out", .key "artifacts", .index i, .key "file"]) a.file

/-- The findings about the payload fields that a rule asks for; only if every event that starts the step is
declared. -/
def checkPayload (path : Location) (s : Step) (triggers : List EventDefinition) : List Located :=
  if !triggers.isEmpty && triggers.length == s.triggerEvents.length then
    (numbered 0 s.rules.input.payload).flatMap fun (i, name) =>
      findIf (!triggers.any fun e => e.hasField name) (path ++ [.key "payload", .index i]) (.payloadField name)
  else []

def checkExists (m : Manifest) (location : Location) (expression : String) : List Located :=
  match predicateOn expression none with
  | .error f => [⟨location, .expression f⟩]
  | .ok (_, target) =>
    match tableNamed? m.database.tables target with
    | none => [⟨location, .table target⟩]
    | some t => checkPredicate location expression t

def orderOperators (p : Predicate) : List Predicate.Operator :=
  p.conditions.filterMap fun
    | .comparison _ op _ => if op.isOrder then some op else none
    | .membership .. => none

def checkStatePredicate (m : Manifest) (location : Location) (expression : String) : List Located :=
  match Predicate.parse expression with
  | .error f => [⟨location, .expression f⟩]
  | .ok p =>
    findIf p.table.isSome location .stateExists ++
    (orderOperators p).map (fun op => ⟨location, .stateOperator op⟩) ++
    (p.literals.filter (· != .null)).flatMap fun s => m.checkState location s.plainText

def checkInput (m : Manifest) (path : Location) (s : Step) (triggers : List EventDefinition) : List Located :=
  let rule := s.rules.input
  checkPayload path s triggers ++
  (match rule.exist with
  | some e => m.checkExists (path ++ [.key "exists"]) e
  | none => []) ++
  (match rule.state with
  | some e => m.checkStatePredicate (path ++ [.key "state"]) e
  | none => []) ++
  (numbered 0 rule.files).flatMap fun (i, source) => checkTemplate (path ++ [.key "files", .index i]) source

def checkStep (m : Manifest) (custom : Option (List String)) (path : Location) (s : Step) : List Located :=
  let triggers := m.triggersOf s
  m.checkSource path s ++
  m.checkSites path s.triggerSites ++
  m.checkSites path s.emitted ++
  checkTriggerKeys path triggers s ++
  (match s.contract? with
  | some c => m.checkContract (path ++ [.key "contract"]) c
  | none => []) ++
  m.checkInput (path ++ [.key "validate_input"]) s triggers ++
  checkActions m.database.tables custom (path ++ [.key "persist"]) s.rules.persist

/-- Every finding about a manifest but those about events that start no step. -/
def checkReferences (m : Manifest) (custom : Option (List String)) : List Located :=
  m.checkDuplicates ++ m.checkStates ++ m.checkEvents ++ m.checkWebhooksAndCrons ++ m.checkPolicies ++
    m.steps.flatMap fun (path, s) => m.checkStep custom path s

def findings (m : Manifest) (settings : Settings) (custom : Option (List String)) : List Located :=
  m.checkReferences custom ++ if settings.reportUnconsumed then m.checkUnconsumed else []

/-- The diagnostics of a manifest whose nodes are well shaped. -/
def diagnose (m : Manifest) (settings : Settings) (custom : Option (List String)) :
    Except Breakdown (List Diagnostic) :=
  Located.diagnostics settings (m.findings settings custom)

end Manifest

end Workflow
