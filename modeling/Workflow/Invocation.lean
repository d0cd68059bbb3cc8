import Workflow.Persist
import Workflow.Plan

/-!
# Invocations

An invocation of a step checks its input, runs its body, checks the output, and commits it by applying the
persist actions. A check that fails rejects the invocation; only a committed one writes anything.
-/

namespace Workflow

inductive Phase where
  | pending | inputValidating | inputRejected | processing | outputValidating | outputRejected | committed
  deriving DecidableEq

def Phase.name : Phase → String
  | pending => "pending"
  | inputValidating => "input_validating"
  | inputRejected => "input_rejected"
  | processing => "processing"
  | outputValidating => "output_validating"
  | outputRejected => "output_rejected"
  | committed => "committed"

/-- What ends a check early: the invocation is rejected, or it cannot go on at all. -/
inductive Stop where
  | rejected (r : Rejection)
  | failed (f : Failure)

/-- An expression that cannot be applied rejects the invocation, but a breakdown ends everything. -/
def ExpressionFault.stop (f : ExpressionFault) : Stop :=
  match f.breakdown? with
  | some b => .failed (.breakdown b)
  | none => .rejected (.expression f)

/-- A host may reject an invocation, and a clause that it cannot read counts as an expression of the step; any other
failure ends everything. -/
def Failure.stop : Failure → Stop
  | store (.clause f) => f.stop
  | rejection (.expression f) => f.stop
  | rejection r => .rejected r
  | f => .failed f

/-- What ends the check of an output. A rejection that does not belong to it is a failure of the host. -/
def Stop.ofOutput : Stop → Stop
  | rejected r => if r.isOfOutput then .rejected r else .failed (.rejection r)
  | failed f => .failed f

structure Invocation where
  step : String
  phases : List Phase
  output : Option Members
  rejection : Option Rejection
  mutations : List MutationRecord
  persistFault : Option PersistFault

namespace Invocation

def phase (i : Invocation) : Phase := i.phases.getLastD .pending

def isCommitted (i : Invocation) : Bool := i.phase == .committed

def isRejected (i : Invocation) : Bool := i.phase == .inputRejected || i.phase == .outputRejected

def bodyRan (i : Invocation) : Bool := i.phases.contains .processing

end Invocation

/-! ## Capabilities -/

/-- What the surroundings offer besides running bodies. -/
structure Capabilities where
  query : Bool
  artifacts : Bool
  store : Bool
  /-- The names of the custom actions. -/
  custom : List String
  schemas : Index OutputCheck

/-- A step that needs a capability which is not there. -/
inductive CapabilityFault where
  | query (step : String)
  | artifacts (step : String)
  | store (step : String)
  | custom (step ref : String)
  deriving DecidableEq

def CapabilityFault.message : CapabilityFault → String
  | query s => s!"step '{s}' uses validate_input.exists but no query_fn was given"
  | artifacts s => s!"step '{s}' checks artifacts but no artifact_exists was given"
  | store s => s!"step '{s}' has persist actions but no store was given"
  | custom s ref => s!"step '{s}' uses custom action '{ref}' but it is not registered"

def Step.usesArtifacts (s : Step) : Bool :=
  !s.rules.input.files.isEmpty || (s.rules.output.requireArtifacts && s.contract?.isSome)

namespace Capabilities

def unregistered (c : Capabilities) (actions : List PersistAction) : List String :=
  actions.filterMap fun
    | .custom a => if c.custom.contains a.ref then none else some a.ref
    | _ => none

def fault? (c : Capabilities) (name : String) (s : Step) : Option CapabilityFault :=
  if s.rules.input.exist.isSome && !c.query then some (.query name)
  else if s.usesArtifacts && !c.artifacts then some (.artifacts name)
  else if !s.rules.persist.isEmpty && !c.store then some (.store name)
  else (c.unregistered s.rules.persist).head?.map fun ref => .custom name ref

/-- Whether a plan can be run: the first step that lacks something is the reason if it cannot. -/
def check (c : Capabilities) (p : Plan) : Except CapabilityFault Unit :=
  match p.steps.findSome? fun (name, s) => c.fault? name s with
  | some f => .error f
  | none => .ok ()

end Capabilities

/-! ## Checks -/

section

variable {σ : Type} (h : Host σ)

abbrev Check (σ α : Type) := ExceptT Stop (Run σ) α

def reject {α : Type} (r : Rejection) : Check σ α := throw (.rejected r)

def expect {α : Type} (r : Except ExpressionFault α) : Check σ α :=
  match r with
  | .ok a => pure a
  | .error f => throw f.stop

def demand (r : Request) : Check σ r.Reply := do
  match ← (Run.ask h r : Run σ _) with
  | .ok a => pure a
  | .error f => throw f.stop

/-- The text of a template for a context. -/
def renderTemplate (source : String) (context : Members) : Except ExpressionFault String :=
  match Template.parse source with
  | .error f => .error (.template source f)
  | .ok t => (t.render context).mapError ResolutionFault.within

def isPresent (payload : Members) (name : String) : Bool := (Members.get? payload name).any fun v => !v.isNull

def checkPayloadFields (payload : Members) (names : List String) : Check σ Unit :=
  match names.find? fun n => !isPresent payload n with
  | some n => reject (.payloadField n)
  | none => pure ()

def checkExistence (payload : Members) (expression : String) : Check σ Unit := do
  let q ← expect (existenceQuery expression payload none)
  let n ← demand h (.count q)
  if n ≤ 0 then reject (.precondition expression q.table)

def checkCurrentState (payload : Members) (current : Option String) (e : String) : Check σ Unit := do
  if !(← expect (evaluateState e payload current)) then reject (.state e current)

def checkFiles (payload : Members) : List String → Check σ Unit
  | [] => pure ()
  | source :: rest => do
    let path ← expect (renderTemplate source payload)
    if ← demand h (.artifact path) then checkFiles payload rest else reject (.artifact path)

def checkStepInput (rule : ValidationRule) (payload : Members) (current : Option String) : Check σ Unit := do
  checkPayloadFields payload rule.payload
  if let some e := rule.exist then checkExistence h payload e
  if let some e := rule.state then checkCurrentState payload current e
  checkFiles h payload rule.files

def missingFields (output : Members) : List String → Except Breakdown (List String)
  | [] => .ok []
  | f :: rest => do
    -- a field that cannot be looked for ends all, whatever is missing before it
    let found ← hasPath output f
    let more ← missingFields output rest
    return if found then more else f :: more

def absentArtifacts (context : Members) : List ArtifactSpec → Check σ (List String)
  | [] => pure []
  | a :: rest => do
    let path ← expect (renderTemplate a.file context)
    let there ← demand h (.artifact path)
    -- the others are looked for all the same, so that each missing one is told
    let more ← absentArtifacts context rest
    return if there then more else path :: more

/-- An output has to report success. The error that it reports in place of it is told. -/
def checkSuccess (output : Members) : Check σ Unit :=
  if reportsSuccess output then pure ()
  else
    match reportedError output with
    | .error b => throw (.failed (.breakdown b))
    | .ok error => reject (.output (.unsuccessful error))

def checkFields (output : Members) (names : List String) : Check σ Unit :=
  match missingFields output names with
  | .error b => throw (.failed (.breakdown b))
  | .ok [] => pure ()
  | .ok ns => reject (.output (.fields ns))

def checkSchema (schemas : Index OutputCheck) (name : String) (output : Members) : Check σ Unit :=
  match schemas.get? name with
  | none => pure ()
  | some check =>
    match check output with
    | [] => pure ()
    | problems => reject (.output (.schema name (problems.map OutputProblem.text)))

/-- The payload of a trigger together with the output of the step. -/
def resultContext (payload output : Members) : Members := Members.put (.text "result") (.mapping output) payload

def checkArtifacts (c : Contract) (payload output : Members) : Check σ Unit := do
  match ← absentArtifacts h (resultContext payload output) (c.contextOut.artifacts.filter ArtifactSpec.required) with
  | [] => pure ()
  | paths => reject (.output (.artifacts paths))

/-- Check what the body of a step returned. -/
def checkStepOutput (schemas : Index OutputCheck) (s : Step) (payload : Members) (output : Value) : Check σ Members :=
  match output with
  | .mapping ms => do
    let rule := s.rules.output
    if rule.requireSuccess then checkSuccess ms
    checkFields ms rule.requiredFields
    if let some c := s.contract? then
      checkSchema schemas c.outputSchema ms
      if rule.requireArtifacts then checkArtifacts h c payload ms
    return ms
  | v => reject (.output (.kind v.kindName))

/-! ## Running a step -/

def flowLogger : String := loggerName "engine.flow"

def noteRejection (step : String) (phase : Phase) (r : Rejection) : Run σ Unit :=
  Run.note .info flowLogger "invocation_rejected" [
    ("step", .text step), ("phase", .text phase.name), ("error_type", .text r.kind), ("error", .text r.message)]

def rejectedAt (step : String) (phases : List Phase) (phase : Phase) (output : Option Members) (r : Rejection) :
    Run σ Invocation := do
  noteRejection step phase r
  return ⟨step, phases ++ [phase], output, some r, [], none⟩

def mutationsOf : Except PersistFault (List MutationRecord) → Except Failure (List MutationRecord × Option PersistFault)
  | .ok rs => .ok (rs, none)
  -- what was applied before the failure stays applied
  | .error (.failed f) => .ok (f.applied, some (.failed f))
  | .error (.unresolved f) =>
    match f.breakdown? with
    | some b => .error (.breakdown b)
    | none => .ok ([], some (.unresolved f))

def notePersistFault (step : String) : Option PersistFault → Run σ Unit
  | some (.unresolved f) => Run.note .error flowLogger "persist_unresolved" [("step", .text step), ("error", .text f.message)]
  | _ => return ()

def commit (custom : List String) (step : String) (actions : List PersistAction) (payload output : Members) :
    Run σ (Except Failure Invocation) := do
  match mutationsOf (← applyActions h custom (resultContext payload output) actions) with
  | .error f => return .error f
  | .ok (mutations, fault) =>
    notePersistFault step fault
    Run.note .debug flowLogger "invocation_committed" [
      ("step", .text step), ("mutations", .int mutations.length), ("persist_failed", .bool fault.isSome)]
    let phases := [Phase.pending, .inputValidating, .processing, .outputValidating, .committed]
    return .ok ⟨step, phases, some output, none, mutations, fault⟩

def membersOf? : Value → Option Members
  | .mapping ms => some ms
  | _ => none

def runStep (c : Capabilities) (name : String) (s : Step) (payload : Members) (current : Option String) :
    Run σ (Except Failure Invocation) := do
  match ← (checkStepInput h s.rules.input payload current).run with
  | .error (.rejected r) => return .ok (← rejectedAt name [.pending, .inputValidating] .inputRejected none r)
  | .error (.failed f) => return .error f
  | .ok () =>
    match ← Run.ask h (.body payload) with
    | .error f => return .error f
    | .ok output =>
      match (← (checkStepOutput h c.schemas s payload output).run).mapError Stop.ofOutput with
      | .error (.rejected r) =>
        let phases := [Phase.pending, .inputValidating, .processing, .outputValidating]
        return .ok (← rejectedAt name phases .outputRejected (membersOf? output) r)
      | .error (.failed f) => return .error f
      | .ok ms => commit h c.custom name s.rules.persist payload ms

end

/-- Why an invocation has no result. -/
inductive InvocationFault where
  | unknownStep (u : UnknownStep)
  | failed (f : Failure)

/-- Invoke a step of a plan. -/
def Plan.invoke {σ : Type} (p : Plan) (h : Host σ) (c : Capabilities) (name : String) (payload : Members)
    (current : Option String) : Run σ (Except InvocationFault Invocation) :=
  match p.step name with
  | .error u => return .error (.unknownStep u)
  | .ok s => do
    match ← runStep h c name s payload current with
    | .ok i => return .ok i
    | .error f => return .error (.failed f)

/-! ## Evaluating existence

An existence predicate holds where a host counts one row at least. The host is asked only after the predicate is
read, its table is known and its operands have their values.
-/

/-- Why an existence predicate has no answer. -/
inductive EvaluationFault where
  | expression (f : ExpressionFault)
  | host (f : Failure)

def EvaluationFault.stop : EvaluationFault → Stop
  | expression f => f.stop
  | host f => f.stop

/-- Whether a host has a row that a predicate describes. -/
def evaluateExistence {σ : Type} (h : Host σ) (expression : String) (context : Members) (fallback : Option String) :
    Run σ (Except EvaluationFault Bool) :=
  match existenceQuery expression context fallback with
  | .error f => return .error (.expression f)
  | .ok q => return ((← Run.ask h (.count q)).mapError .host).map fun n => decide (0 < n)

end Workflow
