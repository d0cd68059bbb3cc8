import Workflow.Invocation

/-!
# Engines

An engine is set up for a plan with the capabilities that there are, and is refused if a step of the plan lacks one. It
invokes the steps, and asserts that a capability is there wherever it is about to use it.
-/

namespace Workflow

/-- A capability that is not there when it is to be used. -/
inductive Assertion where
  | query | artifacts | executor
  deriving DecidableEq

/-- A plan with the capabilities that its steps need. -/
structure Engine where
  plan : Plan
  capabilities : Capabilities
  complete : capabilities.check plan = .ok ()

/-- Set up an engine. -/
def Engine.of (plan : Plan) (capabilities : Capabilities) : Except CapabilityFault Engine :=
  match h : capabilities.check plan with
  | .ok () => .ok ⟨plan, capabilities, h⟩
  | .error f => .error f

/-! ## Checks with assertions -/

abbrev Asserting (σ : Type) := ExceptT Assertion (Run σ)

abbrev AssertingCheck (σ α : Type) := ExceptT Stop (Asserting σ) α

section
variable {σ α : Type} (h : Host σ) (c : Capabilities)

def Check.asserting (m : Check σ α) : AssertingCheck σ α := ExceptT.mk (ExceptT.lift m.run)

def ensure {m : Type → Type} [Monad m] [MonadExceptOf Assertion m] (there : Bool) (a : Assertion) : m Unit :=
  if there then pure () else throw a

def assertFiles (payload : Members) : List String → AssertingCheck σ Unit
  | [] => pure ()
  | source :: rest => do
    let path ← (expect (renderTemplate source payload)).asserting
    ensure c.artifacts .artifacts
    if ← (demand h (.artifact path)).asserting then assertFiles payload rest else (reject (.artifact path)).asserting

def assertStepInput (rule : ValidationRule) (payload : Members) (current : Option String) : AssertingCheck σ Unit := do
  (checkPayloadFields payload rule.payload).asserting
  if let some e := rule.exist then
    ensure c.query .query
    (checkExistence h payload e).asserting
  if let some e := rule.state then (checkCurrentState payload current e).asserting
  assertFiles h c payload rule.files

def assertStepOutput (s : Step) (payload : Members) (output : Value) : AssertingCheck σ Members :=
  match output with
  | .mapping ms => do
    let rule := s.rules.output
    if rule.requireSuccess then (checkSuccess ms).asserting
    (checkFields ms rule.requiredFields).asserting
    if let some contract := s.contract? then
      (checkSchema c.schemas contract.outputSchema ms).asserting
      if rule.requireArtifacts then
        ensure c.artifacts .artifacts
        (checkArtifacts h contract payload ms).asserting
    return ms
  | v => (reject (.output (.kind v.kindName))).asserting

/-! ## Running a step -/

def assertStep (name : String) (s : Step) (payload : Members) (current : Option String) :
    Asserting σ (Except Failure Invocation) := do
  match ← (assertStepInput h c s.rules.input payload current).run with
  | .error (.rejected r) => return .ok (← (rejectedAt name [.pending, .inputValidating] .inputRejected none r : Run σ _))
  | .error (.failed f) => return .error f
  | .ok () =>
    match ← (Run.ask h (.body payload) : Run σ _) with
    | .error f => return .error f
    | .ok output =>
      match (← (assertStepOutput h c s payload output).run).mapError Stop.ofOutput with
      | .error (.rejected r) =>
        let phases := [Phase.pending, .inputValidating, .processing, .outputValidating]
        return .ok (← (rejectedAt name phases .outputRejected (membersOf? output) r : Run σ _))
      | .error (.failed f) => return .error f
      | .ok ms =>
        if !s.rules.persist.isEmpty then ensure c.store .executor
        (commit h c.custom name s.rules.persist payload ms : Run σ _)

/-- Invoke a step. -/
def Engine.invoke (e : Engine) (name : String) (payload : Members) (current : Option String) :
    Asserting σ (Except InvocationFault Invocation) :=
  match e.plan.step name with
  | .error u => return .error (.unknownStep u)
  | .ok s => do
    match ← assertStep h e.capabilities name s payload current with
    | .ok i => return .ok i
    | .error f => return .error (.failed f)

end

end Workflow
