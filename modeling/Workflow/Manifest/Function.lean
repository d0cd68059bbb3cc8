import Workflow.Manifest.Agent

/-!
# Functions

Steps whose body is code. The pattern of a function says how it is started: by one event, by several
that belong together, by a schedule, by an event that is routed on, or by a webhook.
-/

namespace Workflow

structure FanInTrigger where
  primary : String
  waitFor : List String
  correlationKey : String
  timeout : Option String
  deriving DecidableEq

structure CronTrigger where
  cron : String
  schedule : String
  deriving DecidableEq

structure Route where
  emit : String
  next : Option String
  deriving DecidableEq

structure RoutingTrigger where
  event : String
  routeOn : String
  routes : List (String × Route)
  defaultRoute : Option String
  deriving DecidableEq

structure WebhookTrigger where
  webhook : String
  deriving DecidableEq

inductive Trigger where
  | simple (t : TriggerRef)
  | fanIn (t : FanInTrigger)
  | cron (t : CronTrigger)
  | routing (t : RoutingTrigger)
  | webhook (t : WebhookTrigger)
  deriving DecidableEq

def Trigger.pattern : Trigger → String
  | simple _ => "simple"
  | fanIn _ => "fan-in"
  | cron _ => "cron"
  | routing _ => "routing"
  | webhook _ => "inngest-first-webhook"

structure FunctionHead extends StepRules where
  name : String
  description : String
  emits : List String
  actions : List String
  integrations : List String
  context : Option String
  openQuestions : List String
  contract : Option Contract
  deriving DecidableEq

structure Function extends FunctionHead where
  trigger : Trigger
  deriving DecidableEq

/-- A default route is one of the routes. -/
def RoutingTrigger.breach? (t : RoutingTrigger) : Option Breach :=
  match t.defaultRoute with
  | some r => if (t.routes.map Prod.fst).contains r then none else some (.defaultRoute r (t.routes.map Prod.fst))
  | none => none

namespace Shape

def simpleTrigger : Shape TriggerRef :=
  node "SimpleTrigger" <| Fields.of TriggerRef.mk
    |>.field "event" text (·.event)

def fanInTrigger : Shape FanInTrigger :=
  node "FanInTrigger" <| Fields.of FanInTrigger.mk
    |>.field "primary" text (·.primary)
    |>.field "wait_for" (filledTuple text) (·.waitFor)
    |>.field "correlation_key" text (·.correlationKey)
    |>.fieldOr "timeout" (durationOrNull "timeout") none (·.timeout)

def cronTrigger : Shape CronTrigger :=
  node "CronTrigger" <| Fields.of CronTrigger.mk
    |>.field "cron" text (·.cron)
    |>.field "schedule" text (·.schedule)

def route : Shape Route :=
  node "Route" <| Fields.of Route.mk
    |>.field "emit" text (·.emit)
    |>.fieldOr "then" (nullable text) none (·.next)

def routingTrigger : Shape RoutingTrigger :=
  node "RoutingTrigger" <| Fields.of RoutingTrigger.mk
    |>.field "event" text (·.event)
    |>.field "route_on" text (·.routeOn)
    |>.field "routes" (filledEntries route) (·.routes)
    |>.fieldOr "default_route" (nullable text) none (·.defaultRoute)

def webhookTrigger : Shape WebhookTrigger :=
  node "WebhookTrigger" <| Fields.of WebhookTrigger.mk
    |>.field "webhook" text (·.webhook)

def functionHead : Fields FunctionHead FunctionHead :=
  (Fields.of FunctionHead.mk).part stepRules (·.toStepRules)
    |>.field "name" filledText (·.name)
    |>.field "description" text (·.description)
    |>.fieldOr "emits" (tuple text) [] (·.emits)
    |>.fieldOr "actions" (tuple text) [] (·.actions)
    |>.fieldOr "integrations" (tuple text) [] (·.integrations)
    |>.fieldOr "context" (nullable text) none (·.context)
    |>.fieldOr "open_questions" (tuple text) [] (·.openQuestions)
    |>.fieldOr "contract" (nullable contract) none (·.contract)

def functionOf {τ : Type} (name pattern : String) (trigger : Shape τ) : Shape (FunctionHead × τ) :=
  node name <| ((Fields.of Prod.mk).part functionHead Prod.fst).constant "pattern" pattern
    |>.field "trigger" trigger Prod.snd

def simpleFunction : Shape (FunctionHead × TriggerRef) := functionOf "SimpleFunction" "simple" simpleTrigger

def fanInFunction : Shape (FunctionHead × FanInTrigger) := functionOf "FanInFunction" "fan-in" fanInTrigger

def cronFunction : Shape (FunctionHead × CronTrigger) := functionOf "CronFunction" "cron" cronTrigger

def routingFunction : Shape (FunctionHead × RoutingTrigger) :=
  (functionOf "RoutingFunction" "routing" routingTrigger).checked fun f => f.2.breach?

def webhookFunction : Shape (FunctionHead × WebhookTrigger) :=
  functionOf "WebhookFunction" "inngest-first-webhook" webhookTrigger

def function : Shape Function where
  read := readTagged "pattern" [
    ("simple", fun v => (simpleFunction.read v).map fun f => ⟨f.1, .simple f.2⟩),
    ("fan-in", fun v => (fanInFunction.read v).map fun f => ⟨f.1, .fanIn f.2⟩),
    ("cron", fun v => (cronFunction.read v).map fun f => ⟨f.1, .cron f.2⟩),
    ("routing", fun v => (routingFunction.read v).map fun f => ⟨f.1, .routing f.2⟩),
    ("inngest-first-webhook", fun v => (webhookFunction.read v).map fun f => ⟨f.1, .webhook f.2⟩)]
  write f :=
    match f.trigger with
    | .simple t => simpleFunction.write (f.toFunctionHead, t)
    | .fanIn t => fanInFunction.write (f.toFunctionHead, t)
    | .cron t => cronFunction.write (f.toFunctionHead, t)
    | .routing t => routingFunction.write (f.toFunctionHead, t)
    | .webhook t => webhookFunction.write (f.toFunctionHead, t)

end Shape

end Workflow
