import Workflow.Shape

/-!
# Webhooks and crons

Ways into the workflow from outside: a webhook emits an event or hands over to a function, and a cron starts
a function on a schedule.
-/

namespace Workflow

structure WebhookHandler where
  validation : List String
  transform : List String
  deriving DecidableEq

structure WebhookHead where
  name : String
  path : String
  auth : String
  secret : Option String
  description : Option String
  deriving DecidableEq

structure EventRoute where
  emits : String
  transform : Option String
  handler : Option WebhookHandler
  deriving DecidableEq

structure FunctionRoute where
  function : String
  deriving DecidableEq

inductive WebhookTarget where
  | event (r : EventRoute)
  | function (r : FunctionRoute)
  deriving DecidableEq

structure Webhook extends WebhookHead where
  target : WebhookTarget
  deriving DecidableEq

/-- Every webhook that authenticates has a secret. -/
def WebhookHead.breach? (w : WebhookHead) : Option Breach :=
  if w.auth ≠ "none" ∧ w.secret.getD "" = "" then some (.webhookSecret w.name w.auth) else none

structure Cron where
  name : String
  schedule : String
  function : String
  description : Option String
  deriving DecidableEq

namespace Shape

def webhookHandler : Shape WebhookHandler :=
  node "WebhookHandler" <| Fields.of WebhookHandler.mk
    |>.fieldOr "validation" (tuple text) [] (·.validation)
    |>.fieldOr "transform" (tuple text) [] (·.transform)

def rootedPath : Shape String :=
  text.checked fun p => if p.startsWith "/" then none else some (.webhookPath p)

def webhookHead : Fields WebhookHead WebhookHead :=
  Fields.of WebhookHead.mk
    |>.field "name" filledText (·.name)
    |>.field "path" rootedPath (·.path)
    |>.field "auth" (oneOf ["hmac", "api_key", "bearer", "none"]) (·.auth)
    |>.fieldOr "secret" (nullable text) none (·.secret)
    |>.fieldOr "description" (nullable text) none (·.description)

def eventRoute : Fields EventRoute EventRoute :=
  Fields.of EventRoute.mk
    |>.field "emits" text (·.emits)
    |>.fieldOr "transform" (nullable text) none (·.transform)
    |>.fieldOr "handler" (nullable webhookHandler) none (·.handler)

def functionRoute : Fields FunctionRoute FunctionRoute :=
  Fields.of FunctionRoute.mk
    |>.field "function" text (·.function)

def webhookOf {τ : Type} (name routing : String) (target : Fields τ τ) : Shape (WebhookHead × τ) :=
  (node name <| ((Fields.of Prod.mk).part webhookHead Prod.fst).constant "routing" routing
    |>.part target Prod.snd).checked fun w => w.1.breach?

def eventWebhook : Shape (WebhookHead × EventRoute) := webhookOf "EventWebhook" "event" eventRoute

def functionWebhook : Shape (WebhookHead × FunctionRoute) := webhookOf "FunctionWebhook" "function" functionRoute

def webhook : Shape Webhook where
  read := readTagged "routing" [
    ("event", fun v => (eventWebhook.read v).map fun w => ⟨w.1, .event w.2⟩),
    ("function", fun v => (functionWebhook.read v).map fun w => ⟨w.1, .function w.2⟩)]
  write w :=
    match w.target with
    | .event r => eventWebhook.write (w.toWebhookHead, r)
    | .function r => functionWebhook.write (w.toWebhookHead, r)

def scheduleText : Shape String :=
  text.checked fun s => if isSchedule s then none else some (.schedule s)

def cron : Shape Cron :=
  node "Cron" <| Fields.of Cron.mk
    |>.field "name" filledText (·.name)
    |>.field "schedule" scheduleText (·.schedule)
    |>.field "function" text (·.function)
    |>.fieldOr "description" (nullable text) none (·.description)

end Shape

end Workflow
