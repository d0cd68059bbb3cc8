import Workflow.Manifest

/-!
# Steps

Agents and functions are the steps of a manifest. A step starts on events and may emit events; each
place where it may emit one has a location within the step.
-/

namespace Workflow

inductive Step where
  | agent (a : Agent)
  | function (f : Function)
  deriving DecidableEq

def Trigger.events : Trigger → List String
  | simple t => [t.event]
  | fanIn t => t.primary :: t.waitFor
  | cron _ => []
  | routing t => [t.event]
  | webhook _ => []

def numbered {α : Type} (n : Nat) : List α → List (Nat × α)
  | [] => []
  | a :: rest => (n, a) :: numbered (n + 1) rest

/-- An event and the place that names it. -/
structure EventSite where
  event : String
  location : Location
  deriving DecidableEq

def Route.sites (route : String × Route) : List EventSite :=
  let at' (k : String) : Location := [.key "trigger", .key "routes", .key route.1, .key k]
  ⟨route.2.emit, at' "emit"⟩ :: (route.2.next.map fun e => (⟨e, at' "then"⟩ : EventSite)).toList

def Trigger.emitted : Trigger → List EventSite
  | routing t => t.routes.flatMap Route.sites
  | _ => []

namespace Step

def name : Step → String
  | agent a => a.name
  | function f => f.name

def rules : Step → StepRules
  | agent a => a.toStepRules
  | function f => f.toStepRules

def contract? : Step → Option Contract
  | agent a => some a.contract
  | function f => f.contract

def triggerEvents : Step → List String
  | agent a => a.triggers.map TriggerRef.event
  | function f => f.trigger.events

def emitted : Step → List EventSite
  | agent a => (numbered 0 a.emits).map fun e => ⟨e.2.event, [.key "emits", .index e.1, .key "event"]⟩
  | function f =>
    (numbered 0 f.emits).map (fun e => ⟨e.2, [.key "emits", .index e.1]⟩) ++ f.trigger.emitted

end Step

/-- The steps of a manifest with their locations, agents first. -/
def Manifest.steps (m : Manifest) : List (Location × Step) :=
  (numbered 0 m.agents).map (fun a => ([.key "agents", .index a.1], .agent a.2)) ++
    (numbered 0 m.functions).map (fun f => ([.key "functions", .index f.1], .function f.2))

end Workflow
