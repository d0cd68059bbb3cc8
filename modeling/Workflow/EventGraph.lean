import Workflow.Manifest.Step
import Workflow.StateGraph

/-!
# The graph of events and steps

Which steps an event starts and which steps emit it. An event and a step may have one name. A step that is
only mentioned beside an event has no entry of its own, and cannot be named.
-/

namespace Workflow

/-- What a graph of events has nodes for. -/
inductive EventNode where
  | event (name : String)
  | step (name : String)
  deriving DecidableEq

def EventNode.name : EventNode → String
  | event n => n
  | step n => n

structure EventGraph where
  nodes : List EventNode
  /-- The nodes with an entry of their own. -/
  entries : List EventNode
  edges : List (EventNode × EventNode)

namespace EventGraph

def empty : EventGraph := ⟨[], [], []⟩

def addNode (g : EventGraph) (n : EventNode) : EventGraph :=
  { g with nodes := insertOnce n g.nodes, entries := insertOnce n g.entries }

def addEdge (g : EventGraph) (source target : EventNode) : EventGraph :=
  { g with
    nodes := insertOnce target (insertOnce source g.nodes)
    edges := insertOnce (source, target) g.edges }

def addEvent (g : EventGraph) (name : String) : EventGraph := g.addNode (.event name)

def addStep (g : EventGraph) (name : String) : EventGraph := g.addNode (.step name)

def addConsumer (g : EventGraph) (event step : String) : EventGraph := g.addEdge (.event event) (.step step)

def addProducer (g : EventGraph) (step event : String) : EventGraph := g.addEdge (.step step) (.event event)

/-- The names of nodes, ascending; nothing when one of them has no entry. -/
def names? (g : EventGraph) (ns : List EventNode) : Option (List String) :=
  if ns.all g.entries.contains then some (ns.map EventNode.name).mergeSort else none

def consumers? (g : EventGraph) (event : String) : Option (List String) :=
  g.names? ((g.edges.filter fun e => e.1 == .event event).map Prod.snd)

/-- The steps that emit an event. -/
def producers? (g : EventGraph) (event : String) : Option (List String) :=
  g.names? ((g.edges.filter fun e => e.2 == .event event).map Prod.fst)

def events (g : EventGraph) : List String :=
  g.nodes.filterMap fun
    | .event n => if g.entries.contains (.event n) then some n else none
    | .step _ => none

def consumersOf? (g : EventGraph) (events : List String) : Option (List (String × List String)) :=
  events.mapM fun e => (g.consumers? e).map fun ss => (e, ss)

def unconsumed? (g : EventGraph) : Option (List String) :=
  (g.consumersOf? g.events).map fun es => (es.filter fun e => e.2.isEmpty).map Prod.fst

/-- The events that start steps, ascending, with these steps. -/
def triggers? (g : EventGraph) : Option (List (String × List String)) :=
  (g.consumersOf? g.events.mergeSort).map fun es => es.filter fun e => !e.2.isEmpty

end EventGraph

namespace Manifest

def addStepEvents (declared : List String) (g : EventGraph) (s : Step) : EventGraph :=
  let consumed := s.triggerEvents.filter declared.contains
  let produced := (s.emitted.map EventSite.event).filter declared.contains
  let g := consumed.foldl (fun g e => g.addConsumer e s.name) (g.addStep s.name)
  produced.foldl (fun g e => g.addProducer s.name e) g

/-- Add a webhook that emits a declared event as a step of its own. -/
def addWebhookEvent (declared : List String) (g : EventGraph) (w : Webhook) : EventGraph :=
  match w.target with
  | .event r =>
    let step := "webhook:" ++ w.name
    if declared.contains r.emits then (g.addStep step).addProducer step r.emits else g
  | .function _ => g

/-- The graph of a manifest; references to events that are not declared are left out. -/
def eventGraph (m : Manifest) : EventGraph :=
  let declared := m.events.names
  let g := declared.foldl EventGraph.addEvent .empty
  let g := (m.steps.map Prod.snd).foldl (addStepEvents declared) g
  m.webhooks.foldl (addWebhookEvent declared) g

end Manifest

end Workflow
