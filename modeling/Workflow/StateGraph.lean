import Workflow.Manifest.State

/-!
# The graph of states

States and the transitions between them. States are listed in the order in which they came up, and a
transition is counted once.
-/

namespace Workflow

structure StateGraph where
  states : List String
  transitions : List (String × String)
  terminal : List String
  initial : Option String

def insertOnce {α : Type} [BEq α] (a : α) (as : List α) : List α := if as.contains a then as else as ++ [a]

namespace StateGraph

def empty : StateGraph := ⟨[], [], [], none⟩

def hasState (g : StateGraph) (s : String) : Bool := g.states.contains s

def hasTransition (g : StateGraph) (source target : String) : Bool := g.transitions.contains (source, target)

def addState (g : StateGraph) (s : String) (terminal : Bool) : StateGraph :=
  { g with states := insertOnce s g.states, terminal := if terminal then insertOnce s g.terminal else g.terminal }

def addTransition (g : StateGraph) (source target : String) : StateGraph :=
  { g with
    states := insertOnce target (insertOnce source g.states)
    transitions := insertOnce (source, target) g.transitions }

def targets (g : StateGraph) (s : String) : List String := (g.transitions.filter fun t => t.1 == s).map Prod.snd

def spread (g : StateGraph) (ss : List String) : List String := (ss.flatMap g.targets).foldl (fun acc s => insertOnce s acc) ss

/-- The states that at most `n` transitions lead to. -/
def within (g : StateGraph) : Nat → List String → List String
  | 0, ss => ss
  | n + 1, ss => g.within n (g.spread ss)

/-- The states that transitions lead to from a state, and that state. A path needs no more steps than there
are states. -/
def reachableFrom (g : StateGraph) (s : String) : List String :=
  if g.hasState s then g.within g.states.length [s] else []

/-- The states that the initial state does not lead to. Without an initial state nothing is said. -/
def unreachable (g : StateGraph) : List String :=
  match g.initial with
  | some i => if g.hasState i then let reached := g.reachableFrom i; g.states.filter fun s => !reached.contains s else []
  | none => []

def deadEnds (g : StateGraph) : List String :=
  g.states.filter fun s => !g.terminal.contains s && (g.targets s).isEmpty

def canTerminate (g : StateGraph) (s : String) : Bool := (g.reachableFrom s).any g.terminal.contains

end StateGraph

/-- The graph of a machine; transitions to states that are not declared are left out. -/
def StateMachine.graph (m : StateMachine) : StateGraph :=
  let declared := m.states.foldl (fun g s => g.addState s.name s.terminal) { StateGraph.empty with initial := some m.initial }
  let edges := m.states.flatMap fun s => (s.transitions.filter m.names.contains).map fun t => (s.name, t)
  edges.foldl (fun g e => g.addTransition e.1 e.2) declared

end Workflow
