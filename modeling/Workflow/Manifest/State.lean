import Workflow.Shape

/-!
# States

The states an entity can be in and the transitions between them. A terminal state leads nowhere.
-/

namespace Workflow

structure StateDefinition where
  name : String
  transitions : List String
  terminal : Bool
  deriving DecidableEq

structure StateMachine where
  initial : String
  states : List StateDefinition
  deriving DecidableEq

def StateDefinition.breach? (s : StateDefinition) : Option Breach :=
  if s.terminal && !s.transitions.isEmpty then some (.terminalTransitions s.name s.transitions) else none

def StateMachine.names (m : StateMachine) : List String := m.states.map StateDefinition.name

namespace Shape

def stateDefinition : Shape StateDefinition :=
  (node "StateDefinition" <| Fields.of StateDefinition.mk
    |>.field "name" filledText (·.name)
    |>.fieldOr "transitions_to" (tuple text) [] (·.transitions)
    |>.fieldOr "terminal" bool false (·.terminal)).checked StateDefinition.breach?

def stateMachine : Shape StateMachine :=
  node "StateMachine" <| Fields.of StateMachine.mk
    |>.field "initial" filledText (·.initial)
    |>.field "states" (filledTuple stateDefinition) (·.states)

end Shape

end Workflow
