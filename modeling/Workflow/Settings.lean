import Workflow.Diagnostic
import Workflow.Shape

/-!
# Settings

How strictly a manifest is judged, and how events are logged.
-/

namespace Workflow

/-- How much a finding matters that one may choose to accept. -/
inductive Strictness where
  | warning | error
  deriving DecidableEq

namespace Strictness

def name : Strictness → String
  | warning => "warning"
  | error => "error"

def severity : Strictness → Severity
  | warning => .warning
  | error => .error

end Strictness

inductive LogLevel where
  | debug | info | warning | error
  deriving DecidableEq

namespace LogLevel

def name : LogLevel → String
  | debug => "debug"
  | info => "info"
  | warning => "warning"
  | error => "error"

def all : List LogLevel := [debug, info, warning, error]

def ofName? (name : String) : Option LogLevel := all.find? fun l => l.name == name

def rank : LogLevel → Nat
  | debug => 0
  | info => 1
  | warning => 2
  | error => 3

end LogLevel

structure Settings where
  unreachableStates : Strictness
  deadEndStates : Strictness
  undeclaredTransitions : Strictness
  /-- Whether events that start no step are mentioned. -/
  reportUnconsumed : Bool
  logLevel : LogLevel
  logFormat : String
  deriving DecidableEq

namespace Settings

def standard : Settings := ⟨.warning, .error, .warning, true, .info, "console"⟩

def strictness : Shape Strictness := .choice [.warning, .error] Strictness.name

def fields : Fields Settings Settings :=
  Fields.of Settings.mk
    |>.fieldOr "unreachable_states" strictness .warning (·.unreachableStates)
    |>.fieldOr "dead_end_states" strictness .error (·.deadEndStates)
    |>.fieldOr "undeclared_transitions" strictness .warning (·.undeclaredTransitions)
    |>.fieldOr "report_unconsumed_events" .bool true (·.reportUnconsumed)
    |>.fieldOr "log_level" (.choice LogLevel.all LogLevel.name) .info (·.logLevel)
    |>.fieldOr "log_format" (.oneOf ["json", "console"]) "console" (·.logFormat)

/-- Settings by their names; members that are no settings are passed over. -/
def read (ms : Members) : Except (List ShapeFault) Settings := fields.read ms

def dump (s : Settings) : Value := .mapping (fields.write s)

end Settings

end Workflow
