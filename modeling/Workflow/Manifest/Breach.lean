import Workflow.Value.Display
import Workflow.Text.Split
import Workflow.Text.Digit

/-!
# Rules within a node

Rules that a node of the right shape can still break: how names, durations and schedules are
written, and which fields of one node exclude each other.
-/

namespace Workflow

inductive Breach where
  | identifier (what name : String)
  | duration (what text : String)
  | schedule (text : String)
  | webhookPath (path : String)
  | webhookSecret (name auth : String)
  | terminalTransitions (state : String) (targets : List String)
  | enumOfOther
  | enumEmpty
  | boundsOfOther
  | boundsCrossed (least greatest : Binary64)
  | defaultRoute (name : String) (routes : List String)
  deriving DecidableEq

def Breach.message : Breach → String
  | identifier what name => s!"{what} '{name}' must be a valid identifier"
  | duration what text => s!"{what} '{text}' must be a duration like 30s, 5m, 2h or 1d"
  | schedule text => s!"schedule '{text}' must be a 5-field cron expression"
  | webhookPath path => s!"webhook path '{path}' must start with '/'"
  | webhookSecret name auth => s!"webhook '{name}': auth '{auth}' requires a secret"
  | terminalTransitions state targets =>
    s!"terminal state '{state}' cannot have transitions_to (found {displayTexts targets})"
  | enumOfOther => "enum is only valid for string fields"
  | enumEmpty => "enum must list at least one value"
  | boundsOfOther => "min/max are only valid for number fields"
  | boundsCrossed least greatest => s!"min ({least.text}) cannot exceed max ({greatest.text})"
  | defaultRoute name routes =>
    s!"default_route '{name}' is not one of the routes: {displayTexts routes.mergeSort}"

/-! ## Lexical classes -/

/-- A text without the one line break that may end it. -/
def dropLineEnd (cs : List Char) : List Char := if cs.getLast? = some '\n' then cs.dropLast else cs

def isIdentifierStart (c : Char) : Bool := c.isAlpha || c == '_'

/-- A letter or underscore, followed by letters, digits and underscores, all of ASCII. -/
def isIdentifierChars : List Char → Bool
  | [] => false
  | c :: rest => isIdentifierStart c && rest.all fun d => isIdentifierStart d || d.isDigit

def isIdentifier (s : String) : Bool := isIdentifierChars (dropLineEnd s.toList)

def durationUnits : List (List Char) := [['m', 's'], ['s'], ['m'], ['h'], ['d']]

def isDurationChars (cs : List Char) : Bool :=
  !(cs.takeWhile isDecimal).isEmpty && durationUnits.contains (cs.dropWhile isDecimal)

def isDuration (s : String) : Bool := isDurationChars (dropLineEnd s.toList)

def isScheduleChar (c : Char) : Bool :=
  isDecimal c || c.isAlpha || ['*', '/', ',', '-', '?', '#'].contains c

/-- Five fields of digits, letters and the signs of a schedule. -/
def isSchedule (s : String) : Bool :=
  let fields := blankFields s.toList
  fields.length == 5 && fields.all fun f => f.all isScheduleChar

end Workflow
