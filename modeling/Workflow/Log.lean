import Workflow.Value
import Workflow.Settings

/-!
# Log entries

An entry is an event with its level, the logger that it comes from, and fields of its own. A logger drops the
entries below its level and writes every other one as a record.
-/

namespace Workflow

structure LogEntry where
  level : LogLevel
  logger : String
  event : String
  fields : List (String × Value)

def loggerName (part : String) : String := "agentmanifest." ++ part

structure Logger where
  /-- The least level that is written. -/
  level : LogLevel
  /-- What every record carries. -/
  bound : Index Value

namespace Logger

def nameField : String := "logger_name"

/-- A logger with values that every record carries. Its name is one of them, unless they have another. -/
def named (level : LogLevel) (name : Option String) (values : Index Value) : Logger where
  level
  bound :=
    match name, values.get? nameField with
    | some n, none => values ++ [(nameField, .text n)]
    | _, _ => values

/-- What is written of an event. Its fields go before those of the logger, its level and time before both. -/
def record (l : Logger) (time : String) (level : LogLevel) (event : String) (fields : Index Value) :
    Option (Index Value) :=
  if level.rank < l.level.rank then none
  else
    some <|
      (((fields.foldl (fun r (k, v) => r.put k v) l.bound).put "event" (.text event)).put "level" (.text level.name)).put
        "timestamp" (.text time)

end Logger

end Workflow
