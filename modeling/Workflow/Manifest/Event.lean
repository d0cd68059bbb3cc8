import Workflow.Shape

/-!
# Events

The events that steps wait for and emit, with the fields of their payloads.
-/

namespace Workflow

inductive FieldType where
  | string | number | boolean | object
  deriving DecidableEq

def FieldType.name : FieldType → String
  | string => "string"
  | number => "number"
  | boolean => "boolean"
  | object => "object"

structure EventField where
  type : FieldType
  required : Bool
  enum : Option (List String)
  least : Option Binary64
  greatest : Option Binary64
  deriving DecidableEq

/-- Values are listed for texts only and bounds given for numbers only, in the right order. -/
def EventField.breach? (f : EventField) : Option Breach :=
  if f.enum.isSome && f.type != .string then some .enumOfOther
  else if f.enum == some [] then some .enumEmpty
  else if (f.least.isSome || f.greatest.isSome) && f.type != .number then some .boundsOfOther
  else
    match f.least, f.greatest with
    | some a, some b => if a.compare? b = some .gt then some (.boundsCrossed a b) else none
    | _, _ => none

structure EventDefinition where
  name : String
  description : Option String
  payload : List (String × EventField)
  idempotencyKey : Option String
  deriving DecidableEq

structure Events where
  topic : String
  definitions : List EventDefinition
  deriving DecidableEq

def Events.names (e : Events) : List String := e.definitions.map EventDefinition.name

namespace Shape

def eventField : Shape EventField :=
  (node "EventField" <| Fields.of EventField.mk
    |>.field "type" (choice [.string, .number, .boolean, .object] FieldType.name) (·.type)
    |>.fieldOr "required" bool false (·.required)
    |>.fieldOr "enum" (nullable (tuple text)) none (·.enum)
    |>.fieldOr "min" (nullable float) none (·.least)
    |>.fieldOr "max" (nullable float) none (·.greatest)).checked EventField.breach?

def eventDefinition : Shape EventDefinition :=
  node "EventDefinition" <| Fields.of EventDefinition.mk
    |>.field "name" filledText (·.name)
    |>.fieldOr "description" (nullable text) none (·.description)
    |>.fieldOr "payload" (entries eventField) [] (·.payload)
    |>.fieldOr "idempotency_key" (nullable text) none (·.idempotencyKey)

def events : Shape Events :=
  node "Events" <| Fields.of Events.mk
    |>.field "namespace" filledText (·.topic)
    |>.fieldOr "definitions" (tuple eventDefinition) [] (·.definitions)

end Shape

end Workflow
