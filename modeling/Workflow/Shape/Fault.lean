import Workflow.Manifest.Breach

/-!
# Faults of shape

What a value can lack of the shape that is asked for, with the code and the message that a
diagnostic gives it. Locations are relative to the value.
-/

namespace Workflow

inductive SequenceKind where
  | tuple | list
  deriving DecidableEq

def SequenceKind.word : SequenceKind → String
  | tuple => "tuple"
  | list => "list"

inductive ShapeCause where
  | text
  | textEncoding
  | textEmpty
  | bool
  | boolText
  | int
  | intText
  | intFraction
  | intSize
  | float
  | floatText
  | notFinite
  /-- A number that is not above a bound. -/
  | notAbove (bound : Int)
  /-- A number that is below a bound. -/
  | below (bound : Int)
  | choice (names : List String)
  | sequence (kind : SequenceKind)
  | sequenceEmpty
  | dictionary
  | dictionaryEmpty
  | key
  | node (name : String)
  | missing
  | unknown
  | union
  | noTag (field : String)
  | tag (field shown : String) (known : List String)
  | breach (b : Breach)
  deriving DecidableEq

/-- Names between quotes, the last one after "or". -/
def alternatives (names : List String) : String :=
  let quotedNames := names.map quoted
  match quotedNames.getLast?, quotedNames.dropLast with
  | none, _ => ""
  | some last, [] => last
  | some last, others => joinWith ", " others ++ " or " ++ last

namespace ShapeCause

def code : ShapeCause → String
  | text => "string_type"
  | textEncoding => "string_unicode"
  | textEmpty => "string_too_short"
  | bool => "bool_type"
  | boolText => "bool_parsing"
  | int => "int_type"
  | intText => "int_parsing"
  | intFraction => "int_from_float"
  | intSize => "int_parsing_size"
  | float => "float_type"
  | floatText => "float_parsing"
  | notFinite => "finite_number"
  | notAbove _ => "greater_than"
  | below _ => "greater_than_equal"
  | choice _ => "literal_error"
  | sequence kind => kind.word ++ "_type"
  | sequenceEmpty => "too_short"
  | dictionary => "dict_type"
  | dictionaryEmpty => "too_short"
  | key => "invalid_key"
  | node _ => "model_type"
  | missing => "missing"
  | unknown => "extra_forbidden"
  | union => "model_attributes_type"
  | noTag _ => "union_tag_not_found"
  | tag .. => "union_tag_invalid"
  | breach _ => "value_error"

def message : ShapeCause → String
  | text => "Input should be a valid string"
  | textEncoding => "Input should be a valid string, unable to parse raw data as a unicode string"
  | textEmpty => "String should have at least 1 character"
  | bool => "Input should be a valid boolean"
  | boolText => "Input should be a valid boolean, unable to interpret input"
  | int => "Input should be a valid integer"
  | intText => "Input should be a valid integer, unable to parse string as an integer"
  | intFraction => "Input should be a valid integer, got a number with a fractional part"
  | intSize => "Unable to parse input string as an integer, exceeded maximum size"
  | float => "Input should be a valid number"
  | floatText => "Input should be a valid number, unable to parse string as a number"
  | notFinite => "Input should be a finite number"
  | notAbove n => s!"Input should be greater than {n}"
  | below n => s!"Input should be greater than or equal to {n}"
  | choice names => s!"Input should be {alternatives names}"
  | sequence kind => s!"Input should be a valid {kind.word}"
  | sequenceEmpty => "Tuple should have at least 1 item after validation, not 0"
  | dictionary => "Input should be a valid dictionary"
  | dictionaryEmpty => "Dictionary should have at least 1 item after validation, not 0"
  | key => "Keys should be strings"
  | node name => s!"Input should be a valid dictionary or instance of {name}"
  | missing => "Field required"
  | unknown => "Extra inputs are not permitted"
  | union => "Input should be a valid dictionary or object to extract fields from"
  | noTag field => s!"Unable to extract tag using discriminator {quoted field}"
  | tag field shown known =>
    s!"Input tag '{shown}' found using {quoted field} does not match any of the expected tags: " ++
      joinWith ", " (known.map quoted)
  | breach b => b.message

end ShapeCause

structure ShapeFault where
  location : Location
  cause : ShapeCause
  deriving DecidableEq

def ShapeFault.under (s : PathStep) (f : ShapeFault) : ShapeFault := ⟨s :: f.location, f.cause⟩

end Workflow
