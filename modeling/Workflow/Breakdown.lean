import Workflow.Text.Digit
import Workflow.Value.Display

/-!
# Breakdowns

A number in the digits of another script, an integer with too many digits to be read or written, keys that have no
order: no reader of templates or predicates takes one of these for a fault of the text that it reads. A breakdown ends
whatever it happens in.
-/

namespace Workflow

inductive Breakdown where
  /-- A number with a point or an exponent that has digits of another script; the first of them where the number begins
  with it. -/
  | foreign (first : Option Char)
  /-- A part of a dotted path that looks like a numeral and is none. -/
  | numeral (part : String)
  /-- A numeral with more digits than are read. -/
  | unread (digits : Nat)
  /-- An integer with more digits than are written. -/
  | unwritten
  /-- Keys without an order, by the names of their types. -/
  | unordered (left right : String)
  /-- A key that JSON has no form for, by the name of its type. -/
  | key (type : String)
  deriving DecidableEq

def codePointText (c : Char) : String :=
  let width := if c.toNat < 0x10000 then 4 else if c.toNat < 0x100000 then 5 else 6
  (String.ofList (hexDigits width c.toNat)).toUpper

def limitMessage (detail : String) : String :=
  s!"Exceeds the limit ({longestNumeral} digits) for integer string conversion{detail}; " ++
    "use sys.set_int_max_str_digits() to increase the limit"

def readLimitMessage (digits : Nat) : String := limitMessage s!": value has {digits} digits"

/-- The message for a part of a dotted path that is no numeral. That there are too many digits is told first; otherwise the
beginning of the part is told. -/
def numeralMessage (part : String) : String :=
  let digits := (part.toList.takeWhile isDecimal).length
  let beginning := String.ofList ((quoted part).toList.take 200)
  if digits ≤ longestNumeral then s!"invalid literal for int() with base 10: {beginning}" else readLimitMessage digits

namespace Breakdown

def message : Breakdown → String
  | foreign (some c) => s!"invalid character '{c}' (U+{codePointText c}) (<unknown>, line 1)"
  | foreign none => "invalid decimal literal (<unknown>, line 1)"
  | numeral part => numeralMessage part
  | unread digits => readLimitMessage digits
  | unwritten => limitMessage ""
  | unordered left right => s!"'<' not supported between instances of '{left}' and '{right}'"
  | key type => s!"keys must be str, int, float, bool or None, not {type}"

def kind : Breakdown → String
  | foreign _ => "SyntaxError"
  | numeral _ => "ValueError"
  | unread _ => "ValueError"
  | unwritten => "ValueError"
  | unordered .. => "TypeError"
  | key _ => "TypeError"

end Breakdown

/-! ## Integers as text -/

/-- Whether an integer has few enough digits to be written. -/
def isWritable (n : Int) : Bool := (decimalDigits n.natAbs).length ≤ longestNumeral

def integerText (n : Int) : Except Breakdown String := if isWritable n then .ok (toString n) else .error .unwritten

/-- The number that decimal digits stand for, if they are few enough to be read. -/
def readDigits (ds : List Char) : Except Breakdown Nat :=
  if ds.length ≤ longestNumeral then .ok (decimalNumeral ds) else .error (.unread ds.length)

/-! ## Values and paths as text -/

def Scalar.isWritable : Scalar → Bool
  | int n => Workflow.isWritable n
  | _ => true

namespace Value

/-- Whether every integer within a value can be written. -/
def isWritable (v : Value) : Bool := v.all Scalar.isWritable Scalar.isWritable

def writtenText (v : Value) : Except Breakdown String := if v.isWritable then .ok v.plainText else .error .unwritten

end Value

def PathStep.isWritable : PathStep → Bool
  | key _ => true
  | index n => Workflow.isWritable n

/-- A path with points between its steps, if its positions can be written. -/
def writtenPath (path : List PathStep) : Except Breakdown String :=
  if path.all PathStep.isWritable then .ok (dottedPath path) else .error .unwritten

end Workflow
