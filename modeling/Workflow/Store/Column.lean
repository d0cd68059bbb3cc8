import Workflow.Manifest.Database
import Workflow.Shape.Numeral
import Workflow.Store.Cell
import Workflow.Value.FromJson

/-!
# Columns of a store

The type that a manifest declares decides how values are written to a column and read back. Types that the
store does not know are kept as text.
-/

namespace Workflow

inductive ColumnKind where
  | string | text | integer | bigInteger | boolean | float | json
  deriving DecidableEq

namespace ColumnKind

def name : ColumnKind → String
  | string => "String"
  | text => "Text"
  | integer => "Integer"
  | bigInteger => "BigInteger"
  | boolean => "Boolean"
  | float => "Float"
  | json => "JSON"

def known : List (String × ColumnKind) := [
  ("uuid", string), ("varchar", string), ("text", text),
  ("integer", integer), ("int", integer), ("smallint", integer), ("bigint", bigInteger),
  ("boolean", boolean), ("bool", boolean),
  ("numeric", float), ("real", float), ("float", float), ("double precision", float),
  ("json", json), ("jsonb", json)]

/-- The kind of a declared type. Case and parameters in parentheses do not count. -/
def ofType (declared : String) : ColumnKind :=
  let base := String.ofList (stripBlanks ((declared.toList.map Char.toLower).takeWhile (· != '(')))
  (known.lookup base).getD text

def affinity : ColumnKind → Affinity
  | string => .text
  | text => .text
  | integer => .numeric
  | bigInteger => .numeric
  | boolean => .numeric
  | float => .real
  | json => .numeric

end ColumnKind

/-! ## Writing -/

def truthOf? : Value → Option Bool
  | .scalar (.bool b) => some b
  | .scalar (.int n) => if n = 0 then some false else if n = 1 then some true else none
  | .scalar (.float x) =>
    match x.toInt? with
    | some n => if n = 0 then some false else if n = 1 then some true else none
    | none => none
  | _ => none

/-- A text with digits of every script written as ASCII digits. -/
def plainDigits (cs : List Char) : List Char :=
  cs.map fun c => ((decimalValue? c).map fun n => Char.ofNat (48 + n)).getD c

/-- Drop the underscores of a numeral; each of them stands between two digits. -/
def joinDigits? : List Char → Option (List Char)
  | [] => some []
  | '_' :: _ => none
  | c :: '_' :: d :: rest =>
    if c.isDigit && d.isDigit then (joinDigits? (d :: rest)).map (c :: ·) else none
  | c :: rest => (joinDigits? rest).map (c :: ·)

def spelledFloat? (cs : List Char) : Option Binary64 :=
  (joinDigits? (plainDigits (stripBlanks cs))).bind floatChars?

def floatOf? : Value → Option Binary64
  | .scalar (.float x) => some x
  | .scalar (.int n) => if (Binary64.ofInt n).isFinite then some (.ofInt n) else none
  | .scalar (.bool b) => some (.ofInt (if b then 1 else 0))
  | .scalar (.text s) => spelledFloat? s.toList
  | .scalar (.bytes bs) => spelledFloat? (bs.map fun b => Char.ofNat b.toNat)
  | _ => none

mutual

def Value.isJson : Value → Bool
  | .scalar (.date _) => false
  | .scalar (.dateTime _) => false
  | .scalar (.bytes _) => false
  | .scalar _ => true
  | .list vs => areJson vs
  | .tuple vs => areJson vs
  | .set _ => false
  | .mapping ms => membersAreJson ms

def Value.areJson : List Value → Bool
  | [] => true
  | v :: rest => v.isJson && Value.areJson rest

def Value.membersAreJson : List (Scalar × Value) → Bool
  | [] => true
  | (k, v) :: rest => (Value.scalar k).isJson && v.isJson && Value.membersAreJson rest

end

/-- What a column of a kind makes of a value before it is handed to the store; none if the value does not
fit. -/
def ColumnKind.accept? : ColumnKind → Value → Option Value
  | boolean, v => if v.isNull then some v else (truthOf? v).map fun b => .int (if b then 1 else 0)
  | float, v => if v.isNull then some v else (floatOf? v).map Value.float
  | json, v => if v.isJson && v.isWritable then some (.text (v.json .line)) else none
  | _, v => some v

inductive CellFault where
  | tooLarge | structured
  deriving DecidableEq

def Cell.ofValue : Value → Except CellFault Cell
  | .scalar .null => .ok null
  | .scalar (.bool b) => .ok (int (if b then 1 else 0))
  | .scalar (.int n) => if fitsWord n then .ok (int n) else .error .tooLarge
  | .scalar (.float x) => .ok (ofFloat x)
  | .scalar (.text s) => .ok (text s)
  | .scalar (.date d) => .ok (text d.iso)
  | .scalar (.dateTime t) => .ok (text (t.isoWith ' '))
  | .scalar (.bytes bs) => .ok (blob bs)
  | _ => .error .structured

/-! ## Reading -/

def Cell.value : Cell → Value
  | null => .null
  | int n => .int n
  | real x => .float x
  | text s => .text s
  | blob bs => .scalar (.bytes bs)

def Cell.truth : Cell → Bool
  | null => false
  | int n => n != 0
  | real x => !x.isZero
  | text s => s != ""
  | blob bs => !bs.isEmpty

def ColumnKind.show : ColumnKind → Cell → Value
  | _, .null => .null
  | boolean, c => .bool c.truth
  | json, .text s => (Value.ofJson? s).getD (.text s)
  | _, c => c.value

end Workflow
