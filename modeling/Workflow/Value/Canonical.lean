import Workflow.Value.Json
import Workflow.Digest

/-!
# Canonical documents

The canonical JSON text of a value (RFC 8785) and its digest. A value is first brought to the kinds
JSON has: dates become their ISO text, sets sorted lists, keys their text. Members are then ordered
by the UTF-16 units of their keys and numbers laid out in the shortest form. What has no canonical
form is refused.
-/

namespace Workflow

/-- Name of the digest and of the form that is digested. -/
def canonicalVersion : String := "sha256-rfc8785-v1"

/-- A value without a canonical form. -/
inductive CanonicalFault where
  | notFinite (x : Binary64)
  | kind (name : String)
  | unorderable (left right : String)
  /-- An integer that a binary number cannot hold exactly. -/
  | integerRange (n : Int)
  /-- An integer that cannot be written at all, as a key or in a message. -/
  | breakdown (b : Breakdown)
  deriving DecidableEq

def CanonicalFault.message : CanonicalFault → String
  | notFinite x => s!"Cannot canonicalize non-finite float: {x.text}. Use None for missing values, not NaN."
  | kind name => s!"Cannot canonicalize value of type {name}"
  | unorderable left right => s!"'<' not supported between instances of '{left}' and '{right}'"
  | integerRange n => s!"{n} exceeds safe integer domain for JSON floats"
  | breakdown b => b.message

inductive Json where
  | null
  | bool (b : Bool)
  | int (n : Int)
  | float (x : Binary64)
  | text (s : String)
  | list (items : List Json)
  | mapping (members : List (String × Json))
  deriving Inhabited

namespace Json

def put (key : String) (v : Json) : List (String × Json) → List (String × Json)
  | [] => [(key, v)]
  | (k, w) :: rest => if k = key then (k, v) :: rest else (k, w) :: put key v rest

def kindName : Json → String
  | null => "NoneType"
  | bool _ => "bool"
  | int _ => "int"
  | float _ => "float"
  | text _ => "str"
  | list _ => "list"
  | mapping _ => "dict"

def number? : Json → Option Binary64
  | bool b => some (.ofInt (if b then 1 else 0))
  | int n => some (.ofInt n)
  | float x => some x
  | _ => none

/-- Whether one value comes before another; none when the two kinds have no common order. -/
def before? : Json → Json → Option Bool
  | text s, text t => some (s < t)
  | int m, int n => some (m < n)
  | a, b =>
    match a.number?, b.number? with
    | some x, some y => some (x.compare? y == some .lt)
    | _, _ => none

end Json

/-- Put an item into a sorted list, after those that are not greater. -/
def insertSorted (v : Json) : List Json → Except CanonicalFault (List Json)
  | [] => .ok [v]
  | w :: rest =>
    match v.before? w with
    | none => .error (.unorderable v.kindName w.kindName)
    | some true => .ok (v :: w :: rest)
    | some false => (insertSorted v rest).map (w :: ·)

def sortItems (items : List Json) : Except CanonicalFault (List Json) :=
  items.foldlM (fun acc v => insertSorted v acc) []

def Scalar.toJson : Scalar → Except CanonicalFault Json
  | null => .ok .null
  | bool b => .ok (.bool b)
  | int n => .ok (.int n)
  | float x => if x.isFinite then .ok (.float x) else .error (.notFinite x)
  | text s => .ok (.text s)
  | date d => .ok (.text d.iso)
  | dateTime t => .ok (.text t.iso)
  | bytes _ => .error (.kind "bytes")

namespace Value

mutual

def toJson : Value → Except CanonicalFault Json
  | scalar s => s.toJson
  | list items => return .list (← itemsToJson items)
  | tuple items => return .list (← itemsToJson items)
  | set items => return .list (← sortItems (← itemsToJson items))
  -- keys of different kinds may have one text, and the last of their values counts
  | mapping ms => return .mapping ((← membersToJson ms).foldl (fun acc m => Json.put m.1 m.2 acc) [])

def itemsToJson : List Value → Except CanonicalFault (List Json)
  | [] => .ok []
  | v :: rest => do
    let j ← toJson v
    return j :: (← itemsToJson rest)

def membersToJson : List (Scalar × Value) → Except CanonicalFault (List (String × Json))
  | [] => .ok []
  | (k, v) :: rest => do
    let key ← ((scalar k).writtenText).mapError .breakdown
    let j ← toJson v
    return (key, j) :: (← membersToJson rest)

end

end Value

def canonicalChar (c : Char) : List Char :=
  match letterEscape? c with
  | some e => ['\\', e]
  | none => if c.toNat < 32 then unitEscape c.toNat else [c]

def canonicalText (s : String) : List Char := doubleQuote :: s.toList.flatMap canonicalChar ++ [doubleQuote]

/-- Order of sequences of units, a proper beginning first. -/
def unitsBefore : List Nat → List Nat → Bool
  | [], _ => true
  | _ :: _, [] => false
  | a :: as, b :: bs => if a = b then unitsBefore as bs else a < b

def canonicalKeyBefore (s t : String) : Bool :=
  unitsBefore (s.toList.flatMap utf16Units) (t.toList.flatMap utf16Units)

/-- The largest integer that a binary number still tells apart from its neighbours. -/
def safeInteger : Int := 9007199254740991

/-- The fault of an integer that is too large. Its message tells the integer, if that can be written. -/
def rangeFault (n : Int) : CanonicalFault := if isWritable n then .integerRange n else .breakdown .unwritten

def canonicalInt (n : Int) : Except CanonicalFault (List Char) :=
  if n < -safeInteger ∨ safeInteger < n then .error (rangeFault n) else .ok (toString n).toList

def canonicalFloat : Binary64 → List Char
  | .finite negative m e => NumberStyle.canonical.finiteText negative m e
  | x => x.text.toList

def separated : List (List Char) → List Char
  | [] => []
  | [x] => x
  | x :: rest => x ++ ',' :: separated rest

namespace Json

mutual

def canonical : Json → Except CanonicalFault (List Char)
  | null => .ok "null".toList
  | bool b => .ok (if b then "true" else "false").toList
  | int n => canonicalInt n
  | float x => .ok (canonicalFloat x)
  | text s => .ok (canonicalText s)
  | list items => return '[' :: separated (← canonicalItems items) ++ [']']
  | mapping ms => do
    let written ← canonicalMembers ms
    let sorted := written.mergeSort fun a b => canonicalKeyBefore a.1 b.1
    return '\x7b' :: separated (sorted.map fun m => canonicalText m.1 ++ ':' :: m.2) ++ ['\x7d']

def canonicalItems : List Json → Except CanonicalFault (List (List Char))
  | [] => .ok []
  | j :: rest => do
    let t ← canonical j
    return t :: (← canonicalItems rest)

def canonicalMembers : List (String × Json) → Except CanonicalFault (List (String × List Char))
  | [] => .ok []
  | (k, j) :: rest => do
    let t ← canonical j
    return (k, t) :: (← canonicalMembers rest)

end

end Json

/-- The canonical text of a value. -/
def canonicalJson (v : Value) : Except CanonicalFault String := do
  return String.ofList (← (← v.toJson).canonical)

def stableHash (v : Value) : Except CanonicalFault String :=
  (canonicalJson v).map fun t => hexDigest t.toUTF8.toList

end Workflow
