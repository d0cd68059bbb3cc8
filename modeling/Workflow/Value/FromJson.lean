import Workflow.Text.Digit
import Workflow.Value.Json

/-!
# Reading JSON text

The value that a JSON text stands for. A member that comes up twice keeps its place and takes the later
value. Besides the numbers of JSON there are `NaN` and the infinities.
-/

namespace Workflow

def jsonBlanks (cs : List Char) : List Char := cs.dropWhile fun c => c = ' ' || c = '\n' || c = '\t' || c = '\r'

/-! ## Texts -/

def hexUnit? (c : Char) : Option Nat :=
  if c.isDigit then some (c.toNat - 48)
  else if 'a' ≤ c ∧ c ≤ 'f' then some (c.toNat - 87)
  else if 'A' ≤ c ∧ c ≤ 'F' then some (c.toNat - 55)
  else none

def hexUnits? (cs : List Char) : Option Nat := cs.foldlM (fun n c => (hexUnit? c).map (16 * n + ·)) 0

def escapedLetter? (c : Char) : Option Char :=
  if c = doubleQuote ∨ c = '\\' ∨ c = '/' then some c
  else if c = 'n' then some '\n'
  else if c = 'r' then some '\r'
  else if c = 't' then some '\t'
  else if c = 'b' then some (Char.ofNat 8)
  else if c = 'f' then some (Char.ofNat 12)
  else none

/-- Characters and escaped units up to the closing quote, behind those that were read in reverse order. -/
def readJsonUnits (units : List Nat) : List Char → Option (List Nat × List Char)
  | '\\' :: 'u' :: a :: b :: c :: d :: rest =>
    match hexUnits? [a, b, c, d] with
    | some n => readJsonUnits (n :: units) rest
    | none => none
  | '\\' :: e :: rest =>
    match escapedLetter? e with
    | some c => readJsonUnits (c.toNat :: units) rest
    | none => none
  | c :: rest =>
    if c = doubleQuote then some (units.reverse, rest)
    else if c.toNat < 32 then none
    else readJsonUnits (c.toNat :: units) rest
  | [] => none

def isHighUnit (n : Nat) : Bool := 0xD800 ≤ n && n < 0xDC00

def isLowUnit (n : Nat) : Bool := 0xDC00 ≤ n && n < 0xE000

def joinUnits : List Nat → List Char
  | [] => []
  | n :: rest =>
    if isHighUnit n then
      match rest with
      | m :: rest => if isLowUnit m then Char.ofNat (0x10000 + (n - 0xD800) * 0x400 + (m - 0xDC00)) :: joinUnits rest
        else loneUnit :: joinUnits (m :: rest)
      | [] => [loneUnit]
    else (if isLowUnit n then loneUnit else Char.ofNat n) :: joinUnits rest

def readJsonText (cs : List Char) : Option (String × List Char) :=
  (readJsonUnits [] cs).map fun (units, rest) => (String.ofList (joinUnits units), rest)

/-! ## Numbers and words -/

/-- The digits behind a point; a point without digits is not part of a number. -/
def fractionDigits : List Char → List Char × List Char
  | '.' :: cs => if cs.head?.any Char.isDigit then (cs.takeWhile Char.isDigit, cs.dropWhile Char.isDigit) else ([], '.' :: cs)
  | cs => ([], cs)

def jsonExponent : List Char → Option Int × List Char
  | [] => (none, [])
  | e :: cs =>
    let (negative, ds) := match cs with
      | '-' :: ds => (true, ds)
      | '+' :: ds => (false, ds)
      | ds => (false, ds)
    if (e = 'e' ∨ e = 'E') ∧ ds.head?.any Char.isDigit then
      let n : Int := decimalNumeral (ds.takeWhile Char.isDigit)
      (some (if negative then -n else n), ds.dropWhile Char.isDigit)
    else (none, e :: cs)

/-- A number without its sign. Only `0` itself begins with a zero. -/
def readJsonNumber (negative : Bool) (cs : List Char) : Option (Value × List Char) :=
  let run := cs.takeWhile Char.isDigit
  let whole := if run.head? = some '0' then ['0'] else run
  if whole = [] then none
  else
    let (fraction, rest) := fractionDigits (cs.drop whole.length)
    let (exponent, rest) := jsonExponent rest
    if fraction = [] ∧ exponent = none then
      let n : Int := decimalNumeral whole
      some (.int (if negative then -n else n), rest)
    else
      some (.float (.ofDecimal negative (decimalNumeral (whole ++ fraction)) (exponent.getD 0 - fraction.length)), rest)

def afterWord? (word : String) (cs : List Char) : Option (List Char) :=
  if word.toList.isPrefixOf cs then some (cs.drop word.length) else none

def jsonWords : List (String × Value) := [
  ("null", .null), ("true", .bool true), ("false", .bool false),
  ("NaN", .float .nan), ("Infinity", .float (.infinite false)), ("-Infinity", .float (.infinite true))]

def readJsonWord (cs : List Char) : Option (Value × List Char) :=
  jsonWords.findSome? fun (word, v) => (afterWord? word cs).map fun rest => (v, rest)

def readJsonScalar (cs : List Char) : Option (Value × List Char) :=
  (readJsonWord cs).or
    (match cs with
    | '-' :: rest => readJsonNumber true rest
    | cs => readJsonNumber false cs)

/-! ## Values -/

mutual

/-- A value at the start of a text, and what follows it. The first argument bounds the depth and the
number of items. -/
def readJson : Nat → List Char → Option (Value × List Char)
  | 0, _ => none
  | fuel + 1, cs =>
    match jsonBlanks cs with
    | '\x7b' :: rest =>
      match jsonBlanks rest with
      | '\x7d' :: rest => some (.mapping [], rest)
      | rest => (readJsonMembers fuel [] rest).map fun (ms, rest) => (.mapping (Members.ofList ms), rest)
    | '[' :: rest =>
      match jsonBlanks rest with
      | ']' :: rest => some (.list [], rest)
      | rest => (readJsonItems fuel [] rest).map fun (vs, rest) => (.list vs, rest)
    | c :: rest =>
      if c = doubleQuote then (readJsonText rest).map fun (s, rest) => (.text s, rest) else readJsonScalar (c :: rest)
    | [] => none

def readJsonItems : Nat → List Value → List Char → Option (List Value × List Char)
  | 0, _, _ => none
  | fuel + 1, vs, cs =>
    match readJson fuel cs with
    | none => none
    | some (v, rest) =>
      match jsonBlanks rest with
      | ',' :: rest => readJsonItems fuel (v :: vs) rest
      | ']' :: rest => some ((v :: vs).reverse, rest)
      | _ => none

def readJsonMembers : Nat → Members → List Char → Option (Members × List Char)
  | 0, _, _ => none
  | fuel + 1, ms, cs =>
    match jsonBlanks cs with
    | [] => none
    | q :: rest =>
      if q = doubleQuote then
        match readJsonText rest with
        | none => none
        | some (k, rest) =>
          match jsonBlanks rest with
          | ':' :: rest =>
            match readJson fuel rest with
            | none => none
            | some (v, rest) =>
              match jsonBlanks rest with
              | ',' :: rest => readJsonMembers fuel ((.text k, v) :: ms) rest
              | '\x7d' :: rest => some (((.text k, v) :: ms).reverse, rest)
              | _ => none
          | _ => none
      else none

end

def Value.ofJson? (s : String) : Option Value :=
  let cs := s.toList
  match readJson (cs.length + 2) cs with
  | some (v, rest) => if jsonBlanks rest = [] then some v else none
  | none => none

end Workflow
