import Workflow.Number.Binary64
import Workflow.Text.Digit
import Workflow.Text.Split

/-!
# Tags and the scalars they belong to

The tag of a plain scalar is read off its text: truth values, integers in four bases and base sixty, floats,
nulls, dates. Everything else is text.
-/

namespace Workflow.Yaml

namespace Tag

def common : String := "tag:yaml.org,2002:"

def null : String := common ++ "null"
def bool : String := common ++ "bool"
def int : String := common ++ "int"
def float : String := common ++ "float"
def text : String := common ++ "str"
def time : String := common ++ "timestamp"
def binary : String := common ++ "binary"
def sequence : String := common ++ "seq"
def mapping : String := common ++ "map"
def set : String := common ++ "set"
def ordered : String := common ++ "omap"
def pairs : String := common ++ "pairs"
def merge : String := common ++ "merge"
def value : String := common ++ "value"

def trueWords : List String := ["yes", "Yes", "YES", "true", "True", "TRUE", "on", "On", "ON"]

def falseWords : List String := ["no", "No", "NO", "false", "False", "FALSE", "off", "Off", "OFF"]

def nullWords : List String := ["~", "null", "Null", "NULL", ""]

def infiniteWords : List String := [".inf", ".Inf", ".INF"]

def nanWords : List String := [".nan", ".NaN", ".NAN"]

def unsigned : List Char → List Char
  | '+' :: cs => cs
  | '-' :: cs => cs
  | cs => cs

def isFilled (p : Char → Bool) (cs : List Char) : Bool := !cs.isEmpty && cs.all p

def isDigitOrMark (c : Char) : Bool := c.isDigit || c == '_'

def isOctal (c : Char) : Bool := '0' ≤ c && c ≤ '7'

def isHex (c : Char) : Bool := c.isDigit || ('a' ≤ c && c ≤ 'f') || ('A' ≤ c && c ≤ 'F')

def isWhole : List Char → Bool
  | c :: cs => c.isDigit && cs.all isDigitOrMark
  | [] => false

def isSixtieth : List Char → Bool
  | [c] => c.isDigit
  | [c, d] => '0' ≤ c && c ≤ '5' && d.isDigit
  | _ => false

def isBaseSixty (first : List Char → Bool) (cs : List Char) : Bool :=
  match partsBetween ':' cs with
  | head :: next :: more => first head && (next :: more).all isSixtieth
  | _ => false

def isPositive : List Char → Bool
  | '0' :: _ => false
  | cs => isWhole cs

def isInteger (text : List Char) : Bool :=
  let cs := unsigned text
  (match cs with
  | '0' :: 'b' :: ds => isFilled (fun c => c == '0' || c == '1' || c == '_') ds
  | '0' :: 'x' :: ds => isFilled (fun c => isHex c || c == '_') ds
  | '0' :: ds => ds.all fun c => isOctal c || c == '_'
  | cs => isPositive cs) || isBaseSixty isPositive cs

def isExponent : List Char → Bool
  | [] => true
  | e :: s :: ds => (e == 'e' || e == 'E') && (s == '+' || s == '-') && isFilled Char.isDigit ds
  | _ => false

def beforePoint (cs : List Char) : List Char := cs.takeWhile (· != '.')

def afterPoint? (cs : List Char) : Option (List Char) :=
  match cs.dropWhile (· != '.') with
  | _ :: rest => some rest
  | [] => none

def isFloat (text : List Char) : Bool :=
  let cs := unsigned text
  infiniteWords.contains (String.ofList cs) || nanWords.contains (String.ofList text) ||
    (match afterPoint? cs with
    | none => false
    | some rest =>
      let fraction := rest.takeWhile isDigitOrMark
      let behind := rest.dropWhile isDigitOrMark
      (isWhole (beforePoint cs) && isExponent behind) ||
        (cs == text && (beforePoint cs).isEmpty && isWhole fraction && isExponent behind) ||
        (isBaseSixty isWhole (beforePoint cs) && behind.isEmpty))

/-! ## Dates and times -/

def digitRun (least greatest : Nat) (cs : List Char) : Option (Nat × List Char) :=
  let ds := (cs.take greatest).takeWhile Char.isDigit
  if least ≤ ds.length then some (decimalNumeral ds, cs.drop ds.length) else none

def sign (c : Char) : List Char → Option (List Char)
  | d :: rest => if d = c then some rest else none
  | [] => none

def isTimeBlank (c : Char) : Bool := c == ' ' || c == '\t'

structure TimeFields where
  year : Nat
  month : Nat
  day : Nat
  time : Option (Nat × Nat × Nat × List Char)
  /-- Whether an offset is west, its hours and its minutes. -/
  offset : Option (Bool × Nat × Nat)

def offsetFields? (cs : List Char) : Option (Option (Bool × Nat × Nat)) :=
  match cs, cs.dropWhile isTimeBlank with
  | [], _ => some none
  | _, ['Z'] => some (some (false, 0, 0))
  | _, s :: rest =>
    if s = '+' ∨ s = '-' then
      match digitRun 1 2 rest with
      | some (h, []) => some (some (s == '-', h, 0))
      | some (h, ':' :: more) =>
        match digitRun 2 2 more with
        | some (m, []) => some (some (s == '-', h, m))
        | _ => none
      | _ => none
    else none
  | _, [] => none

def clockFields? (cs : List Char) : Option ((Nat × Nat × Nat × List Char) × Option (Bool × Nat × Nat)) := do
  let (hour, cs) ← digitRun 1 2 cs
  let cs ← sign ':' cs
  let (minute, cs) ← digitRun 2 2 cs
  let cs ← sign ':' cs
  let (second, cs) ← digitRun 2 2 cs
  let fraction := match cs with
    | '.' :: rest => rest.takeWhile Char.isDigit
    | _ => []
  let cs := match cs with
    | '.' :: rest => rest.dropWhile Char.isDigit
    | _ => cs
  let offset ← offsetFields? cs
  return ((hour, minute, second, fraction), offset)

def clockStart? : List Char → Option (List Char)
  | c :: rest =>
    if c = 'T' ∨ c = 't' then some rest
    else if isTimeBlank c then some (rest.dropWhile isTimeBlank)
    else none
  | [] => none

def timeFields? (cs : List Char) : Option TimeFields := do
  let (year, cs) ← digitRun 4 4 cs
  let cs ← sign '-' cs
  let (month, cs) ← digitRun 1 2 cs
  let cs ← sign '-' cs
  let (day, cs) ← digitRun 1 2 cs
  if cs.isEmpty then return ⟨year, month, day, none, none⟩
  let (time, offset) ← clockFields? (← clockStart? cs)
  return ⟨year, month, day, some time, offset⟩

/-- A date alone has two digits for its month and its day. -/
def isTime (cs : List Char) : Bool :=
  match timeFields? cs with
  | some f => f.time.isSome || cs.length == 10
  | none => false

def ofText (s : String) : String :=
  let cs := s.toList
  if trueWords.contains s || falseWords.contains s then bool
  else if isFloat cs then float
  else if isInteger cs then int
  else if s = "<<" then merge
  else if nullWords.contains s then null
  else if isTime cs then time
  else if s = "=" then value
  else text

end Tag

end Workflow.Yaml
