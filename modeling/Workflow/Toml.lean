import Workflow.Shape.Numeral
import Workflow.Value

/-!
# TOML values

One value as TOML spells it: a text in single or double quotes, a number, a truth value, a date, an array or
an inline table. Texts over several lines, times of day and dotted keys are not among them.
-/

namespace Workflow.Toml

/-! ## Numbers and dates -/

def separated? (digit : Char → Bool) (cs : List Char) : Option (List Char) :=
  let ds := dropUnderscores cs
  if ds ≠ [] ∧ ds.all digit then some ds else none

def whole? (cs : List Char) : Option (List Char) :=
  (separated? Char.isDigit cs).bind fun ds => if ds.head? = some '0' ∧ ds ≠ ['0'] then none else some ds

def fraction? : List Char → Option (List Char)
  | [] => some []
  | _ :: cs => separated? Char.isDigit cs

def exponent? : List Char → Option Int
  | [] => some 0
  | _ :: '-' :: cs => (separated? Char.isDigit cs).map fun ds => -(decimalNumeral ds : Int)
  | _ :: '+' :: cs => (separated? Char.isDigit cs).map fun ds => (decimalNumeral ds : Int)
  | _ :: cs => (separated? Char.isDigit cs).map fun ds => (decimalNumeral ds : Int)

def isExponentMark (c : Char) : Bool := c == 'e' || c == 'E'

def unsignedNumber? (negative : Bool) (cs : List Char) : Option Scalar :=
  if cs = ['i', 'n', 'f'] then some (.float (.infinite negative))
  else if cs = ['n', 'a', 'n'] then some (.float .nan)
  else do
    let mantissa := cs.takeWhile fun c => !isExponentMark c
    let exponent := cs.dropWhile fun c => !isExponentMark c
    let fraction := mantissa.dropWhile (· != '.')
    let ds ← whole? (mantissa.takeWhile (· != '.'))
    if fraction = [] ∧ exponent = [] then
      return .int (if negative then -(decimalNumeral ds : Int) else decimalNumeral ds)
    else
      let fs ← fraction? fraction
      let e ← exponent? exponent
      return .float (.ofDecimal negative (decimalNumeral (ds ++ fs)) (e - fs.length))

def based? (base : Nat) (cs : List Char) : Option Scalar := do
  let ds ← separated? (fun c => c.toNat < 128) cs
  let n ← digitsIn? base ds
  return .int n

def date? : List Char → Option Scalar
  | [a, b, c, d, '-', m, n, '-', x, y] =>
    if [a, b, c, d, m, n, x, y].all Char.isDigit then
      let date : Date := ⟨decimalNumeral [a, b, c, d], decimalNumeral [m, n], decimalNumeral [x, y]⟩
      if date.fault?.isNone then some (.date date) else none
    else none
  | _ => none

def word? : List Char → Option Scalar
  | ['t', 'r', 'u', 'e'] => some (.bool true)
  | ['f', 'a', 'l', 's', 'e'] => some (.bool false)
  | '0' :: 'x' :: cs => based? 16 cs
  | '0' :: 'o' :: cs => based? 8 cs
  | '0' :: 'b' :: cs => based? 2 cs
  | '-' :: cs => unsignedNumber? true cs
  | '+' :: cs => unsignedNumber? false cs
  | cs => (date? cs).or (unsignedNumber? false cs)

def isKeyChar (c : Char) : Bool := c.isAlphanum || c == '_' || c == '-'

def isWordChar (c : Char) : Bool := isKeyChar c || c == '+' || c == '.' || c == ':'

/-! ## Texts -/

def isControl (c : Char) : Bool := c.toNat < 32 && c != '\t' || c.toNat == 127

def codePoint? (ds : List Char) : Option Char :=
  if ds.all fun c => c.toNat < 128 then
    (digitsIn? 16 ds).bind fun n => if h : n.isValidChar then some (Char.ofNatAux n h) else none
  else none

def letter? (c : Char) : Option Char :=
  if c = 'b' then some (Char.ofNat 8)
  else if c = 't' then some '\t'
  else if c = 'n' then some '\n'
  else if c = 'f' then some (Char.ofNat 12)
  else if c = 'r' then some '\r'
  else if c = doubleQuote ∨ c = '\\' then some c
  else none

def addChar (c : Option Char) (r : Option (List Char × List Char)) : Option (List Char × List Char) := do
  let c ← c
  let (s, rest) ← r
  return (c :: s, rest)

def escapedText? : List Char → Option (List Char × List Char)
  | [] => none
  | '\\' :: 'u' :: a :: b :: c :: d :: rest => addChar (codePoint? [a, b, c, d]) (escapedText? rest)
  | '\\' :: 'U' :: a :: b :: c :: d :: e :: f :: g :: h :: rest =>
    addChar (codePoint? [a, b, c, d, e, f, g, h]) (escapedText? rest)
  | '\\' :: c :: rest => addChar (letter? c) (escapedText? rest)
  | c :: rest =>
    if c = doubleQuote then some ([], rest) else if isControl c then none else addChar (some c) (escapedText? rest)

def plainText? : List Char → Option (List Char × List Char)
  | [] => none
  | c :: rest =>
    if c = singleQuote then some ([], rest) else if isControl c then none else addChar (some c) (plainText? rest)

/-- The rest after white space, line ends and comments. `comment` is whether a comment has begun. -/
def dropGaps (comment : Bool) : List Char → List Char
  | [] => []
  | c :: rest =>
    if comment then dropGaps (c != '\n') rest
    else if c = '#' then dropGaps true rest
    else if c = ' ' ∨ c = '\t' ∨ c = '\n' ∨ c = '\r' then dropGaps false rest
    else c :: rest

def dropSpaces (cs : List Char) : List Char := cs.dropWhile fun c => c == ' ' || c == '\t'

/-! ## Values -/

def textOrWord? (cs : List Char) : Option (Scalar × List Char) :=
  let asText (r : Option (List Char × List Char)) : Option (Scalar × List Char) :=
    r.map fun (s, rest) => (.text (String.ofList s), rest)
  match cs with
  | [] => none
  | c :: rest =>
    if c = doubleQuote then asText (escapedText? rest)
    else if c = singleQuote then asText (plainText? rest)
    else (word? (cs.takeWhile isWordChar)).map fun s => (s, cs.dropWhile isWordChar)

def key? (cs : List Char) : Option (Scalar × List Char) :=
  match cs.takeWhile isKeyChar with
  | [] => (textOrWord? cs).bind fun (s, rest) =>
    match s with
    | .text _ => some (s, rest)
    | _ => none
  | word => some (.text (String.ofList word), cs.dropWhile isKeyChar)

def after? (c : Char) : List Char → Option (List Char)
  | [] => none
  | d :: rest => if d = c then some rest else none

def openBrace : Char := Char.ofNat 123
def closeBrace : Char := Char.ofNat 125

mutual

/-- A value at the front of a text and what follows it. `fuel` bounds the depth and the number of items. -/
def value? : (fuel : Nat) → List Char → Option (Value × List Char)
  | 0, _ => none
  | fuel + 1, cs =>
    match after? '[' cs, after? openBrace cs with
    | some rest, _ => (items? fuel rest).map fun (vs, rest) => (.list vs, rest)
    | none, some rest =>
      match after? closeBrace (dropSpaces rest) with
      | some rest => some (.mapping [], rest)
      | none => (members? fuel rest).map fun (ms, rest) => (.mapping ms, rest)
    | none, none => (textOrWord? cs).map fun (s, rest) => (.scalar s, rest)

def items? : (fuel : Nat) → List Char → Option (List Value × List Char)
  | 0, _ => none
  | fuel + 1, cs =>
    match after? ']' (dropGaps false cs) with
    | some rest => some ([], rest)
    | none => do
      let (v, rest) ← value? fuel (dropGaps false cs)
      let rest := dropGaps false rest
      match after? ',' rest with
      | some rest =>
        let (vs, rest) ← items? fuel rest
        return (v :: vs, rest)
      | none =>
        let rest ← after? ']' rest
        return ([v], rest)

def members? : (fuel : Nat) → List Char → Option (Members × List Char)
  | 0, _ => none
  | fuel + 1, cs => do
    let (k, rest) ← key? (dropSpaces cs)
    let rest ← after? '=' (dropSpaces rest)
    let (v, rest) ← value? fuel (dropSpaces rest)
    let rest := dropSpaces rest
    match after? ',' rest with
    | some rest =>
      let (ms, rest) ← members? fuel rest
      if (ms.find? k).isSome then none else return ((k, v) :: ms, rest)
    | none =>
      let rest ← after? closeBrace rest
      return ([(k, v)], rest)

end

def read? (s : String) : Option Value := do
  let (v, rest) ← value? (s.length + 1) (dropSpaces s.toList)
  if dropGaps false rest = [] then return v else none

end Workflow.Toml
