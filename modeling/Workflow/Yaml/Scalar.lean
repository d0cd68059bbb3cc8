import Workflow.Shape.Numeral
import Workflow.Text.Word
import Workflow.Value.Display
import Workflow.Yaml.Tag

/-!
# The values of scalars

A scalar with a tag is read as the tag says. A text whose tag was read off it always spells such a value, but
for dates outside the calendar and for numerals of a base that lack their digits.
-/

namespace Workflow.Yaml

/-- A document is malformed, or one of its scalars does not spell what its tag says. -/
inductive Fault where
  /-- The details are not told. -/
  | malformed
  | calendar (f : CalendarFault)
  | integer (text : String) (base : Nat)
  | float (text : String)
  | truth (word : String)
  /-- A number without digits. -/
  | digits
  | time
  deriving DecidableEq

def Fault.message : Fault → String
  | malformed => "<yaml>"
  | calendar f => f.message
  | integer text base => s!"invalid literal for int() with base {base}: {quoted text}"
  | float text => s!"could not convert string to float: {quoted text}"
  | truth word => quoted word
  | digits => "string index out of range"
  | time => "'NoneType' object has no attribute 'groupdict'"

abbrev Result (α : Type) := Except Fault α

/-! ## Integers -/

def dropBaseMark (base : Nat) : List Char → List Char
  | '0' :: m :: rest =>
    if (base = 2 ∧ (m = 'b' ∨ m = 'B')) ∨ (base = 8 ∧ (m = 'o' ∨ m = 'O')) ∨ (base = 16 ∧ (m = 'x' ∨ m = 'X')) then
      rest
    else '0' :: m :: rest
  | cs => cs

def integerIn (base : Nat) (cs : List Char) : Result Int :=
  let inner := stripBlanks cs
  let (negative, digits) := match inner with
    | '-' :: ds => (true, ds)
    | '+' :: ds => (false, ds)
    | ds => (false, ds)
  match digitsIn? base (dropBaseMark base digits) with
  | some n => .ok (if negative then -(n : Int) else n)
  | none => .error (.integer (String.ofList cs) base)

def signed : List Char → Result (Bool × List Char)
  | [] => .error .digits
  | '-' :: cs => .ok (true, cs)
  | '+' :: cs => .ok (false, cs)
  | cs => .ok (false, cs)

def baseSixty (ns : List Int) : Int := ns.foldl (fun acc n => 60 * acc + n) 0

def unsignedInteger (cs : List Char) : Result Int :=
  match cs with
  | [] => .error .digits
  | ['0'] => .ok 0
  | '0' :: 'b' :: ds => integerIn 2 ds
  | '0' :: 'x' :: ds => integerIn 16 ds
  | '0' :: _ => integerIn 8 cs
  | _ =>
    if cs.contains ':' then
      ((partsBetween ':' cs).mapM (integerIn 10)).map baseSixty
    else integerIn 10 cs

def integer (text : String) : Result Int := do
  let (negative, cs) ← signed (text.toList.filter (· != '_'))
  let n ← unsignedInteger cs
  return if negative then -n else n

/-! ## Floats -/

def floatPart (cs : List Char) : Result Binary64 :=
  match floatChars? (stripBlanks cs) with
  | some x => .ok x
  | none => .error (.float (String.ofList cs))

/-- The sum of numbers with weights of base sixty, the last one first. -/
def sixtieths (weight : Int) : List Binary64 → Binary64 → Binary64
  | [], sum => sum
  | x :: rest, sum => sixtieths (60 * weight) rest (sum.add (x.scale weight))

def float (text : String) : Result Binary64 := do
  let (negative, cs) ← signed ((text.toList.filter (· != '_')).map Char.toLower)
  let x ← if cs = ['.', 'i', 'n', 'f'] then pure (Binary64.infinite false)
    else if cs = ['.', 'n', 'a', 'n'] then pure Binary64.nan
    else if cs.contains ':' then do
      let parts ← (partsBetween ':' cs).mapM floatPart
      pure (sixtieths 1 parts.reverse (.zero false))
    else floatPart cs
  return if negative then x.negate else x

/-! ## Other scalars -/

def truth (text : String) : Result Bool :=
  let word := text.toLower
  if ["yes", "true", "on"].contains word then .ok true
  else if ["no", "false", "off"].contains word then .ok false
  else .error (.truth word)

def micros (fraction : List Char) : Nat := decimalNumeral ((fraction ++ List.replicate 6 '0').take 6)

def offsetSeconds (o : Bool × Nat × Nat) : Int :=
  let s : Int := 3600 * o.2.1 + 60 * o.2.2
  if o.1 then -s else s

def spanText (seconds : Int) : String :=
  let part (name : String) (n : Int) : List String := if n = 0 then [] else [name ++ "=" ++ toString n]
  let parts := part "days" (Int.fdiv seconds 86400) ++ part "seconds" (Int.fmod seconds 86400)
  "datetime.timedelta(" ++ joinWith ", " parts ++ ")"

def time (text : String) : Result Scalar :=
  match Tag.timeFields? (text.toList) with
  | none => .error .time
  | some f =>
    let date : Date := ⟨f.year, f.month, f.day⟩
    match f.time with
    | none =>
      match date.fault? with
      | some c => .error (.calendar c)
      | none => .ok (.date date)
    | some (hour, minute, second, fraction) =>
      let offset := f.offset.map offsetSeconds
      if offset.any fun s => 86400 ≤ s.natAbs then .error (.calendar (.offset (spanText (offset.getD 0))))
      else
        let t : DateTime := ⟨date, hour, minute, second, micros fraction, offset⟩
        match t.fault? with
        | some c => .error (.calendar c)
        | none => .ok (.dateTime t)

/-! ## Bytes -/

def sextet? (c : Char) : Option Nat :=
  if c.isUpper then some (c.toNat - 65)
  else if c.isLower then some (c.toNat - 71)
  else if c.isDigit then some (c.toNat + 4)
  else if c = '+' then some 62
  else if c = '/' then some 63
  else none

/-- The bytes of a text in base 64. Other characters are passed over; the padding has to be complete.
`held` are the sextets of the group that is being read and `padding` the signs behind them. -/
def base64From (held : List Nat) (padding : Nat) : List Char → Option (List UInt8)
  | [] => if held = [] then some [] else none
  | '=' :: rest =>
    if 2 ≤ held.length ∧ held.length + padding + 1 = 4 then some (groupBytes held)
    else if 2 ≤ held.length then base64From held (padding + 1) rest
    else base64From held padding rest
  | c :: rest =>
    match sextet? c with
    | none => base64From held padding rest
    | some n =>
      if held.length = 3 then (base64From [] 0 rest).map (groupBytes (held ++ [n]) ++ ·)
      else base64From (held ++ [n]) 0 rest
where
  /-- The whole bytes of a group of sextets. -/
  groupBytes : List Nat → List UInt8
    | [a, b] => [(4 * a + b / 16).toUInt8]
    | [a, b, c] => [(4 * a + b / 16).toUInt8, (16 * (b % 16) + c / 4).toUInt8]
    | [a, b, c, d] => [(4 * a + b / 16).toUInt8, (16 * (b % 16) + c / 4).toUInt8, (64 * (c % 4) + d).toUInt8]
    | _ => []

def binary (text : String) : Result (List UInt8) :=
  if text.toList.all fun c => c.toNat < 128 then
    match base64From [] 0 text.toList with
    | some bs => .ok bs
    | none => .error .malformed
  else .error .malformed

def scalar (tag text : String) : Result Scalar :=
  if tag = Tag.null then .ok .null
  else if tag = Tag.bool then (truth text).map .bool
  else if tag = Tag.int then (integer text).map .int
  else if tag = Tag.float then (float text).map .float
  else if tag = Tag.text then .ok (.text text)
  else if tag = Tag.time then time text
  else if tag = Tag.binary then (binary text).map .bytes
  else .error .malformed

end Workflow.Yaml
