import Workflow.Number.Decimal
import Workflow.Number.Binary64
import Workflow.Text.Digit

/-!
# Cells

What a column holds in one row, and how the affinity of the column changes what is written to it and what
it is compared with. Numbers come before texts, and texts before bytes; null has no order.
-/

namespace Workflow

inductive Cell where
  | null
  | int (n : Int)
  | real (x : Binary64)
  | text (s : String)
  | blob (bs : List UInt8)
  deriving DecidableEq

/-- The form in which a column prefers to keep its values. -/
inductive Affinity where
  | text | numeric | real
  deriving DecidableEq

namespace Cell

/-- A number as a cell; what is no number is null. -/
def ofFloat : Binary64 → Cell
  | .nan => null
  | x => real x

/-! ## Numbers as text -/

/-- Stored numbers are written with fifteen digits at most, and always with a point. -/
def style : NumberStyle := ⟨-4, 15, true, 2, false⟩

/-- A number rounded to fifteen digits, a half going up. -/
def roundedDigits (m : Nat) (e : Int) : Decimal :=
  let (num, den) := Binary64.ratio m e
  let k := Decimal.decade num den - 14
  let num := num * Nat.pow 10 (-k).toNat
  let den := den * Nat.pow 10 k.toNat
  Decimal.trim 20 ((2 * num + den) / (2 * den)) k

def layoutPointed (ds : List Char) (e : Int) : List Char :=
  if (style.least ≤ e ∧ e < style.most) ∨ 1 < ds.length then style.layout ds e
  else ds ++ '.' :: '0' :: style.exponentText e

def realText : Binary64 → String
  | .finite negative m e =>
    if m = 0 then "0.0"
    else
      let d := roundedDigits m e
      let ds := decimalDigits d.digits
      String.ofList ((if negative then ['-'] else []) ++ layoutPointed ds (d.exponent + ds.length - 1))
  | .infinite negative => if negative then "-Inf" else "Inf"
  | .nan => ""

/-! ## Texts as numbers -/

def isSqlSpace (c : Char) : Bool := c = ' ' || (9 ≤ c.toNat && c.toNat ≤ 13)

/-- A number that is whole becomes an integer, if it is not too large. -/
def wholeNumber (x : Binary64) : Cell :=
  match x.toInt? with
  | some n => if -wordBound < n && n < wordBound - 1 then int n else real x
  | none => real x

def numeralExponent? : List Char → Option Int
  | [] => some 0
  | e :: cs =>
    let (negative, ds) := match cs with
      | '-' :: ds => (true, ds)
      | '+' :: ds => (false, ds)
      | ds => (false, ds)
    if (e = 'e' ∨ e = 'E') ∧ ds ≠ [] ∧ ds.all Char.isDigit then
      some (if negative then -(decimalNumeral ds : Int) else decimalNumeral ds)
    else none

def unsignedNumber? (negative : Bool) (cs : List Char) : Option Cell :=
  let whole := cs.takeWhile Char.isDigit
  let rest := cs.dropWhile Char.isDigit
  let n : Int := if negative then -(decimalNumeral whole : Int) else decimalNumeral whole
  if rest = [] ∧ whole ≠ [] ∧ fitsWord n then some (int n)
  else
    let (fraction, rest) := match rest with
      | '.' :: r => (r.takeWhile Char.isDigit, r.dropWhile Char.isDigit)
      | r => ([], r)
    if whole = [] ∧ fraction = [] then none
    else (numeralExponent? rest).map fun e =>
      wholeNumber (.ofDecimal negative (decimalNumeral (whole ++ fraction)) (e - fraction.length))

def numberOf? (s : String) : Option Cell :=
  let cs := (((s.toList.dropWhile isSqlSpace).reverse).dropWhile isSqlSpace).reverse
  match cs with
  | '-' :: cs => unsignedNumber? true cs
  | '+' :: cs => unsignedNumber? false cs
  | cs => unsignedNumber? false cs

/-! ## Affinity -/

def toText : Cell → Cell
  | int n => text (toString n)
  | real x => text (realText x)
  | c => c

/-- Numerals as numbers, and whole numbers as integers. -/
def toNumber : Cell → Cell
  | text s => (numberOf? s).getD (text s)
  | real x => wholeNumber x
  | c => c

/-- Integers as floating point numbers; zero has no sign. -/
def toReal (c : Cell) : Cell :=
  match c.toNumber with
  | int n => real (.ofInt n)
  | c => c

/-- What a column keeps of what is written to it. -/
def store : Affinity → Cell → Cell
  | .text, c => c.toText
  | .numeric, c => c.toNumber
  | .real, c => c.toReal

/-- What a column is compared with in place of an operand. -/
def compared : Affinity → Cell → Cell
  | .text, c => c.toText
  | _, c => c.toNumber

/-! ## Order -/

def kindRank : Cell → Nat
  | null => 0
  | int _ => 1
  | real _ => 1
  | text _ => 2
  | blob _ => 3

def compareIntReal (n : Int) : Binary64 → Ordering
  | .finite negative m e =>
    let (a, b) := Binary64.signedRatio negative m e
    compare (n * b) a
  | .infinite negative => if negative then .gt else .lt
  | .nan => .eq

def compareBytes : List UInt8 → List UInt8 → Ordering
  | [], [] => .eq
  | [], _ => .lt
  | _, [] => .gt
  | a :: as, b :: bs => if a < b then .lt else if b < a then .gt else compareBytes as bs

/-- Order of two cells; none when one of them is null. -/
def order? : Cell → Cell → Option Ordering
  | null, _ => none
  | _, null => none
  | int m, int n => some (compare m n)
  | int m, real y => some (compareIntReal m y)
  | real x, int n => some (compareIntReal n x).swap
  | real x, real y => x.compare? y
  | text s, text t => some (compare s t)
  | blob s, blob t => some (compareBytes s t)
  | a, b => some (compare a.kindRank b.kindRank)

end Cell

end Workflow
