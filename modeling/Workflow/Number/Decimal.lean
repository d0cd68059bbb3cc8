import Workflow.Number.Binary64

/-!
# Shortest decimals

A binary number is written with the fewest decimal digits that read back as it; of two decimals of
that length the nearer one is taken. How the digits are laid out is a matter of the `NumberStyle`.
-/

namespace Workflow

def decimalDigits (n : Nat) : List Char := (toString n).toList

structure Decimal where
  digits : Nat
  exponent : Int
  deriving DecidableEq

namespace Decimal

/-- The exponent of ten of the largest power not above `num / den`. -/
def decade (num den : Nat) : Int :=
  if den ≤ num then ((decimalDigits (num / den)).length : Int) - 1
  else
    let p := (decimalDigits (den / num)).length - 1
    if den ≤ num * Nat.pow 10 p then -(p : Int) else -((p : Int) + 1)

/-- Twice the mantissas that bound the reals which round to `m * 2^e`, in quarters. -/
def lowerQuarters (m : Nat) (e : Int) : Nat :=
  -- below a power of two the numbers lie twice as close
  if m = Nat.pow 2 52 ∧ Binary64.leastExponent < e then 4 * m - 1 else 4 * m - 2

def upperQuarters (m : Nat) : Nat := 4 * m + 2

/-- Whether `d * 10^k` lies among the reals that round to `m * 2^e`. -/
def readsBack (m : Nat) (e : Int) (d : Nat) (k : Int) : Bool :=
  -- both sides times 4 * 2^(-e) and 10^(-k) where these are integers
  let twos := Nat.pow 2 (-e).toNat
  let tens := Nat.pow 10 (-k).toNat
  let mid := 4 * d * Nat.pow 10 k.toNat * twos
  let low := lowerQuarters m e * Nat.pow 2 e.toNat * tens
  let high := upperQuarters m * Nat.pow 2 e.toNat * tens
  if m % 2 = 0 then low ≤ mid && mid ≤ high else low < mid && mid < high

/-- The decimal of `n` digits that reads back, the nearer of the value's two neighbours. -/
def onGrid? (m : Nat) (e : Int) (n : Nat) : Option Decimal :=
  let (num, den) := Binary64.ratio m e
  let k := decade num den - n + 1
  let num := num * Nat.pow 10 (-k).toNat
  let den := den * Nat.pow 10 k.toNat
  let below := num / den
  let nearer := roundDiv num den
  let farther := if nearer = below then below + 1 else below
  if readsBack m e nearer k then some ⟨nearer, k⟩
  else if readsBack m e farther k then some ⟨farther, k⟩
  else none

def trim : (fuel digits : Nat) → Int → Decimal
  | 0, d, k => ⟨d, k⟩
  | fuel + 1, d, k => if d % 10 = 0 ∧ d ≠ 0 then trim fuel (d / 10) (k + 1) else ⟨d, k⟩

/-- The shortest decimal of the positive number `m * 2^e`; seventeen digits are always enough. -/
def shortest (m : Nat) (e : Int) : Decimal :=
  let found := ((List.range 17).findSome? fun n => onGrid? m e (n + 1)).getD ⟨m, e⟩
  trim 20 found.digits found.exponent

end Decimal

structure NumberStyle where
  /-- The least exponent of ten of the first digit that is still written without an exponent. -/
  least : Int
  /-- The first exponent of ten of the first digit that is written with an exponent. -/
  most : Int
  /-- Whether a whole number ends in a point and a zero. -/
  wholePoint : Bool
  /-- The least number of digits of an exponent. -/
  exponentDigits : Nat
  /-- Whether a negative zero keeps its sign. -/
  zeroSign : Bool

namespace NumberStyle

/-- The style of messages, predicates and stored text. -/
def plain : NumberStyle := ⟨-4, 16, true, 2, true⟩

def canonical : NumberStyle := ⟨-6, 21, false, 1, false⟩

def exponentText (style : NumberStyle) (e : Int) : List Char :=
  let digits := decimalDigits e.natAbs
  let pad := List.replicate (style.exponentDigits - digits.length) '0'
  'e' :: (if e < 0 then '-' else '+') :: (pad ++ digits)

/-- Digits `ds` of a number whose first digit stands for `10^e`. -/
def layout (style : NumberStyle) (ds : List Char) (e : Int) : List Char :=
  if style.least ≤ e ∧ e < style.most then
    if e < 0 then '0' :: '.' :: (List.replicate ((-e).toNat - 1) '0' ++ ds)
    else
      let whole := e.toNat + 1
      if ds.length ≤ whole then
        ds ++ List.replicate (whole - ds.length) '0' ++ (if style.wholePoint then ['.', '0'] else [])
      else ds.take whole ++ '.' :: ds.drop whole
  else
    match ds with
    | [] => []
    | [d] => d :: style.exponentText e
    | d :: rest => d :: '.' :: (rest ++ style.exponentText e)

def finiteText (style : NumberStyle) (negative : Bool) (m : Nat) (e : Int) : List Char :=
  if m = 0 then
    (if negative && style.zeroSign then ['-'] else []) ++ style.layout ['0'] 0
  else
    let d := Decimal.shortest m e
    let ds := decimalDigits d.digits
    (if negative then ['-'] else []) ++ style.layout ds (d.exponent + ds.length - 1)

end NumberStyle

def Binary64.text : Binary64 → String
  | finite negative m e => String.ofList (NumberStyle.plain.finiteText negative m e)
  | infinite negative => if negative then "-inf" else "inf"
  | nan => "nan"

end Workflow
