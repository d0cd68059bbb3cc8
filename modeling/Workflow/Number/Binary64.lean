/-!
# Binary floating point

The 64-bit binary numbers as sign, mantissa and exponent of two. Every operation that can leave the
grid rounds once, to nearest with ties to even, and is exact integer arithmetic otherwise.
-/

namespace Workflow

inductive Binary64 where
  /-- The number `(-1)^negative * mantissa * 2^exponent`. -/
  | finite (negative : Bool) (mantissa : Nat) (exponent : Int)
  | infinite (negative : Bool)
  | nan
  deriving DecidableEq, Inhabited

/-- The quotient of two numbers, to nearest, a tie going to the even neighbour. -/
def roundDiv (num den : Nat) : Nat :=
  let q := num / den
  let r := num % den
  if den < 2 * r ∨ (den = 2 * r ∧ q % 2 = 1) then q + 1 else q

namespace Binary64

/-- The least exponent, that of the numbers next to zero. -/
def leastExponent : Int := -1074

/-- The greatest exponent of a full mantissa. -/
def greatestExponent : Int := 971

/-- Zero and the numbers on the grid: a full mantissa of 53 bits unless the exponent is the least. -/
def WellFormed : Binary64 → Prop
  | finite _ m e =>
    m < Nat.pow 2 53 ∧ leastExponent ≤ e ∧ e ≤ greatestExponent ∧ (Nat.pow 2 52 ≤ m ∨ e = leastExponent)
  | infinite _ => True
  | nan => True

def zero (negative : Bool) : Binary64 := finite negative 0 leastExponent

/-- The ratio `num / den * 2^(-e)` as a numerator and a denominator. -/
def scaled (num den : Nat) (e : Int) : Nat × Nat :=
  if 0 ≤ e then (num, den * Nat.pow 2 e.toNat) else (num * Nat.pow 2 (-e).toNat, den)

/-- The exponent of two of the largest power not above `num / den`. -/
def binade (num den : Nat) : Int :=
  let d : Int := (num.log2 : Int) - den.log2
  -- the lengths of the two give the exponent or the one above it
  let (n, m) := scaled num den d
  if m ≤ n then d else d - 1

/-- The number nearest to `num / den`. -/
def ofRatio (negative : Bool) (num den : Nat) : Binary64 :=
  if num = 0 then zero negative
  else
    let e := max (binade num den - 52) leastExponent
    let (n, d) := scaled num den e
    let m := roundDiv n d
    -- rounding up may carry into a 54th bit
    let (m, e) := if m = Nat.pow 2 53 then (Nat.pow 2 52, e + 1) else (m, e)
    if greatestExponent < e then infinite negative else finite negative m e

def ofInt (n : Int) : Binary64 := ofRatio (n < 0) n.natAbs 1

/-- The number nearest to `digits * 10^exponent`. -/
def ofDecimal (negative : Bool) (digits : Nat) (exponent : Int) : Binary64 :=
  let magnitude : Int := (Nat.log2 digits : Int) / 4 + exponent
  if digits = 0 then zero negative
  -- far outside the range the power is not computed
  else if 400 < magnitude then infinite negative
  else if (Nat.log2 digits : Int) + exponent < -400 then zero negative
  else if 0 ≤ exponent then ofRatio negative (digits * Nat.pow 10 exponent.toNat) 1
  else ofRatio negative digits (Nat.pow 10 (-exponent).toNat)

def isFinite : Binary64 → Bool
  | finite .. => true
  | _ => false

def isZero : Binary64 → Bool
  | finite _ m _ => m == 0
  | _ => false

def ratio (m : Nat) (e : Int) : Nat × Nat :=
  if 0 ≤ e then (m * Nat.pow 2 e.toNat, 1) else (m, Nat.pow 2 (-e).toNat)

def toInt? : Binary64 → Option Int
  | finite negative m e =>
    let (n, d) := ratio m e
    if n % d = 0 then some (if negative then -(n / d : Nat) else (n / d : Nat)) else none
  | _ => none

/-- The integer next to a finite number on the side of zero. -/
def truncate? : Binary64 → Option Int
  | finite negative m e =>
    let (n, d) := ratio m e
    some (if negative then -(n / d : Nat) else (n / d : Nat))
  | _ => none

def signedRatio (negative : Bool) (m : Nat) (e : Int) : Int × Nat :=
  let (n, d) := ratio m e
  (if negative then -(n : Int) else n, d)

def ofSignedRatio (num : Int) (den : Nat) : Binary64 := ofRatio (num < 0) num.natAbs den

/-- The sum of two finite numbers; of others the first. -/
def add : Binary64 → Binary64 → Binary64
  | finite s m e, finite t n f =>
    let (a, b) := signedRatio s m e
    let (c, d) := signedRatio t n f
    if a * d + c * b = 0 then zero (s && t) else ofSignedRatio (a * d + c * b) (b * d)
  | x, _ => x

def scale (n : Int) : Binary64 → Binary64
  | finite s m e =>
    let (a, b) := signedRatio s m e
    if m = 0 ∨ n = 0 then zero (s != decide (n < 0)) else ofSignedRatio (a * n) b
  | x => x

def negate : Binary64 → Binary64
  | finite s m e => finite (!s) m e
  | infinite s => infinite (!s)
  | nan => nan

def compare? : Binary64 → Binary64 → Option Ordering
  | nan, _ => none
  | _, nan => none
  | infinite a, infinite b => some (if a = b then .eq else if a then .lt else .gt)
  | infinite a, finite .. => some (if a then .lt else .gt)
  | finite .., infinite b => some (if b then .gt else .lt)
  | finite s m e, finite t n f =>
    let (a, b) := signedRatio s m e
    let (c, d) := signedRatio t n f
    some (compare (a * d) (c * b))

end Binary64

/-! ## Machine words -/

def wordBound : Int := 9223372036854775808

/-- Whether a word of 64 bits holds an integer. -/
def fitsWord (n : Int) : Bool := -wordBound ≤ n && n < wordBound

end Workflow
