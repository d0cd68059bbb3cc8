import Workflow.Text.Split

/-!
# Decimal digits of any script

Unicode encodes the decimal digits of a script as ten code points in a row, so a list of the zeros
gives every digit its value. `CharSet.digitLike` holds besides them the superscripts and the circled
digits, which look like digits and have no place in a numeral.
-/

namespace Workflow

def decimalZeros : List Nat := [
    48, 1632, 1776, 1984, 2406, 2534, 2662, 2790, 2918, 3046, 3174, 3302, 3430, 3558, 3664, 3792, 3872,
    4160, 4240, 6112, 6160, 6470, 6608, 6784, 6800, 6992, 7088, 7232, 7248, 42528, 43216, 43264, 43472,
    43504, 43600, 44016, 65296, 66720, 68912, 69734, 69872, 69942, 70096, 70384, 70736, 70864, 71248,
    71360, 71472, 71904, 72016, 72784, 73040, 73120, 92768, 92864, 93008, 120782, 120792, 120802,
    120812, 120822, 123200, 123632, 125264, 130032]

def decimalValue? (c : Char) : Option Nat :=
  (decimalZeros.find? fun z => z ≤ c.toNat && c.toNat < z + 10).map (c.toNat - ·)

def isDecimal (c : Char) : Bool := (decimalValue? c).isSome

/-- Digits that carry a digit value but are not decimal digits. -/
def CharSet.digitSign : CharSet where
  bounds := [
    178, 180, 185, 186, 4969, 4978, 6618, 6619, 8304, 8305, 8308, 8314, 8320, 8330, 9312, 9321, 9332,
    9341, 9352, 9361, 9450, 9451, 9461, 9470, 9471, 9472, 10102, 10111, 10112, 10121, 10122, 10131,
    68160, 68164, 69216, 69225, 69714, 69723, 127232, 127243]

def isDigitLike (c : Char) : Bool := isDecimal c || CharSet.digitSign.contains c

/-- The number a run of decimal digits stands for; characters that are no digits count as zero. -/
def decimalNumeral (cs : List Char) : Nat :=
  cs.foldl (fun n c => 10 * n + (decimalValue? c).getD 0) 0

/-- The most digits of a numeral that is read. -/
def longestNumeral : Nat := 4300

/-- Whether digits are a numeral that is read: they are decimal, and not too many. -/
def isNumeral (cs : List Char) : Bool := cs.all isDecimal && cs.length ≤ longestNumeral

def digitValue? (c : Char) : Option Nat :=
  (decimalValue? c).or
    (if 'a' ≤ c ∧ c ≤ 'z' then some (c.toNat - 87) else if 'A' ≤ c ∧ c ≤ 'Z' then some (c.toNat - 55) else none)

def digitsIn? (base : Nat) (cs : List Char) : Option Nat :=
  if cs = [] then none
  else cs.foldlM (fun n c => (digitValue? c).bind fun d => if d < base then some (base * n + d) else none) 0

end Workflow
