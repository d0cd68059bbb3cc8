import Workflow.Number.Binary64
import Workflow.Text.Split
import Workflow.Text.Digit

/-!
# Words and numerals in texts

Where a truth value or a number is asked for, a text that spells one will do. Only ASCII digits count.
-/

namespace Workflow

/-- White space in the narrow sense, without the ASCII separators. -/
def isSpace (c : Char) : Bool := isBlank c && !(28 ≤ c.toNat && c.toNat ≤ 31)

def stripSpaces (cs : List Char) : List Char :=
  (((cs.dropWhile isSpace).reverse).dropWhile isSpace).reverse

def trueWords : List String := ["1", "t", "y", "true", "yes", "on"]

def falseWords : List String := ["0", "f", "n", "false", "no", "off"]

def truthWord? (s : String) : Option Bool :=
  let word := s.toLower
  if trueWords.contains word then some true
  else if falseWords.contains word then some false
  else none

/-- Single underscores within a text are dropped. A text that has others stays as it is. -/
def dropUnderscores (cs : List Char) : List Char :=
  let rec doubled : List Char → Bool
    | '_' :: '_' :: _ => true
    | _ :: rest => doubled rest
    | [] => false
  if cs.head? = some '_' ∨ cs.getLast? = some '_' ∨ doubled cs then cs else cs.filter (· != '_')

/-- The rest of an unsigned numeral after its leading zeros; the last zero stays when no other digit
follows it. `last` is the character that was read before. -/
def dropZeros (last : Char) : List Char → Option (List Char)
  | [] => some [last]
  | c :: rest =>
    if c = '0' ∨ c = '_' then dropZeros c rest
    else if c = '.' then some (last :: c :: rest)
    else if c.isDigit then some (c :: rest)
    else none

def dropFraction (cs : List Char) : Option (List Char) :=
  match cs.dropWhile (· != '.') with
  | [] => some cs
  | _ :: zeros => if zeros ≠ [] ∧ zeros.all (· == '0') then some (cs.takeWhile (· != '.')) else none

def plainNumeral? (cs : List Char) : Option Nat :=
  if cs ≠ [] ∧ cs.all Char.isDigit ∧ (cs.head? = some '0' → cs = ['0']) then some (decimalNumeral cs) else none

def signedNumeral? : List Char → Option Int
  | '-' :: cs => (plainNumeral? cs).map fun n => -(n : Int)
  | cs => (plainNumeral? cs).map fun n => (n : Int)

/-- The leading zeros of a numeral dropped; one with a minus sign has none. -/
def unpadded : List Char → Option (List Char)
  | '0' :: rest => dropZeros '0' rest
  | '-' :: rest => some ('-' :: rest)
  | c :: rest => if c.isDigit then some (c :: rest) else none
  | [] => none

def unsigned : List Char → Option (List Char)
  | '+' :: '-' :: _ => none
  | '+' :: rest => some rest
  | cs => some cs

/-- The integer that a text spells: white space around it, a sign, leading zeros, single underscores and
a fraction of zeros are allowed. -/
def integerText? (s : String) : Option Int := do
  let cs ← unsigned (stripSpaces s.toList)
  let cs ← unpadded cs
  let cs ← dropFraction cs
  signedNumeral? (dropUnderscores cs)

def longestInteger : Nat := 4300

def exponentText? : List Char → Option Int
  | [] => some 0
  | e :: cs =>
    let (negative, digits) := match cs with
      | '-' :: ds => (true, ds)
      | '+' :: ds => (false, ds)
      | ds => (false, ds)
    if (e = 'e' ∨ e = 'E') ∧ digits ≠ [] ∧ digits.all Char.isDigit then
      some (if negative then -(decimalNumeral digits : Int) else decimalNumeral digits)
    else none

def unsignedFloat? (negative : Bool) (cs : List Char) : Option Binary64 :=
  let word := String.ofList (cs.map Char.toLower)
  if word = "inf" ∨ word = "infinity" then some (.infinite negative)
  else if word = "nan" then some .nan
  else
    let whole := cs.takeWhile Char.isDigit
    let rest := cs.dropWhile Char.isDigit
    let (fraction, rest) := match rest with
      | '.' :: r => (r.takeWhile Char.isDigit, r.dropWhile Char.isDigit)
      | r => ([], r)
    if whole = [] ∧ fraction = [] then none
    else (exponentText? rest).map fun e =>
      .ofDecimal negative (decimalNumeral (whole ++ fraction)) (e - fraction.length)

def floatChars? : List Char → Option Binary64
  | '-' :: cs => unsignedFloat? true cs
  | '+' :: cs => unsignedFloat? false cs
  | cs => unsignedFloat? false cs

/-- The number that a text spells, with white space around it or with single underscores. -/
def floatText? (s : String) : Option Binary64 :=
  (floatChars? (stripSpaces s.toList)).or (floatChars? (dropUnderscores s.toList))

end Workflow
