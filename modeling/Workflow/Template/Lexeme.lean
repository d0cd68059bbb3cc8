import Workflow.Breakdown
import Workflow.Text.Name
import Workflow.Text.Word

/-!
# Lexemes of a tag

What stands between the delimiters of a tag: names, quoted texts, numbers and symbols. Each scanner
takes the longest lexeme of its kind at the front of a text and gives the rest.
-/

namespace Workflow

/-- Why a source is no template. -/
inductive TemplateFault where
  /-- A tag is broken, unknown or left open. -/
  | malformed
  /-- A number that breaks the reading down. -/
  | breakdown (b : Breakdown)
  /-- A statement tag. -/
  | statement
  /-- An expression that is no path. -/
  | notPath
  | filter (name : String)
  /-- A default without exactly one plain argument. -/
  | defaultArity
  /-- A default that is no literal. -/
  | defaultLiteral
  deriving DecidableEq

namespace TemplateFault

/-- The message for a fault in `source`; the details of a broken tag are not told. -/
def message (source : String) : TemplateFault → String
  | malformed => s!"Invalid template syntax in {quoted source}: <jinja>"
  | breakdown b => b.message
  | statement => "Template blocks are not allowed, only \x7b\x7b placeholders \x7d\x7d: " ++ quoted source
  | notPath => s!"Only dotted field paths are allowed in placeholders: {quoted source}"
  | filter name => s!"Filter '{name}' is not allowed (only 'default'): {quoted source}"
  | defaultArity => s!"default() takes exactly one literal argument: {quoted source}"
  | defaultLiteral => s!"default() argument must be a literal: {quoted source}"

def breakdown? : TemplateFault → Option Breakdown
  | breakdown b => some b
  | _ => none

end TemplateFault

namespace Template

inductive Lexeme where
  | name (s : String)
  | text (s : String)
  | int (n : Nat)
  | float (x : Binary64)
  | symbol (s : String)
  /-- The end of the tag. -/
  | close
  /-- The tag cannot be read from here on. -/
  | stop (f : TemplateFault)
  deriving DecidableEq

/-! ## Names -/

def isNameStart (c : Char) : Bool :=
  CharSet.word.contains c && !CharSet.numeral.contains c || CharSet.letterSign.contains c

def isNamePart (c : Char) : Bool :=
  CharSet.word.contains c && !CharSet.signNumeral.contains c || CharSet.mark.contains c

def scanName? : List Char → Option (Lexeme × List Char)
  | [] => none
  | c :: rest =>
    if isNameStart c then some (.name (String.ofList (c :: rest.takeWhile isNamePart)), rest.dropWhile isNamePart)
    else none

/-! ## Numbers -/

/-- Digits with single low lines between them; the low lines are dropped. -/
def digitRun (digit : Char → Bool) : List Char → List Char × List Char
  | [] => ([], [])
  | '_' :: c :: rest =>
    if digit c then
      let (ds, rest) := digitRun digit rest
      (c :: ds, rest)
    else ([], '_' :: c :: rest)
  | c :: rest =>
    if digit c then
      let (ds, rest) := digitRun digit rest
      (c :: ds, rest)
    else ([], c :: rest)

def digitRun? (digit : Char → Bool) : List Char → Option (List Char × List Char)
  | [] => none
  | c :: rest => if digit c then some (digitRun digit (c :: rest)) else none

def scanExponent? : List Char → Option (Int × List Char)
  | c :: rest =>
    if c = 'e' ∨ c = 'E' then
      let (negative, rest) := match rest with
        | '-' :: r => (true, r)
        | '+' :: r => (false, r)
        | r => (false, r)
      (digitRun? isDecimal rest).map fun (ds, rest) =>
        let n : Int := decimalNumeral ds
        (if negative then -n else n, rest)
    else none
  | [] => none

def scanFraction? : List Char → Option (List Char × List Char)
  | '.' :: rest => digitRun? isDecimal rest
  | _ => none

def scanReal? (cs : List Char) : Option (Binary64 × List Char) := do
  let (whole, rest) ← digitRun? isDecimal cs
  let value (fraction : List Char) (e : Int) : Binary64 :=
    .ofDecimal false (decimalNumeral (whole ++ fraction)) (e - fraction.length)
  match scanFraction? rest with
  | some (fraction, rest) =>
    match scanExponent? rest with
    | some (e, rest) => return (value fraction e, rest)
    | none => return (value fraction 0, rest)
  | none =>
    let (e, rest) ← scanExponent? rest
    return (value [] e, rest)

def isAscii (c : Char) : Bool := c.toNat < 128

/-- A number is read in ASCII digits only. -/
def floatLexeme (numeral : List Char) (x : Binary64) : Lexeme :=
  if numeral.all isAscii then .float x
  else .stop (.breakdown (.foreign (numeral.head?.filter fun c => !isAscii c)))

def scanFloat? (cs : List Char) : Option (Lexeme × List Char) :=
  (scanReal? cs).map fun (x, rest) => (floatLexeme (cs.take (cs.length - rest.length)) x, rest)

def hexValue? (c : Char) : Option Nat :=
  if 'a' ≤ c ∧ c ≤ 'f' then some (c.toNat - 87)
  else if 'A' ≤ c ∧ c ≤ 'F' then some (c.toNat - 55)
  else decimalValue? c

def numeralIn (base : Nat) (ds : List Char) : Nat := ds.foldl (fun n c => base * n + (hexValue? c).getD 0) 0

def scanBased? (mark : Char) (base : Nat) (digit : Char → Bool) : List Char → Option (Lexeme × List Char)
  | '0' :: c :: rest =>
    if c.toLower = mark then
      let (ds, rest) := digitRun digit rest
      if ds = [] then none else some (.int (numeralIn base ds), rest)
    else none
  | _ => none

/-- A numeral without the mark of a base has a limit. -/
def intLexeme (ds : List Char) : Lexeme :=
  match readDigits ds with
  | .ok n => .int n
  | .error b => .stop (.breakdown b)

def scanDecimalInt? : List Char → Option (Lexeme × List Char)
  | [] => none
  | c :: rest =>
    if c = '0' then
      let (ds, rest) := digitRun (· == '0') (c :: rest)
      some (intLexeme ds, rest)
    else if '1' ≤ c ∧ c ≤ '9' then
      let (ds, rest) := digitRun isDecimal (c :: rest)
      some (intLexeme ds, rest)
    else none

def scanInt? (cs : List Char) : Option (Lexeme × List Char) :=
  -- a zero alone is a number too, so the marks of the bases come first
  (scanBased? 'b' 2 (fun c => c == '0' || c == '1') cs).or <|
    (scanBased? 'o' 8 (fun c => '0' ≤ c && c ≤ '7') cs).or <|
      (scanBased? 'x' 16 (fun c => (hexValue? c).isSome) cs).or (scanDecimalInt? cs)

/-! ## Quoted texts -/

/-- The text up to the closing quote, escapes still in it, and what follows the quote. -/
def untilQuote (quote : Char) : List Char → Option (List Char × List Char)
  | [] => none
  | '\\' :: c :: rest => (untilQuote quote rest).map fun (s, r) => ('\\' :: c :: s, r)
  | c :: rest => if c = quote then some ([], rest) else (untilQuote quote rest).map fun (s, r) => (c :: s, r)

def escapeWide (cs : List Char) : List Char := cs.flatMap fun c => if isAscii c then [c] else numericEscape c.toNat

/-- The character of a code point. Half of a pair of units is no character. -/
def charOf (code : Nat) : Char := if 0xD800 ≤ code ∧ code < 0xE000 then loneUnit else Char.ofNat code

def hexEscape? (n : Nat) (cs : List Char) : Option (Char × List Char) :=
  let ds := cs.take n
  let code := numeralIn 16 ds
  if ds.length = n ∧ ds.all (fun c => isAscii c && (hexValue? c).isSome) ∧ code < 0x110000 then
    some (charOf code, cs.drop n)
  else none

/-- The character whose name stands between braces. -/
def nameEscape? (names : CharacterNames) : List Char → Option (Char × List Char)
  | '\x7b' :: rest =>
    match rest.dropWhile (· != '\x7d') with
    | _ :: after => (names (String.ofList (rest.takeWhile (· != '\x7d')))).map fun c => (c, after)
    | [] => none
  | _ => none

def letterOf? : Char → Option Char
  | '\\' => some '\\'
  | 'n' => some '\n'
  | 't' => some '\t'
  | 'r' => some '\r'
  | 'a' => some (Char.ofNat 7)
  | 'b' => some (Char.ofNat 8)
  | 'f' => some (Char.ofNat 12)
  | 'v' => some (Char.ofNat 11)
  | c => if c = singleQuote ∨ c = doubleQuote then some c else none

def isOctal (c : Char) : Bool := '0' ≤ c && c ≤ '7'

section
variable (names : CharacterNames)

/-- Read the escapes of a text; one that is not known stays as it is, a broken one fails. -/
def unescape : (fuel : Nat) → List Char → Option (List Char)
  | _, [] => some []
  | 0, _ => none
  -- every step takes a character at least, so the length of the text is fuel enough
  | fuel + 1, '\\' :: c :: rest =>
    if c = '\n' then unescape fuel rest
    else if c = 'x' then do
      let (d, rest) ← hexEscape? 2 rest
      return d :: (← unescape fuel rest)
    else if c = 'u' then do
      let (d, rest) ← hexEscape? 4 rest
      return d :: (← unescape fuel rest)
    else if c = 'U' then do
      let (d, rest) ← hexEscape? 8 rest
      return d :: (← unescape fuel rest)
    else if c = 'N' then do
      let (d, rest) ← nameEscape? names rest
      return d :: (← unescape fuel rest)
    else if isOctal c then
      let ds := c :: (rest.take 2).takeWhile isOctal
      (unescape fuel (rest.drop (ds.length - 1))).map (Char.ofNat (numeralIn 8 ds) :: ·)
    else
      match letterOf? c with
      | some d => (unescape fuel rest).map (d :: ·)
      | none => (unescape fuel rest).map fun s => '\\' :: c :: s
  | fuel + 1, c :: rest => (unescape fuel rest).map (c :: ·)

def readEscapes? (cs : List Char) : Option (List Char) :=
  let wide := escapeWide cs
  unescape names wide.length wide

def scanText? : List Char → Option (Lexeme × List Char)
  | [] => none
  | c :: rest =>
    if c = singleQuote ∨ c = doubleQuote then do
      let (raw, rest) ← untilQuote c rest
      let s ← readEscapes? names raw
      return (.text (String.ofList s), rest)
    else none

end

/-! ## Symbols -/

def symbols : List String :=
  ["//", "**", "==", "!=", ">=", "<=", "+", "-", "/", "*", "%", "~", "[", "]", "(", ")", "\x7b", "\x7d", ">",
    "<", "=", ".", ":", "|", ",", ";"]

def scanSymbol? (cs : List Char) : Option (Lexeme × List Char) :=
  (symbols.find? fun s => s.toList.isPrefixOf cs).map fun s => (.symbol s, cs.drop s.length)

/-- The lexeme at the front of a text that does not start with a blank. No number with a point or an
exponent starts right after a point. -/
def scanLexeme? (names : CharacterNames) (afterPoint : Bool) (cs : List Char) : Option (Lexeme × List Char) :=
  (if afterPoint then none else scanFloat? cs).or <|
    (scanInt? cs).or <| (scanName? cs).or <| (scanText? names cs).or (scanSymbol? cs)

/-! ## Readers -/

/-- A reader takes lexemes from the front and gives the rest. -/
abbrev Reader (α : Type) := List Lexeme → Except TemplateFault (α × List Lexeme)

/-- What is wrong where the next lexeme is of no use: the tag, or the next lexeme cannot be read. -/
def failAt {α : Type} : List Lexeme → Except TemplateFault α
  | .stop f :: _ => .error f
  | _ => .error .malformed

def symbol (s : String) : List Lexeme → Except TemplateFault (List Lexeme)
  | .symbol t :: ts => if t = s then .ok ts else .error .malformed
  | ts => failAt ts

/-- The end of a tag. -/
def close : List Lexeme → Except TemplateFault Unit
  | .close :: _ => .ok ()
  | ts => failAt ts

end Template

end Workflow
