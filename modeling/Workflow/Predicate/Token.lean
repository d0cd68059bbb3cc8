import Workflow.Text.Split
import Workflow.Text.Digit
import Workflow.Text.Quoted

/-!
# Tokens of a predicate

A predicate is cut into tokens at its blanks and otherwise by the longest match of the first kind that
matches. A token knows where it starts; text that no kind matches ends the cut.
-/

namespace Workflow.Predicate

inductive TokenKind where
  | template | string | number | param | operator | leftParen | rightParen | comma | word
  deriving DecidableEq

structure Token where
  kind : TokenKind
  chars : List Char
  position : Nat
  deriving DecidableEq

def Token.text (t : Token) : String := String.ofList t.chars

/-! ## Scanners

A scanner splits a text into what it matches at the front and the rest. -/

def isWordStart (c : Char) : Bool := c.isAlpha || c == '_'

def isWordPart (c : Char) : Bool := c.isAlphanum || c == '_'

/-- The text up to and with the first closing braces. -/
def closeTemplate : List Char → Option (List Char × List Char)
  | '\x7d' :: '\x7d' :: rest => some (['\x7d', '\x7d'], rest)
  | c :: rest => (closeTemplate rest).map fun (s, r) => (c :: s, r)
  | [] => none

def scanTemplate? : List Char → Option (List Char × List Char)
  | '\x7b' :: '\x7b' :: rest => (closeTemplate rest).map fun (s, r) => ('\x7b' :: '\x7b' :: s, r)
  | _ => none

/-- The text up to and with the closing quote. A doubled quote is content, unless no other quote
closes the text: then its first half does. -/
def closeQuote : List Char → Option (List Char × List Char)
  | [] => none
  | [c] => if c = singleQuote then some ([c], []) else none
  | c :: d :: rest =>
    if c = singleQuote then
      if d = singleQuote then
        match closeQuote rest with
        | some (s, r) => some (c :: d :: s, r)
        | none => some ([c], d :: rest)
      else some ([c], d :: rest)
    else (closeQuote (d :: rest)).map fun (s, r) => (c :: s, r)

def scanString? : List Char → Option (List Char × List Char)
  | c :: rest => if c = singleQuote then (closeQuote rest).map fun (s, r) => (c :: s, r) else none
  | [] => none

def scanDigits? (cs : List Char) : Option (List Char × List Char) :=
  match cs with
  | c :: _ => if isDecimal c then some (cs.takeWhile isDecimal, cs.dropWhile isDecimal) else none
  | [] => none

def scanFraction : List Char → List Char × List Char
  | '.' :: rest =>
    match scanDigits? rest with
    | some (ds, r) => ('.' :: ds, r)
    | none => ([], '.' :: rest)
  | rest => ([], rest)

def scanExponent : List Char → List Char × List Char
  | c :: rest =>
    if c = 'e' ∨ c = 'E' then
      match rest with
      | s :: more =>
        if s = '-' ∨ s = '+' then
          match scanDigits? more with
          | some (ds, r) => (c :: s :: ds, r)
          | none => ([], c :: rest)
        else
          match scanDigits? rest with
          | some (ds, r) => (c :: ds, r)
          | none => ([], c :: rest)
      | [] => ([], c :: rest)
    else ([], c :: rest)
  | [] => ([], [])

def scanUnsigned? (cs : List Char) : Option (List Char × List Char) :=
  (scanDigits? cs).map fun (ds, r) =>
    let (f, r) := scanFraction r
    let (e, r) := scanExponent r
    (ds ++ f ++ e, r)

def scanNumber? : List Char → Option (List Char × List Char)
  | '-' :: rest => (scanUnsigned? rest).map fun (s, r) => ('-' :: s, r)
  | cs => scanUnsigned? cs

def scanName? : List Char → Option (List Char × List Char)
  | c :: rest => if isWordStart c then some (c :: rest.takeWhile isWordPart, rest.dropWhile isWordPart) else none
  | [] => none

def scanParam? : List Char → Option (List Char × List Char)
  | ':' :: rest => (scanName? rest).map fun (s, r) => (':' :: s, r)
  | _ => none

def scanOperator? : List Char → Option (List Char × List Char)
  | '<' :: '=' :: rest => some (['<', '='], rest)
  | '>' :: '=' :: rest => some (['>', '='], rest)
  | '<' :: '>' :: rest => some (['<', '>'], rest)
  | '!' :: '=' :: rest => some (['!', '='], rest)
  | '=' :: rest => some (['='], rest)
  | '<' :: rest => some (['<'], rest)
  | '>' :: rest => some (['>'], rest)
  | _ => none

def scanChar? (c : Char) : List Char → Option (List Char × List Char)
  | d :: rest => if d = c then some ([d], rest) else none
  | [] => none

/-- Names with single points between them. -/
def scanDotted? : (fuel : Nat) → List Char → Option (List Char × List Char)
  | 0, _ => none
  | fuel + 1, cs =>
    -- every name takes a character at least
    match scanName? cs with
    | none => none
    | some (s, '.' :: rest) =>
      match scanDotted? fuel rest with
      | some (t, r) => some (s ++ '.' :: t, r)
      | none => some (s, '.' :: rest)
    | some (s, r) => some (s, r)

def scanWord? (cs : List Char) : Option (List Char × List Char) := scanDotted? cs.length cs

/-- The kinds in the order in which they are tried. -/
def scanners : List (TokenKind × (List Char → Option (List Char × List Char))) := [
  (.template, scanTemplate?), (.string, scanString?), (.number, scanNumber?), (.param, scanParam?),
  (.operator, scanOperator?), (.leftParen, scanChar? '('), (.rightParen, scanChar? ')'),
  (.comma, scanChar? ','), (.word, scanWord?)]

def scanToken? (position : Nat) (cs : List Char) : Option (Token × List Char) :=
  scanners.findSome? fun (kind, scan) => (scan cs).map fun (s, r) => (⟨kind, s, position⟩, r)

/-- Where no token starts: the offset and the text from there on. -/
structure Stop where
  offset : Nat
  rest : List Char

/-- The tokens of a text that starts at `position`. -/
def tokensFrom : (fuel position : Nat) → List Char → Except Stop (List Token)
  | _, _, [] => .ok []
  | 0, position, cs => .error ⟨position, cs⟩
  -- every step takes a character at least, so the length of the text is fuel enough
  | fuel + 1, position, c :: rest =>
    if isBlank c then tokensFrom fuel (position + 1) rest
    else
      match scanToken? position (c :: rest) with
      | none => .error ⟨position, c :: rest⟩
      | some (t, rest) => (tokensFrom fuel (position + t.chars.length) rest).map (t :: ·)

def tokens (cs : List Char) : Except Stop (List Token) := tokensFrom cs.length 0 cs

/-! ## Keywords -/

inductive Keyword where
  | and | or | in | not | is | exists | where | true | false | null
  deriving DecidableEq

def keywords : List (String × Keyword) := [
  ("AND", .and), ("OR", .or), ("IN", .in), ("NOT", .not), ("IS", .is), ("EXISTS", .exists),
  ("WHERE", .where), ("TRUE", .true), ("FALSE", .false), ("NULL", .null)]

/-- The keyword that a word is, in any letter case. -/
def Token.keyword? (t : Token) : Option Keyword :=
  if t.kind = .word then keywords.lookup (String.ofList (t.chars.map Char.toUpper)) else none

end Workflow.Predicate
