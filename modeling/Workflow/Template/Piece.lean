import Workflow.Template.Lexeme

/-!
# Pieces of a source

A source falls into literal text, placeholders and statement tags; comments vanish and raw sections are
literal text. A minus sign at a delimiter takes the blanks of the text on its side away. Where a source cannot be read
any further, its pieces end: with a tag that stops, or with a comment or a raw section that is broken.
-/

namespace Workflow.Template

inductive Piece where
  | text (s : List Char)
  | placeholder (ts : List Lexeme)
  | statement (ts : List Lexeme)
  /-- A comment or a raw section that is not closed. -/
  | broken

def leftBrace : Char := '\x7b'
def rightBrace : Char := '\x7d'

/-- Every line ends in a line feed alone. -/
def unifyLines : List Char → List Char
  | '\r' :: '\n' :: rest => '\n' :: unifyLines rest
  | '\r' :: rest => '\n' :: unifyLines rest
  | c :: rest => c :: unifyLines rest
  | [] => []

def startsTag : List Char → Bool
  | c :: d :: _ => c == leftBrace && (d == leftBrace || d == '%' || d == '#')
  | _ => false

/-- The text up to the first delimiter that opens something, and the rest. -/
def splitText : List Char → List Char × List Char
  | [] => ([], [])
  | c :: rest =>
    if startsTag (c :: rest) then ([], c :: rest)
    else
      let (text, rest) := splitText rest
      (c :: text, rest)

/-- The rest after the sign at a delimiter, and whether the sign is a minus. -/
def dropSign : List Char → Bool × List Char
  | '-' :: rest => (true, rest)
  | '+' :: rest => (false, rest)
  | rest => (false, rest)

def dropWord? (word : String) (cs : List Char) : Option (List Char) :=
  if word.toList.isPrefixOf cs then some (cs.drop word.length) else none

def placeholderEnd? : List Char → Option (List Char)
  | '-' :: c :: d :: rest => if c = rightBrace ∧ d = rightBrace then some (dropBlanks rest) else none
  | c :: d :: rest => if c = rightBrace ∧ d = rightBrace then some rest else none
  | _ => none

def statementEnd? : List Char → Option (List Char)
  | '-' :: '%' :: d :: rest => if d = rightBrace then some (dropBlanks rest) else none
  | '+' :: '%' :: d :: rest => if d = rightBrace then some rest else none
  | '%' :: d :: rest => if d = rightBrace then some rest else none
  | _ => none

def commentEnd? : List Char → Option (List Char)
  | '-' :: '#' :: d :: rest => if d = rightBrace then some (dropBlanks rest) else none
  | '#' :: d :: rest => if d = rightBrace then some rest else none
  | _ => none

def closing? (s : String) : Option String :=
  if s = "(" then some ")" else if s = "[" then some "]" else if s = "\x7b" then some "\x7d" else none

def isClosing (s : String) : Bool := s == ")" || s == "]" || s == "\x7d"

/-- The brackets open after a lexeme; none when it closes one that is not open. -/
def nest? (brackets : List String) : Lexeme → Option (List String)
  | .symbol s =>
    match closing? s with
    | some c => some (c :: brackets)
    | none =>
      if isClosing s then
        match brackets with
        | b :: rest => if b = s then some rest else none
        | [] => none
      else some brackets
  | _ => some brackets

section
variable (names : CharacterNames)

/-- The lexemes of a tag up to its end, which counts only outside brackets, and what follows the tag. They end where the
tag closes or stops. -/
def tagLexemes (ends? : List Char → Option (List Char)) :
    (fuel : Nat) → (brackets : List String) → (afterPoint : Bool) → List Char → List Lexeme × List Char
  | 0, _, _, _ => ([.stop .malformed], [])
  -- each step takes a character at least
  | fuel + 1, brackets, afterPoint, cs =>
    match if brackets = [] then ends? cs else none with
    | some rest => ([.close], rest)
    | none =>
      match cs with
      | [] => ([.stop .malformed], [])
      | c :: after =>
        if isBlank c then tagLexemes ends? fuel brackets false after
        else
          match scanLexeme? names afterPoint cs with
          | none => ([.stop .malformed], [])
          | some (.stop f, _) => ([.stop f], [])
          | some (t, rest) =>
            match nest? brackets t with
            | none => ([.stop .malformed], [])
            | some brackets =>
              let (ts, rest) := tagLexemes ends? fuel brackets (t == .symbol ".") rest
              (t :: ts, rest)

end

/-- The rest after the tag that opens a raw section, without its delimiter. -/
def rawOpen? (cs : List Char) : Option (List Char) := do
  let rest ← dropWord? "raw" (dropBlanks (dropSign cs).2)
  match dropBlanks rest with
  | '-' :: '%' :: d :: rest => if d = rightBrace then return dropBlanks rest else none
  | '%' :: d :: rest => if d = rightBrace then return rest else none
  | _ => none

/-- The tag that closes a raw section, if it stands here: whether it takes blanks before it, and what follows. -/
def rawClose? : List Char → Option (Bool × List Char)
  | c :: '%' :: cs =>
    if c = leftBrace then do
      let (strip, cs) := dropSign cs
      let rest ← dropWord? "endraw" (dropBlanks cs)
      return (strip, ← statementEnd? (dropBlanks rest))
    else none
  | _ => none

def rawText : List Char → Option (List Char × Bool × List Char)
  | [] => none
  | c :: rest =>
    match rawClose? (c :: rest) with
    | some (strip, after) => some ([], strip, after)
    | none => (rawText rest).map fun (s, strip, after) => (c :: s, strip, after)

def afterComment : List Char → Option (List Char)
  | [] => none
  | c :: rest =>
    match commentEnd? (c :: rest) with
    | some after => some after
    | none => afterComment rest

def textPiece (strip : Bool) (s : List Char) : List Piece :=
  let s := if strip then dropBlanksRight s else s
  if s = [] then [] else [.text s]

section
variable (names : CharacterNames)

/-- The pieces of a source whose lines are unified. A comment or raw section may be left open at the very end. -/
def pieces : (fuel : Nat) → List Char → List Piece
  | 0, _ => [.broken]
  | fuel + 1, cs =>
    let (text, rest) := splitText cs
    match rest with
    | _ :: d :: rest =>
      if d = leftBrace then
        let (strip, rest) := dropSign rest
        let (ts, rest) := tagLexemes names placeholderEnd? (rest.length + 1) [] false rest
        textPiece strip text ++ .placeholder ts :: pieces fuel rest
      else if d = '#' then
        let (strip, rest) := dropSign rest
        match if rest = [] then some [] else afterComment rest with
        | some rest => textPiece strip text ++ pieces fuel rest
        | none => textPiece strip text ++ [.broken]
      else
        let (strip, tag) := dropSign rest
        match rawOpen? rest with
        | some body =>
          match if body = [] then some ([], false, []) else rawText body with
          | some (raw, stripRaw, rest) => textPiece strip text ++ textPiece stripRaw raw ++ pieces fuel rest
          | none => textPiece strip text ++ [.broken]
        | none =>
          let (ts, rest) := tagLexemes names statementEnd? (tag.length + 1) [] false tag
          textPiece strip text ++ .statement ts :: pieces fuel rest
    | _ => textPiece false text

/-- The pieces of a source. -/
def piecesOf (source : String) : List Piece :=
  let cs := unifyLines source.toList
  pieces names (cs.length + 1) cs

end

end Workflow.Template
