import Workflow.Yaml.Lexeme

/-!
# The tokens of a text

Tokens are read one after the other. Outside brackets a column further right opens a block and a column further
left closes blocks. Where a key may start, the place is kept until a colon follows on the same line; then the
token of the key is put in at that place.
-/

namespace Workflow.Yaml

structure KeyPlace where
  /-- How many tokens were read before it. -/
  tokens : Nat
  /-- Whether nothing but a key can stand there. -/
  required : Bool
  cursor : Cursor

structure Layout where
  cursor : Cursor
  /-- How many brackets are open. -/
  depth : Nat
  /-- The column of the innermost block. -/
  indent : Int
  /-- The columns of the blocks around it. -/
  outer : List Int
  keyAllowed : Bool
  /-- The place of a key for each depth that has one. -/
  keys : List (Nat × KeyPlace)
  /-- The tokens read so far, the last one first. -/
  tokens : List Token
  count : Nat

/-- The longest text of a key whose token is put in afterwards. -/
def longestKey : Nat := 1024

namespace Layout

def start (text : List Char) : Layout := ⟨.start text, 0, -1, [], true, [], [], 0⟩

def emit (t : Token) (l : Layout) : Layout := { l with tokens := t :: l.tokens, count := l.count + 1 }

def emitAt (n : Nat) (t : Token) (l : Layout) : Layout :=
  let later := l.count - n
  { l with tokens := l.tokens.take later ++ t :: l.tokens.drop later, count := l.count + 1 }

def isFlow (l : Layout) : Bool := l.depth != 0

def column (l : Layout) : Int := l.cursor.column

def lex {α : Type} (l : Layout) (r : Lex α) : Option (α × Layout) :=
  (r.run l.cursor).map fun (a, c) => (a, { l with cursor := c })

def closeFrom (column : Int) : List Int → Layout → Layout
  | [], l => l
  | outside :: rest, l =>
    if column < l.indent then closeFrom column rest { l.emit .blockEnd with indent := outside, outer := rest } else l

def unwind (column : Int) (l : Layout) : Layout := if l.isFlow then l else closeFrom column l.outer l

def indentTo (column : Int) (l : Layout) : Option Layout :=
  if l.indent < column then some { l with indent := column, outer := l.indent :: l.outer } else none

def dropKey (l : Layout) : Option Layout :=
  if l.keys.any fun k => k.1 == l.depth && k.2.required then none
  else some { l with keys := l.keys.filter fun k => k.1 != l.depth }

def noteKey (l : Layout) : Option Layout :=
  if l.keyAllowed then do
    let l ← l.dropKey
    -- at the column of its block nothing but a key can stand
    let place : KeyPlace := ⟨l.count, !l.isFlow && l.indent == l.column, l.cursor⟩
    return { l with keys := (l.depth, place) :: l.keys }
  else some l

/-- Whether a colon can no longer make a key of a place. -/
def isStale (l : Layout) (k : KeyPlace) : Bool :=
  k.cursor.line != l.cursor.line || longestKey < l.cursor.index - k.cursor.index

def dropStale (l : Layout) : Option Layout :=
  if l.keys.any fun k => l.isStale k.2 && k.2.required then none
  else some { l with keys := l.keys.filter fun k => !l.isStale k.2 }

/-- The blanks and comments in front of a token. Outside brackets a key may start on a new line. -/
def skipBlanks : Nat → Layout → Option Layout
  | 0, _ => none
  | fuel + 1, l => do
    let (_, l) ← l.lex Lex.spacesAndComment
    let (b, l) ← l.lex Lex.lineBreak
    if b = [] then return l
    else skipBlanks fuel (if l.isFlow then l else { l with keyAllowed := true })

/-- Tokens that stand at the start of a line outside every block. -/
def outsideBlocks (l : Layout) : Option Layout := do
  let l ← (l.unwind (-1)).dropKey
  return { l with keyAllowed := false }

def documentMark (t : Token) (l : Layout) : Option Layout := do
  let l ← l.outsideBlocks
  let (_, l) ← l.lex (Lex.skip 3)
  return l.emit t

def directive (l : Layout) : Option Layout := do
  let l ← l.outsideBlocks
  let (d, l) ← l.lex Lex.directive
  return l.emit (.directive d)

def finish (l : Layout) : Option Layout := do
  let l ← l.outsideBlocks
  return l.emit .streamEnd

def openBracket (t : Token) (l : Layout) : Option Layout := do
  let l ← l.noteKey
  let (_, l) ← l.lex (Lex.skip 1)
  return { l.emit t with depth := l.depth + 1, keyAllowed := true }

def closeBracket (t : Token) (l : Layout) : Option Layout := do
  if l.depth = 0 then none
  let l ← l.dropKey
  let (_, l) ← l.lex (Lex.skip 1)
  return { l.emit t with depth := l.depth - 1, keyAllowed := false }

/-- A sign of one character behind which a key may start if `allowed`. -/
def sign (t : Token) (allowed : Bool) (l : Layout) : Option Layout := do
  let l ← { l with keyAllowed := allowed }.dropKey
  let (_, l) ← l.lex (Lex.skip 1)
  return l.emit t

/-- A sign that opens a block where none is open at its column. -/
def blockSign (opens : Token) (l : Layout) : Option Layout :=
  if l.isFlow then some l
  else if l.keyAllowed then
    match l.indentTo l.column with
    | some l => some (l.emit opens)
    | none => some l
  else none

def flowEntry (l : Layout) : Option Layout := l.sign .flowEntry true

def blockEntry (l : Layout) : Option Layout := do
  let l ← l.blockSign .blockSequence
  l.sign .blockEntry true

def key (l : Layout) : Option Layout := do
  let l ← l.blockSign .blockMapping
  l.sign .key (!l.isFlow)

/-- A colon: it makes a key of the place that was kept, or follows a key that has its sign. -/
def value (l : Layout) : Option Layout := do
  match l.keys.find? fun k => k.1 == l.depth with
  | some (_, place) =>
    let l := { l with keys := l.keys.filter fun k => k.1 != l.depth, keyAllowed := false }
    -- what was read since then is the key; a block that it opens starts in front of it
    let l := l.emitAt place.tokens .key
    let l := if l.isFlow then l else match l.indentTo place.cursor.column with
      | some l => l.emitAt place.tokens .blockMapping
      | none => l
    let (_, l) ← l.lex (Lex.skip 1)
    return l.emit .value
  | none =>
    let l ← l.blockSign .blockMapping
    l.sign .value (!l.isFlow)

def keyStart (r : Lex Token) (l : Layout) : Option Layout := do
  let l ← l.noteKey
  let (t, l) ← l.lex r
  return { l.emit t with keyAllowed := false }

def quotedScalar (double : Bool) (l : Layout) : Option Layout :=
  l.keyStart do return .scalar (String.ofList (← Lex.quotedScalar double)) false

def plainScalar (l : Layout) : Option Layout := do
  let l ← l.noteKey
  let ((text, crossed), l) ← l.lex (Lex.plain l.isFlow (l.indent + 1))
  return { l.emit (.scalar (String.ofList text) true) with keyAllowed := crossed }

def blockScalar (folded : Bool) (l : Layout) : Option Layout := do
  let l ← { l with keyAllowed := true }.dropKey
  let (text, l) ← l.lex (Lex.blockScalar folded l.indent)
  return l.emit (.scalar (String.ofList text) false)

def signs : List Char :=
  ['-', '?', ':', ',', '[', ']', '\x7b', '\x7d', '#', '&', '*', '!', '|', '>', singleQuote, doubleQuote, '%', '@',
    '\x60']

def startsPlain (flow : Bool) (c : Char) (next : Option Char) : Bool :=
  (!endsWord (some c) && !signs.contains c) ||
    -- three of the signs start a word where no blank follows
    (!endsWord next && (c == '-' || (!flow && (c == '?' || c == ':'))))

def token (l : Layout) : Option Layout := do
  match l.cursor.rest with
  | [] => l.finish
  | c :: more =>
    let next := more.head?
    let (separator, _) ← l.lex Lex.atSeparator
    let atStart := l.cursor.column = 0
    if c = '%' ∧ atStart then l.directive
    else if atStart ∧ separator then l.documentMark (if c = '-' then .documentStart else .documentEnd)
    else if c = '[' then l.openBracket .flowSequence
    else if c = '\x7b' then l.openBracket .flowMapping
    else if c = ']' then l.closeBracket .flowSequenceEnd
    else if c = '\x7d' then l.closeBracket .flowMappingEnd
    else if c = ',' then l.flowEntry
    -- within brackets a question mark and a colon need no blank behind them
    else if c = '-' ∧ endsWord next then l.blockEntry
    else if c = '?' ∧ (l.isFlow ∨ endsWord next) then l.key
    else if c = ':' ∧ (l.isFlow ∨ endsWord next) then l.value
    else if c = '*' then l.keyStart do return .reference (← Lex.anchorName)
    else if c = '&' then l.keyStart do return .anchor (← Lex.anchorName)
    else if c = '!' then l.keyStart Lex.tag
    else if c = '|' ∧ !l.isFlow then l.blockScalar false
    else if c = '>' ∧ !l.isFlow then l.blockScalar true
    else if c = singleQuote then l.quotedScalar false
    else if c = doubleQuote then l.quotedScalar true
    else if startsPlain l.isFlow c next then l.plainScalar
    else none

def run : Nat → Layout → Option (List Token)
  | 0, _ => none
  | fuel + 1, l => do
    let l ← l.skipBlanks (l.cursor.rest.length + 1)
    let l ← l.dropStale
    let l := l.unwind l.column
    let l ← l.token
    if l.tokens.head? = some .streamEnd then return l.tokens.reverse else run fuel l

end Layout

def tokens? (text : List Char) : Option (List Token) :=
  if text.all isDocumentChar then
    let text := if text.head? = some byteOrderMark then text.tail else text
    -- a round takes a character at least, but for the one at the end
    (Layout.start text).run (text.length + 2)
  else none

end Workflow.Yaml
