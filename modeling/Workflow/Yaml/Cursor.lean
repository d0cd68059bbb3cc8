import Workflow.Text.Digit

/-!
# A cursor over a document

What is left of a text, with the line and the column that the cursor has reached. Reading is a step from
cursor to cursor that may fail; why a document is malformed is not told.
-/

namespace Workflow.Yaml

def isBreak (c : Char) : Bool := ['\n', '\r', '\x85', '\u2028', '\u2029'].contains c

def endsWord : Option Char → Bool
  | some c => c == ' ' || c == '\t' || isBreak c
  | none => true

def endsLine : Option Char → Bool
  | some c => isBreak c
  | none => true

/-- Whether a line or a word ends here; a tab does not count. -/
def endsField : Option Char → Bool
  | some c => c == ' ' || isBreak c
  | none => true

def isNameChar (c : Char) : Bool := c.isAlphanum || c == '-' || c == '_'

def byteOrderMark : Char := '\ufeff'

def isDocumentChar (c : Char) : Bool :=
  let n := c.toNat
  n == 9 || n == 10 || n == 13 || (32 ≤ n && n ≤ 126) || n == 0x85 || (0xa0 ≤ n && n ≤ 0xfffd) || 0x10000 ≤ n

structure Cursor where
  rest : List Char
  /-- How many characters have been read. -/
  index : Nat
  line : Nat
  column : Nat

namespace Cursor

def start (text : List Char) : Cursor := ⟨text, 0, 0, 0⟩

def step (c : Cursor) : Cursor :=
  match c.rest with
  | [] => c
  | '\r' :: '\n' :: rest => ⟨'\n' :: rest, c.index + 1, c.line, c.column + 1⟩
  | d :: rest =>
    if isBreak d then ⟨rest, c.index + 1, c.line + 1, 0⟩
    else ⟨rest, c.index + 1, c.line, if d = byteOrderMark then c.column else c.column + 1⟩

def skip (c : Cursor) : Nat → Cursor
  | 0 => c
  | n + 1 => c.step.skip n

end Cursor

abbrev Lex := StateT Cursor Option

namespace Lex

def rest : Lex (List Char) := do return (← get).rest

def peek : Lex (Option Char) := do return (← rest).head?

def column : Lex Nat := do return (← get).column

def skip (n : Nat) : Lex Unit := modify fun c => c.skip n

def takeRun (p : Char → Bool) : Lex (List Char) := do
  let cs := (← rest).takeWhile p
  skip cs.length
  return cs

def check (b : Bool) : Lex Unit := if b then pure () else failure

/-- A line break, which counts as a line feed if it is not one of its own kind; nothing elsewhere. -/
def lineBreak : Lex (List Char) := do
  match ← rest with
  | '\r' :: '\n' :: _ => skip 2; return ['\n']
  | c :: _ =>
    if c = '\u2028' ∨ c = '\u2029' then skip 1; return [c]
    else if isBreak c then skip 1; return ['\n']
    else return []
  | [] => return []

def spacesAndComment : Lex Unit := do
  let _ ← takeRun (· == ' ')
  if (← peek) = some '#' then
    let _ ← takeRun fun c => !isBreak c

def blankRest : Lex Unit := do
  spacesAndComment
  check (endsLine (← peek))
  let _ ← lineBreak

def atSeparator : Lex Bool := do
  match ← rest with
  | '-' :: '-' :: '-' :: more => return endsWord more.head?
  | '.' :: '.' :: '.' :: more => return endsWord more.head?
  | _ => return false

def bound : Lex Nat := do return (← rest).length + 1

end Lex

end Workflow.Yaml
