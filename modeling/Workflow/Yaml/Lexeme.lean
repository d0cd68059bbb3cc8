import Workflow.Text.Quoted
import Workflow.Yaml.Cursor

/-!
# Tokens, and how those with text are written

Indentation shows as tokens that open and close block collections, and a key that is only known by the colon
behind it has its token in front of it. Text is carried by plain, quoted and block scalars with the folding of their
lines, and by names of anchors, tags and directives.
-/

namespace Workflow.Yaml

inductive Directive where
  | version (major : Nat)
  | tag (handle start : String)
  | other
  deriving DecidableEq

inductive Token where
  | directive (d : Directive)
  | documentStart | documentEnd | streamEnd
  | blockSequence | blockMapping | blockEnd
  | flowSequence | flowSequenceEnd | flowMapping | flowMappingEnd
  | blockEntry | flowEntry | key | value
  | reference (name : String)
  | anchor (name : String)
  | tag (handle : Option String) (suffix : String)
  | scalar (text : String) (plain : Bool)
  deriving DecidableEq

namespace Lex

/-! ## Plain scalars -/

/-- The characters of a plain scalar up to a place where it may end. -/
def plainRun (flow : Bool) : List Char → List Char
  | [] => []
  | c :: rest =>
    let colonEnds := c = ':' ∧ (endsWord rest.head? ∨ (flow ∧ (rest.head?.any [',', '[', ']', '{', '}'].contains)))
    if endsWord (some c) ∨ colonEnds ∨ (flow ∧ [',', '?', '[', ']', '{', '}'].contains c) then []
    else c :: plainRun flow rest

/-- Spaces and line breaks up to the next text. None when a document separator follows. -/
def breakRun : Nat → List Char → Lex (Option (List Char))
  | 0, _ => failure
  | fuel + 1, breaks => do
    match ← peek with
    | some ' ' => skip 1; breakRun fuel breaks
    | some c =>
      if isBreak c then
        let b ← lineBreak
        if ← atSeparator then return none else breakRun fuel (breaks ++ b)
      else return some breaks
    | none => return some breaks

/-- A line break and the blank lines behind it as text: a lone line feed is a space. -/
def foldBreaks (first breaks : List Char) : List Char :=
  (if first = ['\n'] then (if breaks = [] then [' '] else []) else first) ++ breaks

/-- What stands for the blanks between two runs of a plain scalar, and whether a line ended. -/
def plainSpaces : Lex (List Char × Bool) := do
  let spaces ← takeRun (· == ' ')
  if (← peek).any isBreak then
    let first ← lineBreak
    if ← atSeparator then return ([], true)
    match ← breakRun (← bound) [] with
    | none => return ([], true)
    | some breaks => return (foldBreaks first breaks, true)
  else return (spaces, false)

def plainFrom (flow : Bool) (indent : Int) : Nat → List Char → List Char → Bool → Lex (List Char × Bool)
  | 0, _, _, _ => failure
  | fuel + 1, text, spaces, crossed => do
    if (← peek) = some '#' then return (text, crossed)
    let chunk := plainRun flow (← rest)
    if chunk = [] then return (text, crossed)
    skip chunk.length
    let text := text ++ spaces ++ chunk
    let (spaces, crossed) ← plainSpaces
    if spaces = [] ∨ (← peek) = some '#' ∨ (flow = false ∧ ((← column) : Int) < indent) then return (text, crossed)
    plainFrom flow indent fuel text spaces crossed

def plain (flow : Bool) (indent : Int) : Lex (List Char × Bool) := do plainFrom flow indent (← bound) [] [] false

/-! ## Quoted scalars -/

def escapeChar? : Char → Option Char
  | '0' => some '\x00'
  | 'a' => some '\x07'
  | 'b' => some '\x08'
  | 't' => some '\t'
  | '\t' => some '\t'
  | 'n' => some '\n'
  | 'v' => some '\x0b'
  | 'f' => some '\x0c'
  | 'r' => some '\r'
  | 'e' => some '\x1b'
  | ' ' => some ' '
  | '\\' => some '\\'
  | '/' => some '/'
  | 'N' => some '\x85'
  | '_' => some '\xa0'
  | 'L' => some '\u2028'
  | 'P' => some '\u2029'
  | c => if c = doubleQuote then some c else none

def escapeWidth? : Char → Option Nat
  | 'x' => some 2
  | 'u' => some 4
  | 'U' => some 8
  | _ => none

def hexDigit? (c : Char) : Option Nat :=
  if c.isDigit then some (c.toNat - 48)
  else if 'a' ≤ c ∧ c ≤ 'f' then some (c.toNat - 87)
  else if 'A' ≤ c ∧ c ≤ 'F' then some (c.toNat - 55)
  else none

def hexNumeral? (cs : List Char) : Option Nat :=
  cs.foldlM (fun n c => (hexDigit? c).map (16 * n + ·)) 0

def hexRun (width : Nat) : Lex Nat := do
  let cs := (← rest).take width
  check (cs.length == width)
  skip width
  match hexNumeral? cs with
  | some n => return n
  | none => failure

def isLowSurrogate (n : Nat) : Bool := 0xdc00 ≤ n && n < 0xe000

/-- The character of a numeric escape. The first half of a pair is joined with the second. -/
def escapedCode (n : Nat) : Lex Char := do
  if 0xd800 ≤ n ∧ n < 0xdc00 then
    match ← rest with
    | '\\' :: 'u' :: more =>
      match hexNumeral? (more.take 4) with
      | some low =>
        if isLowSurrogate low then
          skip 6
          return Char.ofNat (0x10000 + (n - 0xd800) * 0x400 + (low - 0xdc00))
        else return '\ufffd'
      | none => return '\ufffd'
    | _ => return '\ufffd'
  else if isLowSurrogate n then return '\ufffd'
  else if n < 0x110000 then return Char.ofNat n
  else failure

/-- The line breaks behind the first in a quoted scalar; a document separator must not stand there. -/
def quotedBreaks : Nat → List Char → Lex (List Char)
  | 0, _ => failure
  | fuel + 1, breaks => do
    if ← atSeparator then failure
    let _ ← takeRun fun c => c == ' ' || c == '\t'
    if (← peek).any isBreak then
      let b ← lineBreak
      quotedBreaks fuel (breaks ++ b)
    else return breaks

def quotedSpaces : Lex (List Char) := do
  let spaces ← takeRun fun c => c == ' ' || c == '\t'
  match ← peek with
  | none => failure
  | some c =>
    if isBreak c then
      let first ← lineBreak
      return foldBreaks first (← quotedBreaks (← bound) [])
    else return spaces

def escape : Lex (List Char) := do
  match ← peek with
  | none => failure
  | some c =>
    match escapeChar? c, escapeWidth? c with
    | some d, _ => skip 1; return [d]
    | none, some width =>
      skip 1
      return [← escapedCode (← hexRun width)]
    | none, none =>
      if isBreak c then
        let _ ← lineBreak
        quotedBreaks (← bound) []
      else failure

def quotedFrom (double : Bool) : Nat → List Char → Lex (List Char)
  | 0, _ => failure
  | fuel + 1, text => do
    let quote := if double then doubleQuote else singleQuote
    match ← rest with
    | [] => failure
    | c :: more =>
      if c = quote then
        if double = false ∧ more.head? = some quote then
          skip 2
          quotedFrom double fuel (text ++ [quote])
        else
          skip 1
          return text
      else if double ∧ c = '\\' then
        skip 1
        let e ← escape
        quotedFrom double fuel (text ++ e)
      else if endsWord (some c) then
        let s ← quotedSpaces
        quotedFrom double fuel (text ++ s)
      else
        let chunk ← takeRun fun d => d != quote && d != '\\' && !endsWord (some d)
        if chunk = [] then
          skip 1
          quotedFrom double fuel (text ++ [c])
        else quotedFrom double fuel (text ++ chunk)

def quotedScalar (double : Bool) : Lex (List Char) := do
  skip 1
  quotedFrom double (← bound) []

/-! ## Block scalars -/

/-- What becomes of the line breaks at the end of a block scalar. -/
inductive Chomping where
  | strip | clip | keep
  deriving DecidableEq

def chomping? : Option Char → Option Chomping
  | some '+' => some .keep
  | some '-' => some .strip
  | _ => none

def chompingMark : Lex (Option Chomping) := do
  let c := chomping? (← peek)
  if c.isSome then skip 1
  return c

def indentMark : Lex (Option Nat) := do
  match ← peek with
  | some c =>
    if c.isDigit then
      check (c != '0')
      skip 1
      return some (c.toNat - 48)
    else return none
  | none => return none

def blockMarks : Lex (Chomping × Option Nat) := do
  let before ← chompingMark
  let indent ← indentMark
  let after ← if before.isNone && indent.isSome then chompingMark else pure none
  check (endsField (← peek))
  return ((before.or after).getD .clip, indent)

/-- Blank lines in front of a block scalar whose indentation is not given, and the widest of them. -/
def blockIndentation : Nat → List Char → Nat → Lex (List Char × Nat)
  | 0, _, _ => failure
  | fuel + 1, breaks, widest => do
    match ← peek with
    | some ' ' => skip 1; blockIndentation fuel breaks (max widest (← column))
    | some c =>
      if isBreak c then
        let b ← lineBreak
        blockIndentation fuel (breaks ++ b) widest
      else return (breaks, widest)
    | none => return (breaks, widest)

def spacesTo (indent : Nat) : Lex Unit := do
  let spaces := (← rest).takeWhile (· == ' ')
  skip (min spaces.length (indent - (← column)))

def blockBreaks (indent : Nat) : Nat → List Char → Lex (List Char)
  | 0, _ => failure
  | fuel + 1, breaks => do
    spacesTo indent
    if (← peek).any isBreak then
      let b ← lineBreak
      blockBreaks indent fuel (breaks ++ b)
    else return breaks

def isIndented : Option Char → Bool
  | some c => c == ' ' || c == '\t'
  | none => false

/-- The lines of a block scalar: its text, the break behind its last line and the blank lines after that. -/
def blockLines (folded : Bool) (indent : Nat) : Nat → List Char → List Char → List Char →
    Lex (List Char × List Char × List Char)
  | 0, _, _, _ => failure
  | fuel + 1, text, last, breaks => do
    if (← column) = indent ∧ (← peek).isSome then
      let flush := !isIndented (← peek)
      let line ← takeRun fun c => !isBreak c
      let text := text ++ breaks ++ line
      let last ← lineBreak
      let breaks ← blockBreaks indent (← bound) []
      if (← column) = indent ∧ (← peek).isSome then
        let between :=
          if folded ∧ last = ['\n'] ∧ flush ∧ isIndented (← peek) = false then
            (if breaks = [] then [' '] else [])
          else last
        blockLines folded indent fuel (text ++ between) last breaks
      else return (text, last, breaks)
    else return (text, last, breaks)

def blockScalar (folded : Bool) (outer : Int) : Lex (List Char) := do
  skip 1
  let (chomping, given) ← blockMarks
  blankRest
  let least := (max (outer + 1) 1).toNat
  let (breaks, indent) ← match given with
    | some n => do
      let indent := least + n - 1
      pure (← blockBreaks indent (← bound) [], indent)
    | none => do
      let (breaks, widest) ← blockIndentation (← bound) [] 0
      pure (breaks, max least widest)
  let (text, last, breaks) ← blockLines folded indent (← bound) [] [] breaks
  return text ++ (if chomping = .strip then [] else last) ++ (if chomping = .keep then breaks else [])

/-! ## Names and tags -/

def anchorName : Lex String := do
  skip 1
  let name ← takeRun isNameChar
  check (!name.isEmpty)
  let next ← peek
  check (endsWord next || next.any ['?', ':', ',', ']', '}', '%', '@', '\x60'].contains)
  return String.ofList name

def isUriChar (c : Char) : Bool :=
  c.isAlphanum || ['-', ';', '/', '?', ':', '@', '&', '=', '+', '$', ',', '_', '.', '!', '~', '*', singleQuote,
    '(', ')', '[', ']'].contains c

def escapedBytes : Nat → List UInt8 → Lex (List UInt8)
  | 0, _ => failure
  | fuel + 1, bytes => do
    if (← peek) = some '%' then
      skip 1
      let n ← hexRun 2
      escapedBytes fuel (bytes ++ [n.toUInt8])
    else return bytes

def uriFrom : Nat → List Char → Lex (List Char)
  | 0, _ => failure
  | fuel + 1, text => do
    match ← peek with
    | some '%' =>
      let bytes ← escapedBytes (← bound) []
      match String.fromUTF8? ⟨bytes.toArray⟩ with
      | some s => uriFrom fuel (text ++ s.toList)
      | none => failure
    | some c =>
      if isUriChar c then
        let chunk ← takeRun isUriChar
        uriFrom fuel (text ++ chunk)
      else return text
    | none => return text

def uri : Lex String := do
  let text ← uriFrom (← bound) []
  check (!text.isEmpty)
  return String.ofList text

def tagHandle : Lex String := do
  check ((← peek) = some '!')
  skip 1
  if (← peek) = some ' ' then return "!"
  let name ← takeRun isNameChar
  check ((← peek) = some '!')
  skip 1
  return String.ofList ('!' :: name ++ ['!'])

def tag : Lex Token := do
  let behind := (← rest).drop 1
  let t ← match behind with
    | '<' :: _ => do
      skip 2
      let suffix ← uri
      check ((← peek) = some '>')
      skip 1
      pure (Token.tag none suffix)
    | _ =>
      if endsWord behind.head? then do
        skip 1
        pure (Token.tag none "!")
      else if (behind.takeWhile fun c => !endsField (some c)).contains '!' then do
        let handle ← tagHandle
        pure (Token.tag (some handle) (← uri))
      else do
        skip 1
        pure (Token.tag (some "!") (← uri))
  check (endsField (← peek))
  return t

/-! ## Directives -/

def directiveNumber : Lex Nat := do
  let digits ← takeRun Char.isDigit
  check (!digits.isEmpty)
  return decimalNumeral digits

def versionDirective : Lex Directive := do
  let _ ← takeRun (· == ' ')
  let major ← directiveNumber
  check ((← peek) = some '.')
  skip 1
  let _ ← directiveNumber
  check (endsField (← peek))
  return .version major

def tagDirective : Lex Directive := do
  let _ ← takeRun (· == ' ')
  let handle ← tagHandle
  check ((← peek) = some ' ')
  let _ ← takeRun (· == ' ')
  let start ← uri
  check (endsField (← peek))
  return .tag handle start

def directive : Lex Directive := do
  skip 1
  let name ← takeRun isNameChar
  check (!name.isEmpty)
  check (endsField (← peek))
  let d ← match String.ofList name with
    | "YAML" => versionDirective
    | "TAG" => tagDirective
    | _ => do
      let _ ← takeRun fun c => !isBreak c
      pure .other
  blankRest
  return d

end Lex

end Workflow.Yaml
