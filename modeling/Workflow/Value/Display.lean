import Workflow.Value

/-!
# The text of a value

`Value.display` shows a value inside a message, with its texts in quotes. `Value.plainText` is the text
it stands for by itself: a text as it is, everything else as displayed. A path leads from a value to a part of it:
placeholders write one with points between its steps, and `locationText` is the form that diagnostics use, with positions
in brackets.
-/

namespace Workflow

def joinWith (separator : String) (parts : List String) : String := separator.intercalate parts

def byteChars (quote : Char) (b : UInt8) : List Char :=
  let c := Char.ofNat b.toNat
  if c = quote ∨ c = '\\' then ['\\', c]
  else if c = '\t' then ['\\', 't']
  else if c = '\n' then ['\\', 'n']
  else if c = '\r' then ['\\', 'r']
  else if 32 ≤ b.toNat ∧ b.toNat < 127 then [c]
  else '\\' :: 'x' :: hexDigits 2 b.toNat

def quotedBytes (bs : List UInt8) : String :=
  let quote := quoteFor (bs.map fun b => Char.ofNat b.toNat)
  String.ofList ('b' :: quote :: bs.flatMap (byteChars quote) ++ [quote])

def Date.display (d : Date) : String := s!"datetime.date({d.year}, {d.month}, {d.day})"

def spanDisplay (seconds : Int) : String :=
  let days := Int.fdiv seconds 86400
  let rest := Int.fmod seconds 86400
  let parts := (if days = 0 then [] else [s!"days={days}"]) ++ (if rest = 0 then [] else [s!"seconds={rest}"])
  "datetime.timedelta(" ++ (if parts = [] then "0" else joinWith ", " parts) ++ ")"

def DateTime.display (t : DateTime) : String :=
  let fields := [t.date.year, t.date.month, t.date.day, t.hour, t.minute] ++
    (if t.micro ≠ 0 then [t.second, t.micro] else if t.second ≠ 0 then [t.second] else [])
  let zone := match t.offset with
    | none => []
    | some 0 => ["tzinfo=datetime.timezone.utc"]
    | some s => [s!"tzinfo=datetime.timezone({spanDisplay s})"]
  "datetime.datetime(" ++ joinWith ", " (fields.map toString ++ zone) ++ ")"

def Scalar.display : Scalar → String
  | null => "None"
  | bool b => if b then "True" else "False"
  | int n => toString n
  | float x => x.text
  | text s => quoted s
  | date d => d.display
  | dateTime t => t.display
  | bytes bs => quotedBytes bs

def Scalar.plainText : Scalar → String
  | text s => s
  | date d => d.iso
  | dateTime t => t.isoWith ' '
  | s => s.display

namespace Value

mutual

def display : Value → String
  | scalar s => s.display
  | list items => "[" ++ joinWith ", " (displayAll items) ++ "]"
  | tuple [v] => "(" ++ display v ++ ",)"
  | tuple items => "(" ++ joinWith ", " (displayAll items) ++ ")"
  | set [] => "set()"
  | set items => "\x7b" ++ joinWith ", " (displayAll items) ++ "\x7d"
  | mapping ms => "\x7b" ++ joinWith ", " (displayMembers ms) ++ "\x7d"

def displayAll : List Value → List String
  | [] => []
  | v :: rest => display v :: displayAll rest

def displayMembers : List (Scalar × Value) → List String
  | [] => []
  | (k, v) :: rest => (k.display ++ ": " ++ display v) :: displayMembers rest

end

def plainText : Value → String
  | scalar s => s.plainText
  | v => v.display

end Value

def displayTexts (ts : List String) : String := "[" ++ joinWith ", " (ts.map quoted) ++ "]"

/-! ## Paths -/

/-- A step of a path: a key of a mapping or a position in a sequence. -/
inductive PathStep where
  | key (s : String)
  | index (n : Int)
  deriving DecidableEq

def PathStep.text : PathStep → String
  | key s => s
  | index n => toString n

/-- A path with points between its steps. -/
def dottedPath (path : List PathStep) : String := joinWith "." (path.map PathStep.text)

/-- Where a document is at fault, from its root. -/
abbrev Location := List PathStep

def stepsText : List PathStep → String
  | [] => ""
  | .key s :: rest => "." ++ s ++ stepsText rest
  | .index n :: rest => "[" ++ toString n ++ "]" ++ stepsText rest

def locationText : Location → String
  | [] => "$"
  | .key s :: rest => s ++ stepsText rest
  | path => stepsText path

end Workflow
