import Workflow.Breakdown

/-!
# JSON text

Values as JSON text with non-ASCII characters escaped. Members come sorted by key or in their own
order, on one line or indented. Dates, sets and bytes, which JSON lacks, are written as their plain
text in quotes. Integers with too many digits, keys of other kinds and keys without an order have no text: `sortedJson`
breaks down at the first of them.
-/

namespace Workflow

def unitEscape (n : Nat) : List Char := '\\' :: 'u' :: hexDigits 4 n

def utf16Units (c : Char) : List Nat :=
  let n := c.toNat
  if n < 0x10000 then [n] else [0xD800 + (n - 0x10000) / 0x400, 0xDC00 + (n - 0x10000) % 0x400]

def letterEscape? (c : Char) : Option Char :=
  if c = doubleQuote ∨ c = '\\' then some c
  else if c = '\n' then some 'n'
  else if c = '\r' then some 'r'
  else if c = '\t' then some 't'
  else if c.toNat = 8 then some 'b'
  else if c.toNat = 12 then some 'f'
  else none

def jsonChar (c : Char) : List Char :=
  match letterEscape? c with
  | some e => ['\\', e]
  | none => if 32 ≤ c.toNat ∧ c.toNat < 127 then [c] else (utf16Units c).flatMap unitEscape

def jsonText (s : String) : String :=
  String.ofList (doubleQuote :: s.toList.flatMap jsonChar ++ [doubleQuote])

def jsonNumber : Binary64 → String
  | .nan => "NaN"
  | .infinite negative => if negative then "-Infinity" else "Infinity"
  | x => x.text

structure JsonStyle where
  /-- Blanks per level when every item has a line of its own. -/
  indent : Option Nat
  sortKeys : Bool

namespace JsonStyle

/-- One line, members sorted by key. -/
def sorted : JsonStyle := ⟨none, true⟩

/-- One line, members in their own order. -/
def line : JsonStyle := ⟨none, false⟩

/-- An item a line, two blanks a level, members in their own order. -/
def indented : JsonStyle := ⟨some 2, false⟩

def newline (style : JsonStyle) (level : Nat) : String :=
  match style.indent with
  | none => ""
  | some n => "\n" ++ String.ofList (List.replicate (n * level) ' ')

def enclose (style : JsonStyle) (level : Nat) (left right : String) (items : List String) : String :=
  if items = [] then left ++ right
  else
    let separator := match style.indent with
      | none => ", "
      | some _ => "," ++ style.newline (level + 1)
    left ++ style.newline (level + 1) ++ joinWith separator items ++ style.newline level ++ right

end JsonStyle

namespace Scalar

def json : Scalar → String
  | null => "null"
  | bool b => if b then "true" else "false"
  | int n => toString n
  | float x => jsonNumber x
  | s => jsonText s.plainText

def jsonKey : Scalar → String
  | text s => s
  | null => "null"
  | bool b => if b then "true" else "false"
  | float x => jsonNumber x
  | s => s.plainText

def number? : Scalar → Option Binary64
  | bool b => some (.ofInt (if b then 1 else 0))
  | int n => some (.ofInt n)
  | float x => some x
  | _ => none

/-- Whether a key sorts before another one; none where the two have no order. -/
def keyBefore? (a b : Scalar) : Option Bool :=
  -- integers are compared as such, since not all of them are numbers of the grid
  match a.keyNumber?, b.keyNumber? with
  | some m, some n => some (m ≤ n)
  | _, _ =>
    match a.number?, b.number? with
    | some x, some y => some (x.compare? y != some .gt)
    | none, none => if (Value.scalar a).kindName = (Value.scalar b).kindName then some (a.plainText ≤ b.plainText) else none
    | _, _ => none

def typeName : Scalar → String
  | date _ => "datetime.date"
  | dateTime _ => "datetime.datetime"
  | s => (Value.scalar s).kindName

/-- What is wrong with the order of keys: one has no order with the key before it. -/
def orderFault? : List Scalar → Option Breakdown
  | a :: b :: rest =>
    if (b.keyBefore? a).isNone then some (.unordered b.typeName a.typeName) else orderFault? (b :: rest)
  | _ => none

def keyFault? : Scalar → Option Breakdown
  | int n => if Workflow.isWritable n then none else some .unwritten
  | date d => some (.key (date d).typeName)
  | dateTime t => some (.key (dateTime t).typeName)
  | bytes bs => some (.key (bytes bs).typeName)
  | _ => none

end Scalar

namespace Value

abbrev WrittenMember := Scalar × String

mutual

def jsonAt (style : JsonStyle) : (level : Nat) → Value → String
  | _, scalar s => s.json
  | level, list items => style.enclose level "[" "]" (jsonItems style (level + 1) items)
  | level, tuple items => style.enclose level "[" "]" (jsonItems style (level + 1) items)
  | _, set items => jsonText (set items).display
  | level, mapping ms =>
    let written := jsonMembers style (level + 1) ms
    let written := if style.sortKeys then written.mergeSort (fun a b => (a.1.keyBefore? b.1).getD true) else written
    style.enclose level "\x7b" "\x7d" (written.map Prod.snd)

def jsonItems (style : JsonStyle) : (level : Nat) → List Value → List String
  | _, [] => []
  | level, v :: rest => jsonAt style level v :: jsonItems style level rest

def jsonMembers (style : JsonStyle) : (level : Nat) → List (Scalar × Value) → List WrittenMember
  | _, [] => []
  | level, (k, v) :: rest =>
    (k, jsonText k.jsonKey ++ ": " ++ jsonAt style level v) :: jsonMembers style level rest

end

def json (style : JsonStyle) (v : Value) : String := jsonAt style 0 v

/-! ## Breakdowns -/

mutual

/-- What keeps a value from being written with its members sorted: the first of it in writing order. -/
def jsonFault? : Value → Option Breakdown
  | scalar (.int n) => if Workflow.isWritable n then none else some .unwritten
  | scalar _ => none
  | list items => itemsFault? items
  | tuple items => itemsFault? items
  | set items => if (set items).isWritable then none else some .unwritten
  | mapping ms =>
    -- the keys are sorted before anything is written
    (Scalar.orderFault? (ms.map Prod.fst)).or
      (((memberFaults ms).mergeSort fun a b => (a.1.keyBefore? b.1).getD true).findSome? Prod.snd)

def itemsFault? : List Value → Option Breakdown
  | [] => none
  | v :: rest => (jsonFault? v).or (itemsFault? rest)

def memberFaults : Members → List (Scalar × Option Breakdown)
  | [] => []
  | (k, v) :: rest => (k, k.keyFault?.or (jsonFault? v)) :: memberFaults rest

end

/-- A value on one line, members sorted by key. -/
def sortedJson (v : Value) : Except Breakdown String :=
  match v.jsonFault? with
  | some b => .error b
  | none => .ok (v.json .sorted)

end Value

end Workflow
