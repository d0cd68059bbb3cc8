import Workflow.Value
import Workflow.Number.Binary64
import Workflow.Shape.Fault
import Workflow.Shape.Numeral

/-!
# Shapes

A shape reads a value as something of a type and writes such a thing as a value. Reading is lenient where
the meaning is plain (a numeral for a number) and reports every fault it finds, in the order of the
fields; unknown members come last.
-/

namespace Workflow

abbrev ShapeResult (α : Type) := Except (List ShapeFault) α

structure Shape (α : Type) where
  read : Value → ShapeResult α
  write : α → Value

/-- The faults of two parts are all reported. -/
def ShapeResult.apply {α β : Type} : ShapeResult (α → β) → ShapeResult α → ShapeResult β
  | .ok f, .ok a => .ok (f a)
  | .ok _, .error fs => .error fs
  | .error fs, .ok _ => .error fs
  | .error fs, .error gs => .error (fs ++ gs)

def ShapeResult.under {α : Type} (s : PathStep) (r : ShapeResult α) : ShapeResult α :=
  r.mapError (List.map (ShapeFault.under s))

def refuse {α : Type} (c : ShapeCause) : ShapeResult α := .error [⟨[], c⟩]

def accept {α : Type} (c : ShapeCause) : Option α → ShapeResult α
  | some a => .ok a
  | none => refuse c

namespace Shape

/-! ## Scalars -/

def textOfBytes? (bs : List UInt8) : Option String := String.fromUTF8? ⟨bs.toArray⟩

def text : Shape String where
  read
    | .scalar (.text s) => .ok s
    | .scalar (.bytes bs) => accept .textEncoding (textOfBytes? bs)
    | _ => refuse .text
  write := Value.text

def filledText : Shape String where
  read v :=
    match text.read v with
    | .ok s => if s = "" then refuse .textEmpty else .ok s
    | .error fs => .error fs
  write := Value.text

/-- The integers that a float can stand for. -/
def isWordSized (n : Int) : Bool := -wordBound < n && n < wordBound

def boolOfInt (n : Int) : ShapeResult Bool :=
  if n = 0 then .ok false else if n = 1 then .ok true else refuse .boolText

def bool : Shape Bool where
  read
    | .scalar (.bool b) => .ok b
    | .scalar (.int n) => boolOfInt n
    | .scalar (.float x) =>
      match x.toInt? with
      | some n => if isWordSized n then boolOfInt n else refuse .bool
      | none => refuse .bool
    | .scalar (.text s) => accept .boolText (truthWord? s)
    | .scalar (.bytes bs) => accept .boolText ((textOfBytes? bs).bind truthWord?)
    | _ => refuse .bool
  write := Value.bool

def intOfText (s : String) : ShapeResult Int :=
  if longestInteger < s.utf8ByteSize then refuse .intSize else accept .intText (integerText? s)

def int : Shape Int where
  read
    | .scalar (.int n) => .ok n
    | .scalar (.bool b) => .ok (if b then 1 else 0)
    | .scalar (.float x) =>
      if x.isFinite then
        match x.toInt? with
        | some n => if isWordSized n then .ok n else refuse .intSize
        | none => refuse .intFraction
      else refuse .notFinite
    | .scalar (.text s) => intOfText s
    | .scalar (.bytes bs) =>
      match textOfBytes? bs with
      | some s => intOfText s
      | none => refuse .intText
    | _ => refuse .int
  write := Value.int

/-- A number, infinite or undefined ones included. -/
def anyFloat : Shape Binary64 where
  read
    | .scalar (.float x) => .ok x
    | .scalar (.int n) => if (Binary64.ofInt n).isFinite then .ok (.ofInt n) else refuse .float
    | .scalar (.bool b) => .ok (.ofInt (if b then 1 else 0))
    | .scalar (.text s) => accept .floatText (floatText? s)
    | .scalar (.bytes bs) => accept .floatText ((textOfBytes? bs).bind floatText?)
    | _ => refuse .float
  write := Value.float

def filtered {α : Type} (s : Shape α) (fault? : α → Option ShapeCause) : Shape α where
  read v :=
    match s.read v with
    | .ok a =>
      match fault? a with
      | none => .ok a
      | some c => refuse c
    | .error fs => .error fs
  write := s.write

def float : Shape Binary64 := anyFloat.filtered fun x => if x.isFinite then none else some .notFinite

def intAbove (bound : Int) : Shape Int := int.filtered fun n => if bound < n then none else some (.notAbove bound)

def intFrom (bound : Int) : Shape Int := int.filtered fun n => if bound ≤ n then none else some (.below bound)

def checked {α : Type} (s : Shape α) (breach? : α → Option Breach) : Shape α :=
  s.filtered fun a => (breach? a).map .breach

def choice {α : Type} (all : List α) (name : α → String) : Shape α where
  read
    | .scalar (.text s) => accept (.choice (all.map name)) (all.find? fun a => name a == s)
    | _ => refuse (.choice (all.map name))
  write a := .text (name a)

def oneOf (names : List String) : Shape String := choice names id

/-- A scalar that is kept as it is written. -/
def literal : Shape Scalar where
  read
    | .scalar .null => .ok .null
    | v =>
      -- each type takes the scalars of its own kind, and only bytes are converted
      match v, text.read v, float.read v with
      | .scalar (.bytes _), .ok s, _ => .ok (.text s)
      | .scalar (.text s), _, _ => .ok (.text s)
      | .scalar (.int n), _, _ => .ok (.int n)
      | .scalar (.bool b), _, _ => .ok (.bool b)
      | .scalar (.float _), _, .ok x => .ok (.float x)
      | v, t, x => .error <|
        faults "str" t ++ faults "int" (int.read v) ++ faults "float" x ++ faults "bool" (bool.read v)
  write := Value.scalar
where
  faults {α : Type} (name : String) : ShapeResult α → List ShapeFault
    | .ok _ => []
    | .error fs => fs.map (ShapeFault.under (.key name))

/-! ## Collections -/

def nullable {α : Type} (s : Shape α) : Shape (Option α) where
  read
    | .scalar .null => .ok none
    | v => (s.read v).map some
  write
    | some a => s.write a
    | none => .null

def itemsOf? : Value → Option (List Value)
  | .list vs => some vs
  | .tuple vs => some vs
  | .set vs => some vs
  | _ => none

def readItems {α : Type} (s : Shape α) (n : Nat) : List Value → ShapeResult (List α)
  | [] => .ok []
  | v :: rest => ShapeResult.apply (((s.read v).under (.index n)).map List.cons) (readItems s (n + 1) rest)

def items {α : Type} (kind : SequenceKind) (s : Shape α) : Shape (List α) where
  read v :=
    match itemsOf? v with
    | some vs => readItems s 0 vs
    | none => refuse (.sequence kind)
  write as := .list (as.map s.write)

def tuple {α : Type} (s : Shape α) : Shape (List α) := items .tuple s

/-- A sequence of at least one item. Items that are refused do not count. -/
def filledTuple {α : Type} (s : Shape α) : Shape (List α) where
  read v :=
    match itemsOf? v, (tuple s).read v with
    | some _, .ok [] => refuse .sequenceEmpty
    | some vs, .error fs =>
      -- a sequence whose items are all refused is empty besides
      if vs.all fun v => !(s.read v).isOk then .error (fs ++ [⟨[], .sequenceEmpty⟩]) else .error fs
    | _, r => r
  write := (tuple s).write

def stepOfKey : Scalar → PathStep
  | .text s => .key s
  | .bool b => .index (if b then 1 else 0)
  | .int n => if fitsWord n then .index n else .key (toString n)
  | k => .key k.display

def readEntries {α : Type} (s : Shape α) : Members → ShapeResult (List (String × α))
  | [] => .ok []
  | (k, v) :: rest =>
    let key := ((text.read (.scalar k)).under (.key "[key]")).under (stepOfKey k)
    let entry := ShapeResult.apply (key.map Prod.mk) ((s.read v).under (stepOfKey k))
    ShapeResult.apply (entry.map List.cons) (readEntries s rest)

/-- A mapping from texts, in the order in which it is written. Different keys can be the same text. -/
def entries {α : Type} (s : Shape α) : Shape (List (String × α)) where
  read
    | .mapping ms => (readEntries s ms).map Index.ofEntries
    | _ => refuse .dictionary
  write es := .mapping (es.map fun e => (.text e.1, s.write e.2))

def filledEntries {α : Type} (s : Shape α) : Shape (List (String × α)) :=
  (entries s).filtered fun es => if es.isEmpty then some .dictionaryEmpty else none

/-! ## Nodes -/

def prepared {α : Type} (prepare : Value → Value) (s : Shape α) : Shape α where
  read v := s.read (prepare v)
  write := s.write

end Shape

/-- Some fields of a node: what reading them gives, and the members that stand for them. -/
structure Fields (ρ α : Type) where
  /-- The spellings of each key; the first is the one that is written. -/
  keys : List (List String)
  read : Members → ShapeResult α
  write : ρ → Members

namespace Fields

variable {ρ α β : Type}

def spelling? (ms : Members) (spellings : List String) : Option String :=
  spellings.find? fun k => (ms.get? k).isSome

def of (a : α) : Fields ρ α := ⟨[], fun _ => .ok a, fun _ => []⟩

def readMember (spellings : List String) (s : Shape α) (fallback : Option α) (ms : Members) : ShapeResult α :=
  match spelling? ms spellings with
  | some k =>
    match ms.get? k with
    | some v => (s.read v).under (.key k)
    -- not reached: the spelling was found among the members
    | none => refuse .missing
  | none =>
    match fallback with
    | some a => .ok a
    | none => (refuse .missing).under (.key (spellings.headD ""))

def spelled (fs : Fields ρ (α → β)) (spellings : List String) (s : Shape α) (fallback : Option α) (get : ρ → α) :
    Fields ρ β where
  keys := fs.keys ++ [spellings]
  read ms := ShapeResult.apply (fs.read ms) (readMember spellings s fallback ms)
  write r := fs.write r ++ [(.text (spellings.headD ""), s.write (get r))]

def field (fs : Fields ρ (α → β)) (key : String) (s : Shape α) (get : ρ → α) : Fields ρ β :=
  fs.spelled [key] s none get

def fieldOr (fs : Fields ρ (α → β)) (key : String) (s : Shape α) (otherwise : α) (get : ρ → α) : Fields ρ β :=
  fs.spelled [key] s (some otherwise) get

def constant (fs : Fields ρ α) (key text : String) : Fields ρ α where
  keys := fs.keys ++ [[key]]
  read ms :=
    ShapeResult.apply ((fs.read ms).map fun a _ => a) (readMember [key] (Shape.oneOf [text]) none ms)
  write r := fs.write r ++ [(.text key, .text text)]

/-- The fields of a part whose members stand in the node itself. -/
def part {σ : Type} (fs : Fields ρ (α → β)) (inner : Fields σ α) (get : ρ → σ) : Fields ρ β where
  keys := fs.keys ++ inner.keys
  read ms := ShapeResult.apply (fs.read ms) (inner.read ms)
  write r := fs.write r ++ inner.write (get r)

def strangers (keys : List (List String)) (ms : Members) : List ShapeFault :=
  -- of several spellings of a key only the one that is read is known
  let known := keys.filterMap (spelling? ms)
  ms.filterMap fun m =>
    match m.1 with
    | .text k => if known.contains k then none else some ⟨[.key k], .unknown⟩
    | k => some ⟨[Shape.stepOfKey k], .key⟩

end Fields

namespace Shape

variable {α : Type}

def readNode (fs : Fields α α) (ms : Members) : ShapeResult α :=
  ShapeResult.apply ((fs.read ms).map fun a _ => a)
    (match Fields.strangers fs.keys ms with
    | [] => .ok ()
    | faults => .error faults)

/-- A mapping with the given fields and no others. -/
def node (name : String) (fs : Fields α α) : Shape α where
  read
    | .mapping ms => readNode fs ms
    | _ => refuse (.node name)
  write a := .mapping (fs.write a)

/-- A node whose member `field` tells which of several shapes it has. -/
def readTagged (field : String) (branches : List (String × (Value → ShapeResult α))) (v : Value) : ShapeResult α :=
  match v with
  | .mapping ms =>
    match Members.get? ms field with
    | none => refuse (.noTag field)
    | some t =>
      match t.asText?.bind fun s => branches.find? fun b => b.1 == s with
      | some (tag, read) => (read v).under (.key tag)
      | none => refuse (.tag field t.plainText (branches.map Prod.fst))
  | _ => refuse .union

end Shape

end Workflow
