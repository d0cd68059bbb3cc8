import Workflow.Number.Decimal
import Workflow.Calendar

/-!
# Values

The data that documents, payloads and outputs hold. A scalar is what a column can be compared with;
the other values are structured. Members of a mapping keep the order in which they were written.
-/

namespace Workflow

inductive Scalar where
  | null
  | bool (b : Bool)
  | int (n : Int)
  | float (x : Binary64)
  | text (s : String)
  | date (d : Date)
  | dateTime (t : DateTime)
  | bytes (bs : List UInt8)
  deriving DecidableEq, Inhabited

inductive Value where
  | scalar (s : Scalar)
  | list (items : List Value)
  | tuple (items : List Value)
  | set (items : List Value)
  | mapping (members : List (Scalar × Value))
  deriving Inhabited

/-- The members of a mapping. -/
abbrev Members := List (Scalar × Value)

namespace Scalar

/-- The number a scalar counts as when it is a key: truth values count as 0 and 1. -/
def keyNumber? : Scalar → Option Int
  | bool b => some (if b then 1 else 0)
  | int n => some n
  | float x => x.toInt?
  | _ => none

def sameKey (a b : Scalar) : Bool :=
  match a.keyNumber?, b.keyNumber? with
  | some m, some n => m == n
  | _, _ => a == b

end Scalar

namespace Value

abbrev null : Value := scalar .null
abbrev bool (b : Bool) : Value := scalar (.bool b)
abbrev int (n : Int) : Value := scalar (.int n)
abbrev float (x : Binary64) : Value := scalar (.float x)
abbrev text (s : String) : Value := scalar (.text s)

mutual

def same : Value → Value → Bool
  | scalar a, scalar b => a == b
  | list a, list b => sameItems a b
  | tuple a, tuple b => sameItems a b
  | set a, set b => sameItems a b
  | mapping a, mapping b => sameMembers a b
  | _, _ => false

def sameItems : List Value → List Value → Bool
  | [], [] => true
  | a :: as, b :: bs => same a b && sameItems as bs
  | _, _ => false

def sameMembers : Members → Members → Bool
  | [], [] => true
  | (k, a) :: as, (l, b) :: bs => k == l && same a b && sameMembers as bs
  | _, _ => false

end

instance : BEq Value := ⟨same⟩

def isNull : Value → Bool
  | scalar .null => true
  | _ => false

/-- Whether a value counts as something: zero, empty text and empty collections do not. -/
def isSomething : Value → Bool
  | .scalar .null => false
  | .scalar (.bool b) => b
  | .scalar (.int n) => n != 0
  | .scalar (.float x) => !x.isZero
  | .scalar (.text s) => s != ""
  | .scalar (.bytes bs) => !bs.isEmpty
  | .scalar _ => true
  | .list vs => !vs.isEmpty
  | .tuple vs => !vs.isEmpty
  | .set vs => !vs.isEmpty
  | .mapping ms => !ms.isEmpty

def asText? : Value → Option String
  | scalar (.text s) => some s
  | _ => none

def kindName : Value → String
  | scalar .null => "NoneType"
  | scalar (.bool _) => "bool"
  | scalar (.int _) => "int"
  | scalar (.float _) => "float"
  | scalar (.text _) => "str"
  | scalar (.date _) => "date"
  | scalar (.dateTime _) => "datetime"
  | scalar (.bytes _) => "bytes"
  | list _ => "list"
  | tuple _ => "tuple"
  | set _ => "set"
  | mapping _ => "dict"

end Value

namespace Members

def find? (ms : Members) (key : Scalar) : Option Value :=
  (List.find? (fun m => m.1.sameKey key) ms).map Prod.snd

def get? (ms : Members) (key : String) : Option Value := find? ms (.text key)

/-- Write a member: in its old place if the key is there, at the end otherwise. -/
def put (key : Scalar) (v : Value) : Members → Members
  | [] => [(key, v)]
  | (k, w) :: rest => if k.sameKey key then (k, v) :: rest else (k, w) :: put key v rest

def ofList (ms : List (Scalar × Value)) : Members := ms.foldl (fun acc m => put m.1 m.2 acc) []

end Members

/-! ## Everything within a value -/

mutual

/-- Whether all scalars within a value have one property, and all its keys another. -/
def Value.all (p q : Scalar → Bool) : Value → Bool
  | .scalar s => p s
  | .list vs => allItems p q vs
  | .tuple vs => allItems p q vs
  | .set vs => allItems p q vs
  | .mapping ms => allMembers p q ms

def allItems (p q : Scalar → Bool) : List Value → Bool
  | [] => true
  | v :: vs => v.all p q && allItems p q vs

def allMembers (p q : Scalar → Bool) : Members → Bool
  | [] => true
  | (k, v) :: ms => q k && v.all p q && allMembers p q ms

end

section
variable (p q : Scalar → Bool)

theorem allItems_eq (vs : List Value) : allItems p q vs = vs.all (Value.all p q) := by
  induction vs with
  | nil => rw [allItems, List.all_nil]
  | cons v vs ih => rw [allItems, ih, List.all_cons]

theorem allMembers_eq (ms : Members) : allMembers p q ms = ms.all fun m => q m.1 && m.2.all p q := by
  induction ms with
  | nil => rw [allMembers, List.all_nil]
  | cons m ms ih => rw [allMembers, ih, List.all_cons]

theorem Value.all_list (vs : List Value) : (list vs).all p q = vs.all (Value.all p q) := by
  rw [Value.all, allItems_eq]

theorem Value.all_mapping (ms : Members) : (mapping ms).all p q = ms.all fun m => q m.1 && m.2.all p q := by
  rw [Value.all, allMembers_eq]

end

/-! ## Indexes -/

/-- Declarations by their names, in the order in which the names came up. Of several declarations of a name the last one is
kept. -/
abbrev Index (α : Type) := List (String × α)

namespace Index

variable {α : Type}

/-- Enter a declaration: in the place of an earlier one of that name, at the end otherwise. -/
def put (name : String) (a : α) : Index α → Index α
  | [] => [(name, a)]
  | (n, b) :: rest => if n = name then (n, a) :: rest else (n, b) :: put name a rest

def of (name : α → String) (as : List α) : Index α := as.foldl (fun index a => put (name a) a index) []

def ofEntries (es : List (String × α)) : Index α := es.foldl (fun index e => put e.1 e.2 index) []

def get? (index : Index α) (name : String) : Option α := (index.find? fun e => e.1 == name).map Prod.snd

def names (index : Index α) : List String := index.map Prod.fst

end Index

end Workflow
