import Workflow.Store.Clause

/-!
# Stores

A store holds the tables of a manifest in rows of cells. It is asked for how many rows match a clause, and
told to add rows or to change those that match one. A call that fails changes no row.
-/

namespace Workflow

structure TableShape where
  name : String
  columns : List ColumnShape
  deriving DecidableEq

structure StoredTable where
  shape : TableShape
  /-- The rows in the order in which they were added, each with a cell for every column. -/
  rows : List (List Cell)
  deriving DecidableEq

/-- A store knows the shapes of tables that were declared or used, and has the tables themselves. -/
structure Store where
  known : List TableShape
  tables : List StoredTable
  deriving DecidableEq

/-- Values for the columns of a row. -/
abbrev Row := List (String × Value)

/-- Names of the database do not tell capital letters from small ones. -/
def sameName (a b : String) : Bool := a.toList.map Char.toLower == b.toList.map Char.toLower

def Table.shape? (t : Table) : Option TableShape :=
  t.columns.map fun cs => ⟨t.name, cs.map fun c => ⟨c.name, .ofType c.type, c.nullable⟩⟩

namespace TableShape

def repeats (same : String → String → Bool) (s : TableShape) : Bool :=
  !(s.columns.map ColumnShape.name).Pairwise fun a b => same a b = false

def isSound (s : TableShape) : Bool := !s.columns.isEmpty && !s.repeats sameName

def column? (s : TableShape) (name : String) : Option ColumnShape := s.columns.find? fun c => c.name == name

end TableShape

namespace StoredTable

/-- The place of a column. -/
def position? (t : StoredTable) (name : String) : Option Nat := t.shape.columns.findIdx? fun c => sameName c.name name

def positions (t : StoredTable) (names : List String) : Except StoreFault (List Nat) :=
  match names.mapM t.position? with
  | some ns => .ok ns
  | none => .error .statement

def affinityAt (t : StoredTable) (n : Nat) : Affinity := ((t.shape.columns[n]?).map fun c => c.kind.affinity).getD .text

def complete (t : StoredTable) (row : List Cell) : Bool :=
  (t.shape.columns.zip row).all fun (c, cell) => c.nullable || cell != .null

def matchesRow (t : StoredTable) (tests : List (Nat × CellTest)) (row : List Cell) : Bool :=
  tests.all fun (n, test) => test.holds? (t.affinityAt n) (row.getD n .null) == some true

def assign (t : StoredTable) (cells : List (Nat × Cell)) (row : List Cell) : List Cell :=
  cells.foldl (fun row (n, c) => row.set n (c.store (t.affinityAt n))) row

def emptyRow (t : StoredTable) : List Cell := t.shape.columns.map fun _ => .null

end StoredTable

namespace Store

def empty : Store := ⟨[], []⟩

def table? (s : Store) (name : String) : Option StoredTable := s.tables.find? fun t => sameName t.shape.name name

def shape? (s : Store) (name : String) : Option TableShape :=
  (s.known.find? fun t => t.name == name).or ((s.table? name).map fun t => ⟨name, t.shape.columns⟩)

/-- A store that knows the shape of a table, if it has that table. -/
def learn (s : Store) (name : String) : Store :=
  if s.known.any fun t => t.name == name then s else { s with known := s.known ++ (s.shape? name).toList }

def reopen (s : Store) : Store := { s with known := [] }

/-! ## Tables -/

/-- Take note of the shapes of tables, up to one that names a column twice. -/
def declare (s : Store) : List TableShape → Store × Bool
  | [] => (s, true)
  | t :: rest =>
    if s.known.any fun k => k.name == t.name then s.declare rest
    else if t.repeats (· == ·) then (s, false)
    else { s with known := s.known ++ [t] }.declare rest

/-- Create tables, up to one that the database does not accept. -/
def create (s : Store) : List TableShape → Store × Bool
  | [] => (s, true)
  | t :: rest =>
    if t.isSound && (s.table? t.name).isNone then { s with tables := s.tables ++ [StoredTable.mk t []] }.create rest else (s, false)

/-- Create the tables that declare their columns. A table that is known stays as it is. -/
def createTables (s : Store) (tables : List Table) : Store × Except StoreFault (List String) :=
  let shapes := tables.filterMap Table.shape?
  match s.declare shapes with
  | (s, false) => (s, .error .repeatedColumn)
  | (s, true) =>
    -- tables that were declared before and are not there yet are created as well
    match s.create (s.known.filter fun t => (s.table? t.name).isNone) with
    | (s, false) => (s, .error .statement)
    | (s, true) => (s, .ok (shapes.map TableShape.name))

/-! ## Statements -/

def shape (s : Store) (name : String) : Except StoreFault TableShape :=
  match s.shape? name with
  | some t => .ok t
  | none => .error .noTable

def target (s : Store) (name : String) : Except StoreFault StoredTable :=
  match s.table? name with
  | some t => .ok t
  | none => .error .statement

def testsOn (t : StoredTable) (bs : List BoundCondition) (operands : List (List Value)) :
    Except StoreFault (List (Nat × CellTest)) := do
  let places ← t.positions (bs.map BoundCondition.column)
  let cells ← operands.mapM cellsOf
  return places.zip (bs.zipWith BoundCondition.test cells)

def operandsOf (bs : List BoundCondition) : Except StoreFault (List (List Value)) :=
  match bs.mapM BoundCondition.operands? with
  | some vs => .ok vs
  | none => .error .misfit

/-- How many rows match a clause. -/
def count (s : Store) (name clause : String) : Except StoreFault Nat := do
  let shape ← s.shape name
  let bs ← readConditions shape.columns clause
  let operands ← operandsOf bs
  let t ← s.target name
  let tests ← testsOn t bs operands
  return t.rows.countP (t.matchesRow tests)

/-- The values of a row in the order of the columns; every one of them has its column. -/
def arrange (shape : TableShape) (row : Row) : Except StoreFault (List (ColumnShape × Value)) :=
  if row.all fun e => (shape.column? e.1).isSome then
    .ok (shape.columns.filterMap fun c => (row.lookup c.name).map fun v => (c, v))
  else .error .unknownColumn

def withRows (s : Store) (name : String) (rows : List (List Cell)) : Store :=
  { s with tables := s.tables.map fun t => if sameName t.shape.name name then { t with rows } else t }

/-- Add a row. Columns without a value are null. -/
def insert (s : Store) (name : String) (row : Row) : Except StoreFault Store := do
  let shape ← s.shape name
  let values ← arrange shape row
  let accepted ← acceptAll (fun (c, v) => c.kind.accept? v) values
  let t ← s.target name
  let places ← t.positions (values.map fun (c, _) => c.name)
  let cells ← cellsOf accepted
  let row := t.assign (places.zip cells) t.emptyRow
  if t.complete row then return s.withRows name (t.rows ++ [row]) else throw .missingValue

def conditionsOf (columns : List ColumnShape) : Option String → Except StoreFault (List BoundCondition)
  | some clause => readConditions columns clause
  | none => .ok []

/-- Change the rows that match a clause, or all of them, and count them. -/
def update (s : Store) (name : String) (row : Row) (clause : Option String) : Except StoreFault (Nat × Store) := do
  let shape ← s.shape name
  let bs ← conditionsOf shape.columns clause
  let values ← arrange shape row
  let accepted ← acceptAll (fun (c, v) => c.kind.accept? v) values
  let operands ← operandsOf bs
  let t ← s.target name
  -- the database knows no statement that sets nothing
  if values.isEmpty then throw .statement
  let places ← t.positions (values.map fun (c, _) => c.name)
  let cells ← cellsOf accepted
  let tests ← testsOn t bs operands
  let changed := t.rows.map fun r => if t.matchesRow tests r then t.assign (places.zip cells) r else r
  -- one row without a required cell refuses the update of all
  if changed.all t.complete then return (t.rows.countP (t.matchesRow tests), s.withRows name changed)
  else throw .missingValue

def rows (s : Store) (name : String) : Except StoreFault (List Row) := do
  let shape ← s.shape name
  let t ← s.target name
  let places ← t.positions (shape.columns.map ColumnShape.name)
  return t.rows.map fun r => (shape.columns.zip places).map fun (c, n) => (c.name, c.kind.show (r.getD n .null))

end Store

end Workflow
