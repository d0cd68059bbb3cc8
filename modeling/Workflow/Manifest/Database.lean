import Workflow.Shape

/-!
# Database

The tables of a manifest, the actors that use them and the policies that grant them access. An operation
that no policy grants is denied.
-/

namespace Workflow

inductive Operation where
  | select | insert | update | delete
  deriving DecidableEq

namespace Operation

def name : Operation → String
  | select => "SELECT"
  | insert => "INSERT"
  | update => "UPDATE"
  | delete => "DELETE"

/-- Every operation, in the order in which rules are listed. -/
def all : List Operation := [select, insert, update, delete]

def ofName? (s : String) : Option Operation := all.find? fun o => o.name == s

end Operation

/-- What a policy lists: an operation, or all of them at once. -/
inductive Grant where
  | only (o : Operation)
  | all
  deriving DecidableEq

def Grant.name : Grant → String
  | only o => o.name
  | all => "ALL"

def Grant.every : List Grant := Operation.all.map .only ++ [.all]

structure Column where
  name : String
  type : String
  nullable : Bool
  initial : Option String
  references : Option String
  deriving DecidableEq

structure AccessPolicy where
  actor : String
  grants : List Grant
  condition : String
  deriving DecidableEq

/-- The operations that a policy grants, each once. -/
def AccessPolicy.operations (p : AccessPolicy) : List Operation :=
  Operation.all.filter fun o => p.grants.contains .all || p.grants.contains (.only o)

structure Table where
  name : String
  columns : Option (List Column)
  access : List AccessPolicy
  deriving DecidableEq

def Table.columnNames? (t : Table) : Option (List String) := t.columns.map (List.map Column.name)

structure Actor where
  name : String
  identifier : String
  description : Option String
  deriving DecidableEq

structure Database where
  migrationsDir : String
  actors : List Actor
  tables : List Table
  deriving DecidableEq

/-- The capital letter of a letter; besides those of ASCII two more letters have one of ASCII. -/
def capital (c : Char) : Char := if c = 'ſ' then 'S' else if c = 'ı' then 'I' else c.toUpper

/-- Operations in capitals; a single one stands for a list of one. -/
def capitalOperations : Value → Value
  | .scalar (.text s) => .list [.text (s.map capital)]
  | .list vs => .list (vs.map capitalText)
  | .tuple vs => .list (vs.map capitalText)
  | v => v
where
  capitalText : Value → Value
    | .scalar (.text s) => .text (s.map capital)
    | v => v

namespace Shape

def identifier (what : String) : Shape String :=
  text.checked fun s => if isIdentifier s then none else some (.identifier what s)

def column : Shape Column :=
  node "Column" <| Fields.of Column.mk
    |>.field "name" (identifier "column name") (·.name)
    |>.field "type" text (·.type)
    |>.fieldOr "nullable" bool true (·.nullable)
    |>.fieldOr "default" (nullable text) none (·.initial)
    |>.fieldOr "references" (nullable text) none (·.references)

def accessPolicy : Shape AccessPolicy :=
  node "AccessPolicy" <| Fields.of AccessPolicy.mk
    |>.field "actor" text (·.actor)
    |>.field "operations" ((filledTuple (choice Grant.every Grant.name)).prepared capitalOperations) (·.grants)
    |>.field "condition" filledText (·.condition)

def table : Shape Table :=
  node "Table" <| Fields.of Table.mk
    |>.field "name" (identifier "table name") (·.name)
    |>.fieldOr "columns" (nullable (tuple column)) none (·.columns)
    |>.field "access" (filledTuple accessPolicy) (·.access)

def actor : Shape Actor :=
  node "Actor" <| Fields.of Actor.mk
    |>.field "name" (identifier "actor name") (·.name)
    |>.field "identifier" filledText (·.identifier)
    |>.fieldOr "description" (nullable text) none (·.description)

def database : Shape Database :=
  node "Database" <| Fields.of Database.mk
    |>.fieldOr "migrations_dir" text "supabase/migrations/" (·.migrationsDir)
    |>.fieldOr "actors" (tuple actor) [] (·.actors)
    |>.fieldOr "tables" (tuple table) [] (·.tables)

end Shape

end Workflow
