import Workflow.Log
import Workflow.Rejection
import Workflow.Store

/-!
# Hosts

Whatever a running step asks of its surroundings is a request: how many rows match, whether a file is there,
to run its body, to write, to run a custom action. A host answers requests one after the other, and its
answers may depend on all that went before; nothing more is assumed of it.
-/

namespace Workflow

inductive Request where
  | count (q : CountQuery)
  | artifact (path : String)
  | body (payload : Members)
  | update (table : String) (values : Row) (clause : Option String)
  | insert (table : String) (values : Row)
  | log (table : String) (values : Row)
  | custom (ref : String) (context : Members)

/-- What a request is answered with. -/
abbrev Request.Reply : Request → Type
  | count _ => Int
  | artifact _ => Bool
  | body _ => Value
  | update .. => Option Int
  | insert .. => Unit
  | log .. => Unit
  | custom .. => Unit

/-- Why a request is not answered, or a step cannot go on. -/
inductive Failure where
  /-- A failure that the host reports in its own words. -/
  | reported (message : String)
  /-- A rejection that the host decides on. -/
  | rejection (r : Rejection)
  | store (f : StoreFault)
  | unregistered (ref : String)
  | breakdown (b : Breakdown)

def Failure.message : Failure → String
  | reported message => message
  | rejection r => r.message
  | store f => f.message
  | unregistered ref => s!"custom action '{ref}' is not registered"
  | breakdown b => b.message

/-- A host in a state of type `σ`. -/
abbrev Host (σ : Type) := (r : Request) → σ → Except Failure r.Reply × σ

/-- The state of a host, and what was logged. -/
structure Session (σ : Type) where
  state : σ
  log : List LogEntry

/-- A computation that asks a host and logs. -/
abbrev Run (σ : Type) := StateM (Session σ)

namespace Run

variable {σ : Type}

def ask (h : Host σ) (r : Request) : Run σ (Except Failure r.Reply) := fun s =>
  let (reply, state) := h r s.state
  (reply, { s with state })

def note (level : LogLevel) (logger event : String) (fields : List (String × Value)) : Run σ Unit :=
  modify fun s => { s with log := s.log ++ [⟨level, logger, event, fields⟩] }

end Run

/-! ## Stores as hosts -/

namespace Store

/-- Add a row to a table, which the store comes to know even if it takes no row. -/
def add (s : Store) (table : String) (values : Row) : Except Failure Unit × Store :=
  let s := s.learn table
  match s.insert table values with
  | .ok s => (.ok (), s)
  | .error f => (.error (.store f), s)

/-- Change rows of a table, which the store comes to know even if none is changed. -/
def change (s : Store) (table : String) (values : Row) (clause : Option String) : Except Failure (Option Int) × Store :=
  let s := s.learn table
  match s.update table values clause with
  | .ok (n, s) => (.ok (some n), s)
  | .error f => (.error (.store f), s)

/-- What a store answers, with the store afterwards; none to what is not asked of a store. -/
def answer? (s : Store) : (r : Request) → Option (Except Failure r.Reply × Store)
  | .count q => some ((s.count q.table q.clause).map Int.ofNat |>.mapError .store, s.learn q.table)
  | .update table values clause => some (s.change table values clause)
  | .insert table values => some (s.add table values)
  | .log table values => some (s.add table values)
  | .artifact _ => none
  | .body _ => none
  | .custom .. => none

end Store

end Workflow
