import Workflow.Value.Display

/-!
# Diagnostics

A finding about a document: where, what kind, and how much it matters. Only errors keep a document from
being compiled.
-/

namespace Workflow

inductive Severity where
  | error | warning | info
  deriving DecidableEq

def Severity.name : Severity → String
  | error => "error"
  | warning => "warning"
  | info => "info"

/-- Whether the shape of one node is wrong, or how nodes refer to each other. -/
inductive DiagnosticKind where
  | structural | crossReference
  deriving DecidableEq

def DiagnosticKind.name : DiagnosticKind → String
  | structural => "structural"
  | crossReference => "cross_reference"

structure Diagnostic where
  location : Location
  kind : DiagnosticKind
  code : String
  message : String
  severity : Severity
  deriving DecidableEq

namespace Diagnostic

def isError (d : Diagnostic) : Bool := d.severity == .error

def path (d : Diagnostic) : String := locationText d.location

def text (d : Diagnostic) : String := d.path ++ ": " ++ d.message ++ " [" ++ d.code ++ "]"

def dump (d : Diagnostic) : Value :=
  .mapping [(.text "path", .text d.path), (.text "kind", .text d.kind.name), (.text "code", .text d.code),
    (.text "message", .text d.message), (.text "severity", .text d.severity.name)]

end Diagnostic

/-- The diagnostics that keep a document from being compiled. -/
def errorsOf (ds : List Diagnostic) : List Diagnostic := ds.filter Diagnostic.isError

end Workflow
