import Workflow.Check.References
import Workflow.Log
import Workflow.Plan

/-!
# Compilation

A document is read, its references are checked, and if no error was found it becomes a plan. The result
holds a plan or the errors that kept it from one, and every other finding.
-/

namespace Workflow

structure Compilation where
  plan : Option Plan
  diagnostics : List Diagnostic
  /-- What is logged about the compilation. -/
  entry : LogEntry

namespace Compilation

def isOk (c : Compilation) : Bool := c.plan.isSome

def errors (c : Compilation) : List Diagnostic := errorsOf c.diagnostics

def warnings (c : Compilation) : List Diagnostic := c.diagnostics.filter fun d => d.severity == .warning

end Compilation

def rejectionMessage (errors : List Diagnostic) : String :=
  let noun := if errors.length = 1 then "error" else "errors"
  s!"Manifest rejected with {errors.length} {noun}"

def compilerLogger : String := loggerName "core.compiler"

/-- The source of a document in a log: the name of a file, if it was one. -/
def sourceField (source : Option String) : String × Value := ("source", (source.map Value.text).getD .null)

def rejection (source : Option String) (ds : List Diagnostic) : Compilation where
  plan := none
  diagnostics := ds
  entry := ⟨.info, compilerLogger, "manifest_rejected", [sourceField source, ("errors", .int (errorsOf ds).length)]⟩

def acceptance (source : Option String) (p : Plan) (ds : List Diagnostic) : Compilation where
  plan := some p
  diagnostics := ds
  entry := ⟨.info, compilerLogger, "manifest_compiled", [
    sourceField source,
    ("product", .text p.manifest.product.name),
    ("fingerprint", .text p.fingerprint),
    ("steps", .int p.steps.length),
    ("warnings", .int ds.length)]⟩

def policyDiagnostic (f : PolicyFault) : Diagnostic :=
  ⟨[.key "database", .key "tables"], .crossReference, "policy_compile", f.message, .error⟩

/-- Why nothing comes of a document, no diagnostics either. -/
inductive CompileFault where
  | breakdown (b : Breakdown)
  | fingerprint (f : CanonicalFault)
  deriving DecidableEq

def CompileFault.message : CompileFault → String
  | breakdown b => b.message
  | fingerprint f => f.message

/-- Compile what a document was read as. Nothing comes of a manifest that cannot be hashed, nor of one with an expression
whose numbers cannot be read. -/
def compile (settings : Settings) (custom : Option (List String)) (source : Option String)
    (loaded : Except (List Diagnostic) Manifest) : Except CompileFault Compilation :=
  match loaded with
  | .error ds => .ok (rejection source ds)
  | .ok m =>
    match m.diagnose settings custom with
    | .error b => .error (.breakdown b)
    | .ok ds =>
      if (errorsOf ds).isEmpty then
        match m.plan ds with
        | .ok p => .ok (acceptance source p ds)
        | .error (.policy f) => .ok (rejection source (ds ++ [policyDiagnostic f]))
        | .error (.fingerprint f) => .error (.fingerprint f)
      else .ok (rejection source ds)

end Workflow
