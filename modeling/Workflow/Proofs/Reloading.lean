import Workflow.Compile
import Workflow.Proofs.Except
import Workflow.Proofs.Rereading
import Workflow.Proofs.Plan

/-!
# The document of a manifest

A manifest that was read from some document is read again from the document that it is written as. Compiling either of
the two comes to the same.
-/

namespace Workflow

/-- What comes of a document, apart from what is logged about it. -/
def Compilation.findings (c : Compilation) : Option Plan × List Diagnostic := (c.plan, c.diagnostics)

section
variable {document : Value} {m : Manifest}

/-- The source of a document makes a difference to the log only. -/
theorem compile_findings (settings : Settings) (custom : Option (List String)) (source other : Option String)
    (loaded : Except (List Diagnostic) Manifest) :
    (compile settings custom source loaded).map Compilation.findings =
      (compile settings custom other loaded).map Compilation.findings := by
  unfold compile
  split
  · rfl
  split
  · rfl
  split
  · split
    · rfl
    · rfl
    · rfl
  · rfl

/-- A manifest is read from its own document: the coercions are done, the defaults are in place and every rule is kept. -/
theorem load_dump (h : Manifest.load document = .ok m) :
    Manifest.load m.dump = .ok m ∧ ∀ settings custom source other,
      (compile settings custom other (Manifest.load m.dump)).map Compilation.findings =
        (compile settings custom source (Manifest.load document)).map Compilation.findings := by
  have hfixed : Shape.manifest.Fixed m := by
    unfold Manifest.load at h
    split at h
    · exact Shape.Stable.fixed (mapError_eq_ok.mp h)
    · cases h
  have hdump : Manifest.load m.dump = .ok m := mapError_eq_ok.mpr hfixed
  refine ⟨hdump, ?_⟩
  intro settings custom source other
  rw [hdump, h]
  exact compile_findings settings custom other source (.ok m)

end

open Plan

/-- A document that is written in words, numerals and shorthands wherever that is allowed. -/
def lenientDocument : Value :=
  .mapping [
    entry "product" (.mapping [
      entry "name" (.text "workshop"), entry "description" (.text ""), entry "version" (.text "1")]),
    entry "state_machine" (.mapping [
      entry "initial" (.text "open"),
      entry "states" (.tuple [.mapping [entry "name" (.text "open"), entry "terminal" (.text "Yes")]])]),
    entry "events" (.mapping [
      entry "namespace" (.text "workshop"),
      entry "definitions" (.list [.mapping [
        entry "name" (.text "ordered"),
        entry "payload" (.mapping [entry "count" (.mapping [
          entry "type" (.text "number"), entry "required" (.int 1), entry "min" (.text "1.5")])])]])]),
    entry "agents" (.list [.mapping [
      entry "name" (.text "clerk"),
      entry "description" (.text ""),
      entry "triggers" (.list [.mapping [entry "event" (.text "ordered")]]),
      entry "contract" (.mapping [
        entry "state_in" (.text "open"), entry "state_out" (.text "open"), entry "output_schema" (.text "order")]),
      entry "config" (.mapping [entry "model" (.text "haiku")]),
      entry "limits" (.mapping [entry "max_tokens" (.text " 1_000 ")]),
      entry "persist" (.list [.mapping [
        entry "action" (.text "update"), entry "table" (.text "orders"),
        entry "set_" (.mapping [entry "owner" (.bool true)])]])]]),
    entry "database" (.mapping [
      entry "tables" (.list [.mapping [
        entry "name" (.text "orders"),
        entry "access" (.list [.mapping [
          entry "actor" (.text "owner"), entry "operations" (.text "select"), entry "condition" (.text "1")]])]])])]

theorem load_dump_lenient : ∃ m, Manifest.load lenientDocument = .ok m ∧ (m.dump == lenientDocument) = false ∧
    Manifest.load m.dump = .ok m ∧ ∀ settings custom source other,
      (compile settings custom other (Manifest.load m.dump)).map Compilation.findings =
        (compile settings custom source (Manifest.load lenientDocument)).map Compilation.findings := by
  have hl : (Manifest.load lenientDocument).toOption.any (fun m => !(m.dump == lenientDocument)) = true := by
    decide +kernel
  obtain ⟨m, h, hne⟩ := any_toOption.mp hl
  exact ⟨m, h, by simpa using hne, load_dump h⟩

end Workflow
