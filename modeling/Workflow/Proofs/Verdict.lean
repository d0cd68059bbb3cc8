import Workflow.Proofs.Compile

/-!
# The verdict on a document

What is returned for a document is a plan or errors, never both and never neither. The rules of its tables are not
compiled before the checks have passed, and the checks leave no policy that yields no rules: the finding that a policy
does so is never reported.
-/

namespace Workflow

theorem errorsOf_eq_nil {ds : List Diagnostic} : errorsOf ds = [] ↔ ∀ d ∈ ds, d.severity ≠ .error := by
  simp [errorsOf, Diagnostic.isError]

/-! ## Codes -/

def policyCode : String := "policy_compile"

@[simp] theorem policyDiagnostic_code (f : PolicyFault) : (policyDiagnostic f).code = policyCode := rfl

theorem ShapeCause.code_ne (c : ShapeCause) : c.code ≠ policyCode := by
  cases c with
  | sequence kind => cases kind <;> decide
  | _ => simp [ShapeCause.code, policyCode]

theorem Finding.code_ne (f : Finding) : f.code ≠ policyCode := by
  cases f with
  | duplicate what name =>
    intro h
    have := congrArg (fun s => s.toList.head?) h
    simp [Finding.code, policyCode] at this
  | _ => simp [Finding.code, policyCode]

section
variable {document : Value} {settings : Settings} {custom : Option (List String)} {source : Option String}

theorem load_structural {ds : List Diagnostic} (h : Manifest.load document = .error ds) :
    ds ≠ [] ∧ ∀ d ∈ ds, d.kind = .structural ∧ d.code ≠ policyCode := by
  rcases load_error h with ⟨fs, hne, rfl⟩ | ⟨message, rfl⟩
  · exact ⟨by simpa using hne, List.forall_mem_map.mpr fun f _ => ⟨rfl, f.cause.code_ne⟩⟩
  · exact ⟨by simp, List.forall_mem_singleton.mpr ⟨rfl, by simp [documentDiagnostic, policyCode]⟩⟩

theorem diagnose_code {m : Manifest} {ds : List Diagnostic} (h : m.diagnose settings custom = .ok ds) :
    ∀ d ∈ ds, d.code ≠ policyCode := by
  obtain ⟨-, hds⟩ := Located.diagnostics_eq_ok.mp h
  rw [hds]
  exact List.forall_mem_map.mpr fun l _ => l.finding.code_ne

/-! ## Verdicts -/

/-- What is returned for a document has a plan exactly if it has no errors. The plan keeps every finding; without one
there are findings about the structure alone if the document is no manifest. -/
structure Compilation.Decides (c : Compilation) (loaded : Except (List Diagnostic) Manifest) : Prop where
  plan : c.plan.isSome = true ↔ ∀ d ∈ c.diagnostics, d.severity ≠ .error
  warnings : ∀ p, c.plan = some p → p.warnings = c.diagnostics
  structural : ∀ ds, loaded = .error ds → c.diagnostics ≠ [] ∧ ∀ d ∈ c.diagnostics, d.kind = .structural
  policies : ∀ d ∈ c.diagnostics, d.code ≠ policyCode

theorem rejection_decides {loaded : Except (List Diagnostic) Manifest} {ds : List Diagnostic} (he : errorsOf ds ≠ [])
    (hs : ∀ ds', loaded = .error ds' → ds' = ds ∧ ds ≠ [] ∧ ∀ d ∈ ds, d.kind = .structural)
    (hc : ∀ d ∈ ds, d.code ≠ policyCode) : (rejection source ds).Decides loaded :=
  ⟨iff_of_false nofun fun h => he (errorsOf_eq_nil.mpr h), by rintro _ ⟨⟩, fun ds' h => (hs ds' h).2, hc⟩

theorem outcome_decides {m : Manifest} {c : Compilation} (h : Outcome settings custom source m (.ok c)) :
    c.Decides (.ok m) := by
  cases h with
  | rejected ds _ hd he => exact rejection_decides he nofun (diagnose_code hd)
  | planned ds p _ hd he _ hp =>
    refine ⟨iff_of_true rfl (errorsOf_eq_nil.mp he), ?_, nofun, diagnose_code hd⟩
    rintro _ ⟨⟩
    exact (plan_contents hp).2.1

/-- Planning a manifest fails for its policies only if they yield no rules. -/
theorem plan_policies {m : Manifest} {policies : Index TablePolicies} (h : m.tablePolicies = .ok policies)
    (warnings : List Diagnostic) (f : PolicyFault) : m.plan warnings ≠ .error (.policy f) := by
  unfold Manifest.plan
  cases m.fingerprint with
  | error e => simp
  | ok fingerprint => simp [h]

variable (document settings custom source) in
/-- **A document has a plan or errors, never both and never neither.** Where the checks found no error, every table has
rules, and planning does not fail for a policy. -/
theorem compile_decides :
    (∀ c, compile settings custom source (Manifest.load document) = .ok c → c.Decides (Manifest.load document)) ∧
    ∀ m ds, Manifest.load document = .ok m → m.diagnose settings custom = .ok ds → errorsOf ds = [] →
      (∃ policies, m.tablePolicies = .ok policies) ∧ ∀ warnings f, m.plan warnings ≠ .error (.policy f) := by
  constructor
  · intro c hc
    cases hl : Manifest.load document with
    | error ds =>
      rw [hl] at hc
      cases hc
      obtain ⟨hne, hds⟩ := load_structural hl
      refine rejection_decides (load_refused hl) ?_ fun d hd => (hds d hd).2
      rintro _ ⟨⟩
      exact ⟨rfl, hne, fun d hd => (hds d hd).1⟩
    | ok m =>
      have ho := compile_outcome settings custom source (load_wellRead hl)
      rw [hl] at hc
      exact outcome_decides (hc ▸ ho)
  · intro m ds hl hd he
    obtain ⟨policies, hp⟩ := policies_of_sound (sound_of_diagnose hd he) (load_wellRead hl)
    exact ⟨⟨policies, hp⟩, plan_policies hp⟩

end

/-- A document with a plan, and one whose policy does not mention the actor. -/
theorem compile_decides_workshop :
    (∃ c, compile .standard none none (Manifest.load (workshop "owner = :actor" 1000)) = .ok c ∧ c.isOk = true ∧
      c.Decides (Manifest.load (workshop "owner = :actor" 1000))) ∧
    ∃ c, compile .standard none none (Manifest.load (workshop "owner = 1" 1000)) = .ok c ∧ c.isOk = false ∧
      c.Decides (Manifest.load (workshop "owner = 1" 1000)) := by
  have hplan : (compile .standard none none (Manifest.load (workshop "owner = :actor" 1000))).toOption.any
      (fun c => c.isOk) = true := by
    decide +kernel
  have herrors : (compile .standard none none (Manifest.load (workshop "owner = 1" 1000))).toOption.any
      (fun c => !c.isOk) = true := by
    decide +kernel
  obtain ⟨c, hc, hplan⟩ := any_toOption.mp hplan
  obtain ⟨d, hd, herrors⟩ := any_toOption.mp herrors
  exact ⟨⟨c, hc, hplan, (compile_decides _ .standard none none).1 c hc⟩,
    d, hd, by simpa using herrors, (compile_decides _ .standard none none).1 d hd⟩

end Workflow
