import Workflow.Proofs.Check.Legible
import Workflow.Proofs.Plan

/-!
# What becomes of a document

A document becomes a plan, or its errors are returned. Two things can keep anything from being returned: a number within an
expression that breaks down, and, once no error was found, an integer that has no canonical text.
-/

namespace Workflow

/-! ## Reading -/

section
variable {document : Value} {m : Manifest}

theorem load_error {ds : List Diagnostic} (h : Manifest.load document = .error ds) :
    (∃ fs, fs ≠ [] ∧ ds = fs.map structuralDiagnostic) ∨ ∃ message, ds = [documentDiagnostic "document_type" message] := by
  unfold Manifest.load at h
  split at h
  · rename_i ms
    have hread := Shape.manifest_sound.read (.mapping ms)
    unfold Shape.diagnose at h
    cases hr : Shape.manifest.read (.mapping ms) with
    | ok m => simp [hr, Except.mapError] at h
    | error fs =>
      simp only [hr, Except.mapError, Except.error.injEq] at h
      exact .inl ⟨fs, hread.ne_nil hr, h.symm⟩
  · cases h
    exact .inr ⟨_, rfl⟩

theorem load_refused {ds : List Diagnostic} (h : Manifest.load document = .error ds) : errorsOf ds ≠ [] := by
  rcases load_error h with ⟨fs, hne, rfl⟩ | ⟨message, rfl⟩
  · obtain ⟨f, fs', rfl⟩ := List.exists_cons_of_ne_nil hne
    simp [errorsOf, structuralDiagnostic, Diagnostic.isError]
  · simp [errorsOf, documentDiagnostic, Diagnostic.isError]

theorem load_wellRead (h : Manifest.load document = .ok m) : m.WellRead := by
  unfold Manifest.load at h
  split at h
  · exact (Shape.manifest_sound.read _).2 m (mapError_eq_ok.mp h)
  · cases h

/-! ## Planning -/

theorem rules_of_declared {t : Table} {a : AccessPolicy} (hc : a.Closed m t) (hm : mentionsActor a.condition = true) :
    ∃ rules, a.rules t.name m.database.actors = .ok rules := by
  obtain ⟨b, hb, hn⟩ := List.mem_map.mp hc.actor
  have hb : (actorNamed? m.database.actors a.actor).isSome = true := by
    unfold actorNamed?
    rw [List.find?_isSome]
    exact ⟨b, List.mem_reverse.mpr hb, by simp [hn]⟩
  obtain ⟨b, hb⟩ := Option.isSome_iff_exists.mp hb
  simp [AccessPolicy.rules, AccessPolicy.rulesBy, hb, hm]

/-- What the checks let through has rules for its tables. -/
theorem policies_of_sound (hs : m.Sound) (hm : m.WellRead) : ∃ policies, m.tablePolicies = .ok policies := by
  unfold Manifest.tablePolicies
  rw [Index.of_eq_map hs.distinct.tables]
  refine exists_mapM fun e he => ?_
  obtain ⟨t, ht, rfl⟩ := List.mem_map.mp he
  have hrules : ∃ rules, t.access.mapM (AccessPolicy.rulesBy t.name (actorNamed? m.database.actors)) = .ok rules :=
    exists_mapM fun a ha => rules_of_declared (hs.closed.policies t ht a ha) (hs.actors t ht a ha)
  obtain ⟨rules, hrules⟩ := hrules
  -- a table without policies is refused when it is read
  have hnonempty : t.access.isEmpty = false := by simpa using hm.access t ht
  simp [Table.policies, Table.policiesBy, hnonempty, hrules, Except.map]

/-- What the checks let through becomes a plan if its integers are safe. -/
theorem plan_settles (hs : m.Sound) (hm : m.WellRead) (ds : List Diagnostic) :
    (∃ p, m.plan ds = .ok p) ∧ (∀ n ∈ m.integers, IsSafe n) ∨
      ∃ n ∈ m.integers, ¬ IsSafe n ∧ m.plan ds = .error (.fingerprint (rangeFault n)) := by
  obtain ⟨policies, hpolicies⟩ := policies_of_sound hs hm
  have hsettles : Settles m.fingerprint m.integers := stableHash_settles (Shape.manifest_sound.written m hm)
  rcases hsettles with ⟨⟨fingerprint, hf⟩, hsafe⟩ | ⟨n, hn, hunsafe, hf⟩
  · exact .inl ⟨by simp [Manifest.plan, hf, hpolicies], hsafe⟩
  · exact .inr ⟨n, hn, hunsafe, by simp only [Manifest.plan, hf]⟩

end

/-! ## Compiling -/

section
variable (settings : Settings) (custom : Option (List String)) (source : Option String)

inductive Outcome (m : Manifest) : Except CompileFault Compilation → Prop
  | illegible (b : Breakdown) : ¬ m.Legible → Outcome m (.error (.breakdown b))
  | rejected (ds : List Diagnostic) : m.Legible → m.diagnose settings custom = .ok ds → errorsOf ds ≠ [] →
      Outcome m (.ok (rejection source ds))
  | planned (ds : List Diagnostic) (p : Plan) : m.Legible → m.diagnose settings custom = .ok ds → errorsOf ds = [] →
      (∀ n ∈ m.integers, IsSafe n) → m.plan ds = .ok p → Outcome m (.ok (acceptance source p ds))
  | unwritable (ds : List Diagnostic) (n : Int) : m.diagnose settings custom = .ok ds → errorsOf ds = [] →
      n ∈ m.integers → ¬ IsSafe n → Outcome m (.error (.fingerprint (rangeFault n)))

theorem compile_outcome {m : Manifest} (hm : m.WellRead) :
    Outcome settings custom source m (compile settings custom source (.ok m)) := by
  simp only [compile]
  cases hd : m.diagnose settings custom with
  | error b =>
    refine .illegible b fun hl => ?_
    obtain ⟨ds, hds⟩ := diagnose_isOk_iff.mpr hl
    rw [hd] at hds
    cases hds
  | ok ds =>
    have hl : m.Legible := diagnose_isOk_iff.mp ⟨ds, hd⟩
    cases he : errorsOf ds with
    | cons d rest => simpa [he] using .rejected ds hl hd (by simp [he])
    | nil =>
      rcases plan_settles (sound_of_diagnose hd he) hm ds with ⟨⟨p, hp⟩, hsafe⟩ | ⟨n, hn, hunsafe, hp⟩
      · simpa [he, hp] using .planned ds p hl hd he hsafe hp
      · simpa [he, hp] using .unwritable ds n hd he hn hunsafe

def findingsOf : Except (List Diagnostic) Manifest → Except Breakdown (List Diagnostic)
  | .error ds => .ok ds
  | .ok m => m.diagnose settings custom

/-- A compilation has all that was found in a document, and the plan of the document if no error was found. -/
def Compilation.Answers (c : Compilation) (loaded : Except (List Diagnostic) Manifest) : Prop :=
  findingsOf settings custom loaded = .ok c.diagnostics ∧
    (c.errors ≠ [] ∧ c.plan = none ∨
      c.errors = [] ∧ ∃ p, c.plan = some p ∧ loaded = .ok p.manifest ∧ p.manifest.fingerprint = .ok p.fingerprint)

/-- Nothing in a manifest keeps its compilation from returning. -/
structure Manifest.Compilable (m : Manifest) : Prop where
  legible : m.Legible
  safe : ∀ ds, m.diagnose settings custom = .ok ds → errorsOf ds = [] → ∀ n ∈ m.integers, IsSafe n

theorem outcome_answers {m : Manifest} {r : Except CompileFault Compilation} (h : Outcome settings custom source m r) :
    ((∃ c, r = .ok c) ↔ m.Compilable settings custom) ∧ (∀ c, r = .ok c → c.Answers settings custom (.ok m)) ∧
    ∀ f, r = .error f → (∃ b, f = .breakdown b) ∨ ∃ n, ¬ IsSafe n ∧ f = .fingerprint (rangeFault n) := by
  cases h with
  | illegible b hn =>
    refine ⟨iff_of_false (by simp) fun h => hn h.legible, by simp, fun f hf => ?_⟩
    exact .inl ⟨b, (Except.error.inj hf).symm⟩
  | rejected ds hn hd he =>
    -- where errors were found nothing is written, so the integers may be any
    refine ⟨iff_of_true ⟨_, rfl⟩ ⟨hn, fun ds' hd' he' => ?_⟩, fun c hc => ?_, by simp⟩
    · rw [hd, Except.ok.injEq] at hd'
      exact absurd (hd' ▸ he') he
    · cases hc
      exact ⟨hd, .inl ⟨he, rfl⟩⟩
  | planned ds p hn hd he hs hp =>
    refine ⟨iff_of_true ⟨_, rfl⟩ ⟨hn, fun _ _ _ => hs⟩, fun c hc => ?_, by simp⟩
    cases hc
    obtain ⟨rfl, -, hf, -⟩ := plan_contents hp
    exact ⟨hd, .inr ⟨he, p, rfl, rfl, hf⟩⟩
  | unwritable ds n hd he hn hs =>
    refine ⟨iff_of_false (by simp) fun h => hs (h.safe ds hd he n hn), by simp, fun f hf => ?_⟩
    exact .inr ⟨n, hs, (Except.error.inj hf).symm⟩

/-- Every document is answered, unless a number in an expression breaks down or an integer cannot be hashed. -/
theorem compile_returns (document : Value) :
    ((∃ c, compile settings custom source (Manifest.load document) = .ok c) ↔
      ∀ m, Manifest.load document = .ok m → m.Compilable settings custom) ∧
    (∀ c, compile settings custom source (Manifest.load document) = .ok c →
      c.Answers settings custom (Manifest.load document)) ∧
    ∀ f, compile settings custom source (Manifest.load document) = .error f →
      (∃ b, f = .breakdown b) ∨ ∃ n, ¬ IsSafe n ∧ f = .fingerprint (rangeFault n) := by
  cases hl : Manifest.load document with
  | error ds =>
    have hr : compile settings custom source (.error ds) = .ok (rejection source ds) := rfl
    rw [hr]
    refine ⟨iff_of_true ⟨_, rfl⟩ (by simp), fun c hc => ?_, by simp⟩
    cases hc
    exact ⟨rfl, .inl ⟨load_refused hl, rfl⟩⟩
  | ok m =>
    simp only [Except.ok.injEq, forall_eq']
    exact outcome_answers settings custom source (compile_outcome settings custom source (load_wellRead hl))

end

/-- A limit beyond the safe integers, and a condition with a number in the digits of another script. -/
theorem compile_unanswered :
    compile .standard none none (Manifest.load (workshop "owner = :actor" 9007199254740992)) =
      .error (.fingerprint (.integerRange 9007199254740992)) ∧
    compile .standard none none (Manifest.load (workshop "owner = :actor AND id = \x7b\x7b 1.\u0665 \x7d\x7d" 1000)) =
      .error (.breakdown (.foreign none)) := by
  have hunsafe : (fault? (compile .standard none none
      (Manifest.load (workshop "owner = :actor" 9007199254740992)))).any
      (fun f => f = .fingerprint (.integerRange 9007199254740992)) = true := by
    decide +kernel
  have hforeign : (fault? (compile .standard none none
      (Manifest.load (workshop "owner = :actor AND id = \x7b\x7b 1.\u0665 \x7d\x7d" 1000)))).any
      (fun f => f = .breakdown (.foreign none)) = true := by
    decide +kernel
  obtain ⟨f, hf, hunsafe⟩ := any_fault?.mp hunsafe
  obtain ⟨g, hg, hforeign⟩ := any_fault?.mp hforeign
  obtain rfl := of_decide_eq_true hunsafe
  obtain rfl := of_decide_eq_true hforeign
  exact ⟨hf, hg⟩

end Workflow
