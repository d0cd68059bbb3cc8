import Workflow.Proofs.Host
import Workflow.Proofs.Plan
import Workflow.Proofs.Resolution
import Workflow.Proofs.States
import Workflow.Proofs.StoreClauses

/-!
# Why an invocation is rejected

A step of a plan has only templates and predicates that can be read, so where its host answers every request, an
invocation is never rejected for the text of an expression: only for a value that is missing or does not fit.
-/

namespace Workflow

open Predicate (FromValues fromValues_or_breakdown)

/-- A host that answers whatever it is asked. -/
def Host.Answers {σ : Type} (h : Host σ) : Prop := ∀ r s, ∃ a, (h r s).1 = .ok a

/-- A host that answers what the checks of an invocation ask, and runs its body. -/
structure Host.AnswersChecks {σ : Type} (h : Host σ) : Prop where
  count : ∀ q s, ∃ n, (h (.count q) s).1 = .ok n
  artifact : ∀ path s, ∃ b, (h (.artifact path) s).1 = .ok b
  body : ∀ payload s, ∃ v, (h (.body payload) s).1 = .ok v

theorem Host.Answers.checks {σ : Type} {h : Host σ} (hh : h.Answers) : h.AnswersChecks :=
  ⟨fun _ => hh _, fun _ => hh _, fun _ => hh _⟩

/-- What a stop rejects an invocation for, if it rejects it, has a property. -/
def Stop.Rejects (P : Rejection → Prop) (e : Stop) : Prop := ∀ r, e = .rejected r → P r

/-- If an expression is the reason, then because of the values of a context. -/
def Rejection.FromValues (context : Members) (r : Rejection) : Prop :=
  ∀ f, r = .expression f → Predicate.FromValues context f

/-- An expression that breaks down does not reject an invocation. -/
theorem ExpressionFault.stop_rejects {context : Members} {f : ExpressionFault} (h : FromValues context f ∨ ∃ b, f = .breakdown b) :
    f.stop.Rejects (Rejection.FromValues context) := by
  rintro r hr g rfl
  rcases h with h | ⟨b, rfl⟩
  · unfold ExpressionFault.stop at hr
    split at hr <;> cases hr
    exact h
  · cases hr

theorem Stop.Rejects.ofOutput {P : Rejection → Prop} {e : Stop} (h : e.Rejects P) : e.ofOutput.Rejects P := by
  intro r hr
  cases e with
  | rejected r' =>
    simp only [Stop.ofOutput] at hr
    split at hr <;> cases hr
    exact h _ rfl
  | failed f => cases hr

/-! ## How checks end -/

section
variable {σ α β : Type} {P : Stop → Prop}

def Check.Stops (P : Stop → Prop) (m : Check σ α) : Prop :=
  Run.Keeps (fun _ => True) m.run fun r => ∀ e, r = .error e → P e

namespace Check.Stops

theorem pure {a : α} : Check.Stops P (Pure.pure a : Check σ α) := by
  refine Run.Keeps.pure ?_
  rintro _ ⟨⟩

theorem throw {e : Stop} (he : P e) : Check.Stops P (throw e : Check σ α) := Run.Keeps.pure_error he

theorem bind {m : Check σ α} {f : α → Check σ β} (hm : Check.Stops P m) (hf : ∀ a, Check.Stops P (f a)) :
    Check.Stops P (m >>= f) := by
  unfold Check.Stops
  rw [ExceptT.run_bind]
  refine Run.Keeps.bind hm fun r hr => ?_
  cases r with
  | ok a => exact hf a
  | error e => exact Run.Keeps.pure_error (hr e rfl)

theorem ite {c : Prop} [Decidable c] {m n : Check σ α} (hm : Check.Stops P m) (hn : Check.Stops P n) :
    Check.Stops P (if c then m else n) := by
  split
  · exact hm
  · exact hn

theorem expect {r : Except ExpressionFault α} (h : ∀ f, r = .error f → P f.stop) :
    Check.Stops P (Workflow.expect r : Check σ α) := by
  cases r with
  | ok a => exact pure
  | error f => exact throw (h f rfl)

theorem demand {h : Host σ} {r : Request} (hr : ∀ s, ∃ a, (h r s).1 = .ok a) :
    Check.Stops P (Workflow.demand h r) := by
  unfold Check.Stops Workflow.demand
  rw [ExceptT.run_bind]
  refine Run.Keeps.bind (Q := fun x => ∃ a, x = .ok (.ok a)) (fun s _ => ?_) fun x hx => ?_
  · obtain ⟨a, ha⟩ := hr s.state
    exact ⟨trivial, a, congrArg Except.ok ha⟩
  · obtain ⟨a, rfl⟩ := hx
    exact pure

end Check.Stops

end

/-! ## The input -/

section
variable {σ : Type} {h : Host σ} {payload : Members} {current : Option String}

theorem Check.Stops.reject {α : Type} {P : Rejection → Prop} {r : Rejection} (hr : P r) :
    Check.Stops (Stop.Rejects P) (Workflow.reject r : Check σ α) := .throw (by rintro _ ⟨⟩; exact hr)

theorem checkPayloadFields_stops {names : List String} :
    Check.Stops (Stop.Rejects (Rejection.FromValues payload)) (checkPayloadFields (σ := σ) payload names) := by
  unfold checkPayloadFields
  split
  · exact .reject (by rintro _ ⟨⟩)
  · exact .pure

theorem existenceQuery_eq_error {e table : String} {p : Predicate} {f : ExpressionFault}
    (hp : Predicate.parse e = .ok p) (ht : p.target none = .ok table) (hf : existenceQuery e payload none = .error f) :
    FromValues payload f ∨ ∃ b, f = .breakdown b := by
  unfold existenceQuery at hf
  simp only [hp, ok_bind, ht] at hf
  rcases bind_eq_error.mp hf with hf | ⟨bs, -, hf⟩
  · exact fromValues_or_breakdown hp hf
  rcases mapError_bind_eq_error.mp hf with ⟨b, -, rfl⟩ | ⟨text, -, hf⟩
  · exact .inr ⟨b, rfl⟩
  · cases hf

theorem checkExistence_stops {e table : String} {p : Predicate} (hh : h.AnswersChecks) (hp : Predicate.parse e = .ok p)
    (ht : p.target none = .ok table) : Check.Stops (Stop.Rejects (Rejection.FromValues payload)) (checkExistence h payload e) :=
  .bind (.expect fun _ hf => ExpressionFault.stop_rejects (existenceQuery_eq_error hp ht hf)) fun _ =>
    .bind (.demand (hh.count _)) fun _ => .ite (.reject (by rintro _ ⟨⟩)) .pure

theorem evaluateState_eq_error {e : String} {p : Predicate} {f : ExpressionFault} (hp : IsStatePredicate e p)
    (hf : evaluateState e payload current = .error f) : FromValues payload f ∨ ∃ b, f = .breakdown b := by
  cases hb : p.bind payload e with
  | error g =>
    have hg : evaluateState e payload current = .error g := by
      rw [evaluateState, hp.parse, ok_bind, hp.table, hb]
      rfl
    cases hf.symm.trans hg
    exact fromValues_or_breakdown hp.parse hb
  | ok bs =>
    -- a predicate that is bound is decided
    rw [evaluateState_eq hp hb] at hf
    cases hf

theorem checkCurrentState_stops {e : String} {p : Predicate} (hp : IsStatePredicate e p) :
    Check.Stops (Stop.Rejects (Rejection.FromValues payload)) (checkCurrentState (σ := σ) payload current e) :=
  .bind (.expect fun _ hf => ExpressionFault.stop_rejects (evaluateState_eq_error hp hf)) fun _ => .ite (.reject (by rintro _ ⟨⟩)) .pure

theorem renderTemplate_eq_error {source : String} {context : Members} {f : ExpressionFault} (ht : Template.Readable source)
    (hf : renderTemplate source context = .error f) : (∃ u, f = .unresolved u) ∨ ∃ b, f = .breakdown b := by
  obtain ⟨t, ht⟩ := ht
  simp only [renderTemplate, ht] at hf
  obtain ⟨g, -, rfl⟩ := mapError_eq_error.mp hf
  cases g with
  | unresolved u => exact .inl ⟨u, rfl⟩
  | breakdown b => exact .inr ⟨b, rfl⟩

theorem renderTemplate_rejects {source : String} {context : Members} {f : ExpressionFault} (ht : Template.Readable source)
    (hf : renderTemplate source context = .error f) : f.stop.Rejects (Rejection.FromValues payload) := by
  refine ExpressionFault.stop_rejects ((renderTemplate_eq_error ht hf).imp_left fun hu => ?_)
  obtain ⟨u, rfl⟩ := hu
  exact .unresolved u

theorem checkFiles_stops {files : List String} (hh : h.AnswersChecks) (hf : ∀ f ∈ files, Template.Readable f) :
    Check.Stops (Stop.Rejects (Rejection.FromValues payload)) (checkFiles h payload files) := by
  induction files with
  | nil => exact .pure
  | cons f files ih =>
    obtain ⟨hf, hfiles⟩ := List.forall_mem_cons.mp hf
    exact .bind (.expect fun _ he => renderTemplate_rejects hf he) fun _ =>
      .bind (.demand (hh.artifact _)) fun _ => .ite (ih hfiles) (.reject (by rintro _ ⟨⟩))

theorem checkStepInput_stops {s : Step} (hh : h.AnswersChecks) (hs : s.Readable) :
    Check.Stops (Stop.Rejects (Rejection.FromValues payload)) (checkStepInput h s.rules.input payload current) := by
  have hfiles : Check.Stops (Stop.Rejects (Rejection.FromValues payload)) (checkFiles h payload s.rules.input.files) :=
    checkFiles_stops hh hs.files
  have hstate : ∀ e, s.rules.input.state = some e →
      Check.Stops (Stop.Rejects (Rejection.FromValues payload)) (checkCurrentState (σ := σ) payload current e) := by
    intro e he
    obtain ⟨p, hp⟩ := hs.state e he
    exact checkCurrentState_stops hp
  unfold checkStepInput
  refine .bind checkPayloadFields_stops fun _ => ?_
  cases he : s.rules.input.exist with
  | none =>
    cases hst : s.rules.input.state with
    | none => exact hfiles
    | some e => exact .bind (hstate e hst) fun _ => hfiles
  | some e =>
    obtain ⟨p, table, hp, ht⟩ := hs.exist e he
    refine .bind (checkExistence_stops hh hp ht) fun _ => ?_
    cases hst : s.rules.input.state with
    | none => exact hfiles
    | some e => exact .bind (hstate e hst) fun _ => hfiles

/-! ## The output -/

theorem Rejection.FromValues.output (f : OutputFault) : (Rejection.output f).FromValues payload := by rintro _ ⟨⟩

theorem absentArtifacts_stops {context : Members} {specs : List ArtifactSpec} (hh : h.AnswersChecks)
    (hs : ∀ a ∈ specs, Template.Readable a.file) :
    Check.Stops (Stop.Rejects (Rejection.FromValues payload)) (absentArtifacts h context specs) := by
  induction specs with
  | nil => exact .pure
  | cons a specs ih =>
    obtain ⟨ha, hspecs⟩ := List.forall_mem_cons.mp hs
    refine .bind (.expect fun _ hf => renderTemplate_rejects ha hf) fun _ => .bind (.demand (hh.artifact _)) fun _ =>
      .bind (ih hspecs) fun _ => ?_
    split
    · exact .pure
    · exact .pure

theorem checkArtifacts_stops {c : Contract} {output : Members} (hh : h.AnswersChecks)
    (hc : ∀ a ∈ c.contextOut.artifacts, Template.Readable a.file) :
    Check.Stops (Stop.Rejects (Rejection.FromValues payload)) (checkArtifacts h c payload output) := by
  refine .bind (absentArtifacts_stops hh fun a ha => hc a (List.mem_of_mem_filter ha)) fun _ => ?_
  split
  · exact .pure
  · exact .reject (.output _)

theorem checkSuccess_stops {output : Members} :
    Check.Stops (Stop.Rejects (Rejection.FromValues payload)) (checkSuccess (σ := σ) output) := by
  refine .ite .pure ?_
  split
  · exact .throw nofun
  · exact .reject (.output _)

theorem checkFields_stops {output : Members} {names : List String} :
    Check.Stops (Stop.Rejects (Rejection.FromValues payload)) (checkFields (σ := σ) output names) := by
  unfold checkFields
  split
  · exact .throw nofun
  · exact .pure
  · exact .reject (.output _)

theorem checkSchema_stops {schemas : Index OutputCheck} {name : String} {output : Members} :
    Check.Stops (Stop.Rejects (Rejection.FromValues payload)) (checkSchema (σ := σ) schemas name output) := by
  unfold checkSchema
  split
  · exact .pure
  · split
    · exact .pure
    · exact .reject (.output _)

theorem checkStepOutput_stops {schemas : Index OutputCheck} {s : Step} {output : Value} (hh : h.AnswersChecks)
    (hs : s.Readable) :
    Check.Stops (Stop.Rejects (Rejection.FromValues payload)) (checkStepOutput h schemas s payload output) := by
  unfold checkStepOutput
  split
  · rename_i ms
    extract_lets rules finish rest
    have hrest : Check.Stops (Stop.Rejects (Rejection.FromValues payload)) (rest ()) := by
      refine .bind checkFields_stops fun _ => ?_
      cases hc : s.contract? with
      | none => exact .pure
      | some c =>
        exact .bind checkSchema_stops fun _ => .ite (.bind (checkArtifacts_stops hh (hs.artifacts c hc)) fun _ => .pure) .pure
    exact .ite (.bind checkSuccess_stops fun _ => hrest) hrest
  · exact .reject (.output _)

/-! ## Persist actions -/

variable {context : Members}

theorem PersistAction.Fails.cases {a : PersistAction} {f : ExpressionFault} (ha : a.Readable) (hf : a.Fails context f) :
    FromValues context f ∨ ∃ b, f = .breakdown b := by
  cases hf with
  | value hv hf =>
    obtain ⟨t, ht⟩ := ha.values _ hv _ rfl
    rw [ht] at hf
    cases hf
  | clause he hf =>
    obtain ⟨p, hp⟩ := ha.clause _ he
    rw [hp] at hf
    cases hf
  | operand _ _ _ hf => exact .inl hf
  | brokenValue | brokenOperand | brokenClause => exact .inr ⟨_, rfl⟩

theorem prepareAll_eq_error_cases {actions : List PersistAction} {f : ExpressionFault} (ha : ∀ a ∈ actions, a.Readable)
    (hf : prepareAll context 0 actions = .error f) : FromValues context f ∨ ∃ b, f = .breakdown b := by
  obtain ⟨before, a, after, rfl, -, hf⟩ := prepareAll_eq_error hf
  exact (prepare_fails hf).cases (ha a (by simp))

def Unregistered (f : Failure) : Prop := ∃ ref, f = .unregistered ref

theorem bind_ask {α : Type} {r : Request} {f : Except Failure r.Reply → Run σ α} {Q : α → Prop} (hh : h.Answers)
    (hf : ∀ a, Run.Keeps (fun _ => True) (f (.ok a)) Q) : Run.Keeps (fun _ => True) (Run.ask h r >>= f) Q := by
  refine .bind (Q := fun x => ∃ a, x = .ok a) (.ask fun s _ => ⟨trivial, hh r s⟩) fun x hx => ?_
  obtain ⟨a, rfl⟩ := hx
  exact hf a

theorem applyAction_fails {registered : List String} {p : Prepared} (hh : h.Answers) :
    Run.Keeps (fun _ => True) (applyAction h registered context p) fun r => ∀ f, r = .error f → Unregistered f := by
  unfold applyAction
  split
  · exact bind_ask hh fun _ => .pure (by simp)
  · exact bind_ask hh fun _ => .pure (by simp)
  · exact bind_ask hh fun _ => .pure (by simp)
  · split
    · exact bind_ask hh fun _ => .pure (by simp)
    · exact .pure_error ⟨_, rfl⟩

theorem noteEmptyColumns_keeps (p : Prepared) :
    Run.Keeps (fun _ => True) (noteEmptyColumns (σ := σ) p) fun _ => True := by
  unfold noteEmptyColumns
  split
  · exact .pure trivial
  · exact .note

theorem applyPrepared_fails {registered : List String} {applied : List MutationRecord} {ps : List Prepared}
    (hh : h.Answers) : Run.Keeps (fun _ => True) (applyPrepared h registered context applied ps) fun r =>
      ∀ f, r = .error f → Unregistered f.cause := by
  induction ps generalizing applied with
  | nil => exact .pure (by simp)
  | cons p ps ih =>
    refine .bind (noteEmptyColumns_keeps p) fun _ _ => .bind (applyAction_fails hh) fun x hx => ?_
    split
    · exact ih
    · exact .bind .note fun _ _ => .pure_error (hx _ rfl)

inductive PersistFault.Expected (context : Members) : PersistFault → Prop
  | unresolved {f : ExpressionFault} : FromValues context f → Expected context (.unresolved f)
  | failed {f : PersistFailure} : Unregistered f.cause → Expected context (.failed f)

theorem applyActions_fails {registered : List String} {actions : List PersistAction} (hh : h.Answers)
    (ha : ∀ a ∈ actions, a.Readable) :
    Run.Keeps (fun _ => True) (applyActions h registered context actions) fun r =>
      ∀ f, r = .error f → f.Expected context ∨ ∃ b, f = .unresolved (.breakdown b) := by
  unfold applyActions
  split
  · rename_i f hf
    refine .pure_error ?_
    rcases prepareAll_eq_error_cases ha hf with hf | ⟨b, rfl⟩
    · exact .inl (.unresolved hf)
    · exact .inr ⟨b, rfl⟩
  · refine .bind (applyPrepared_fails hh) fun x hx => ?_
    split
    · exact .pure (by simp)
    · exact .pure_error (.inl (.failed (hx _ rfl)))

/-! ## Invocations -/

/-- Expressions reject an invocation, or keep its actions from being applied, because of values only. -/
structure Invocation.FromValues (payload : Members) (i : Invocation) : Prop where
  rejection : ∀ f, i.rejection = some (.expression f) → Predicate.FromValues payload f
  persistFault : ∀ f, i.persistFault = some f → ∃ output, i.output = some output ∧ f.Expected (resultContext payload output)

end

section
variable {σ : Type} {h : Host σ} {name : String} {payload : Members} {current : Option String}

theorem rejectedAt_fromValues {phases : List Phase} {phase : Phase} {output : Option Members} {r : Rejection}
    (hr : r.FromValues payload) :
    Run.Keeps (fun _ => True) (rejectedAt (σ := σ) name phases phase output r) (Invocation.FromValues payload) := by
  refine .bind .note fun _ _ => .pure ⟨?_, by simp⟩
  rintro f ⟨⟩
  exact hr f rfl

/-- An action that breaks down is no fault that an invocation tells. -/
theorem mutationsOf_fault {x : Except PersistFault (List MutationRecord)} {rs : List MutationRecord}
    {fault : Option PersistFault} (h : mutationsOf x = .ok (rs, fault)) :
    ∀ f, fault = some f → x = .error f ∧ ∀ b, f ≠ .unresolved (.breakdown b) := by
  rcases x with (f | f) | rs
  · simp only [mutationsOf] at h
    split at h
    · cases h
    · rename_i hnone
      cases h
      rintro _ ⟨⟩
      refine ⟨rfl, ?_⟩
      rintro b ⟨⟩
      cases hnone
  · cases h
    rintro _ ⟨⟩
    exact ⟨rfl, nofun⟩
  · cases h
    nofun

theorem notePersistFault_keeps {fault : Option PersistFault} :
    Run.Keeps (fun _ => True) (notePersistFault (σ := σ) name fault) fun _ => True := by
  unfold notePersistFault
  split
  · exact .note
  · exact .pure trivial

theorem commit_fromValues {custom : List String} {actions : List PersistAction} {output : Members} (hh : h.Answers)
    (ha : ∀ a ∈ actions, a.Readable) : Run.Keeps (fun _ => True) (commit h custom name actions payload output) fun r =>
      ∀ i, r = .ok i → i.FromValues payload := by
  refine .bind (applyActions_fails hh ha) fun x hx => ?_
  split
  · exact .pure (by rintro _ ⟨⟩)
  · rename_i rs fault hm
    refine .bind notePersistFault_keeps fun _ _ => .bind .note fun _ _ => .pure_ok ?_
    refine ⟨by simp, fun f hf => ⟨output, rfl, ?_⟩⟩
    obtain ⟨hfault, hne⟩ := mutationsOf_fault hm f hf
    exact (hx f hfault).resolve_right fun ⟨b, hb⟩ => hne b hb

theorem runStep_fromValues {c : Capabilities} {step : Step} (hh : h.Answers) (hs : step.Readable) :
    Run.Keeps (fun _ => True) (runStep h c name step payload current) fun r => ∀ i, r = .ok i → i.FromValues payload := by
  refine .bind (checkStepInput_stops hh.checks hs) fun r he => ?_
  cases r with
  | error e =>
    have he : e.Rejects (Rejection.FromValues payload) := he e rfl
    cases e with
    | rejected r => exact .bind (rejectedAt_fromValues (he r rfl)) fun i hi => .pure_ok hi
    | failed f => exact .pure (by rintro _ ⟨⟩)
  | ok _ =>
    refine bind_ask hh fun output => ?_
    refine .bind (checkStepOutput_stops hh.checks hs) fun r he => ?_
    cases r with
    | error e =>
      have he : e.ofOutput.Rejects (Rejection.FromValues payload) := (he e rfl).ofOutput
      simp only [Except.mapError]
      generalize e.ofOutput = e at he
      cases e with
      | rejected r => exact .bind (rejectedAt_fromValues (he r rfl)) fun i hi => .pure_ok hi
      | failed f => exact .pure (by rintro _ ⟨⟩)
    | ok ms => exact commit_fromValues hh hs.persist

variable {settings : Settings} {custom : Option (List String)} {source : Option String}
  {loaded : Except (List Diagnostic) Manifest} {compilation : Compilation} {plan : Plan}

theorem step_readable (hc : compile settings custom source loaded = .ok compilation) (hp : compilation.plan = some plan)
    {step : Step} (hs : plan.step name = .ok step) : step.Readable :=
  (compile_sound hc hp).2.readable step ((compile_indexes hc hp).declared hs)

/-- An expression of an accepted manifest rejects an invocation, or keeps its actions from being applied, only because an
operand has no value or one that does not fit. -/
theorem invoke_fromValues (hc : compile settings custom source loaded = .ok compilation)
    (hp : compilation.plan = some plan) (hh : h.Answers) {c : Capabilities} {session : Session σ} {i : Invocation}
    (hi : (plan.invoke h c name payload current session).1 = .ok i) : i.FromValues payload := by
  have hk : Run.Keeps (fun _ => True) (plan.invoke h c name payload current) fun r =>
      ∀ i, r = .ok i → i.FromValues payload := by
    unfold Plan.invoke
    split
    · exact .pure (by rintro _ ⟨⟩)
    · rename_i step hs
      refine .bind (runStep_fromValues hh (step_readable hc hp hs)) fun r hr => ?_
      split
      · exact .pure_ok (hr _ rfl)
      · exact .pure (by rintro _ ⟨⟩)
  exact (hk session trivial).2 i hi

end

theorem obliging_answers : obliging.Answers := by
  intro r s
  cases r <;> exact ⟨_, rfl⟩

/-- A payload with a sequence where a column is compared with it. -/
def listPayload : Members := [(.text "id", .list [])]

theorem invoke_fromValues_list : ∃ c plan i,
    compile .standard none none (Manifest.load (workshop "owner = :actor" 1000)) = .ok c ∧
    c.plan = some plan ∧ obliging.Answers ∧
    (plan.invoke obliging everything "clerk" listPayload none ⟨(), []⟩).1 = .ok i ∧
    i.rejection.map Rejection.kind = some "UnsupportedPredicateError" ∧ i.FromValues listPayload := by
  have hc : (compile .standard none none (Manifest.load (workshop "owner = :actor" 1000))).toOption.any
      (fun c => c.plan.any fun plan =>
        (plan.invoke obliging everything "clerk" listPayload none ⟨(), []⟩).1.toOption.any fun i =>
          decide (i.rejection.map Rejection.kind = some "UnsupportedPredicateError")) = true := by
    decide +kernel
  obtain ⟨c, hc, hp⟩ := any_toOption.mp hc
  obtain ⟨plan, hp, hi⟩ := (Option.any_eq_true ..).mp hp
  obtain ⟨i, hi, hk⟩ := any_toOption.mp hi
  exact ⟨c, plan, i, hc, hp, obliging_answers, hi, of_decide_eq_true hk,
    invoke_fromValues hc hp obliging_answers hi⟩

end Workflow
