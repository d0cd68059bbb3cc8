import Workflow.Engine
import Workflow.Proofs.Commitment

/-!
# Engines lack nothing

An engine is set up only if every step of its plan has the capabilities that it uses. So no assertion of an invocation
fails: the engine does what its plan does with these capabilities. An action never fails because nobody registered it.
-/

namespace Workflow

/-! ## What a step needs -/

structure Capabilities.Suffice (c : Capabilities) (s : Step) : Prop where
  query : s.rules.input.exist.isSome → c.query = true
  artifacts : s.usesArtifacts → c.artifacts = true
  store : s.rules.persist ≠ [] → c.store = true
  custom : ∀ a, .custom a ∈ s.rules.persist → a.ref ∈ c.custom

/-- What a request is for is there. The body of a step always is. -/
def Capabilities.Offer (c : Capabilities) : Request → Prop
  | .count _ => c.query = true
  | .artifact _ => c.artifacts = true
  | .body _ => True
  | .update .. => c.store = true
  | .insert .. => c.store = true
  | .log .. => c.store = true
  | .custom ref _ => ref ∈ c.custom

section
variable {c : Capabilities} {name : String} {s : Step}

theorem unregistered_eq_nil {actions : List PersistAction} :
    c.unregistered actions = [] ↔ ∀ a, .custom a ∈ actions → a.ref ∈ c.custom := by
  rw [Capabilities.unregistered, List.filterMap_eq_nil_iff]
  constructor
  · intro h a ha
    by_contra hm
    simpa [hm] using h _ ha
  · intro h a ha
    cases a with
    | custom x => simp [h x ha]
    | _ => rfl

theorem suffice_of_fault? (h : c.fault? name s = none) : c.Suffice s := by
  unfold Capabilities.fault? at h
  split at h
  · cases h
  rename_i hquery
  split at h
  · cases h
  rename_i hartifacts
  split at h
  · cases h
  rename_i hstore
  simp only [Bool.and_eq_true, Bool.not_eq_true', not_and, Bool.not_eq_false] at hquery hartifacts hstore
  exact ⟨hquery, hartifacts, fun hne => hstore (by simpa using hne), unregistered_eq_nil.mp (by simpa using h)⟩

theorem suffice_of_check {plan : Plan} (hc : c.check plan = .ok ()) (hs : plan.step name = .ok s) : c.Suffice s := by
  unfold Capabilities.check at hc
  split at hc
  · cases hc
  rename_i hnone
  unfold Plan.step at hs
  split at hs
  · rename_i s' hg
    cases hs
    obtain ⟨entry, hf, rfl⟩ := Option.map_eq_some_iff.mp hg
    exact suffice_of_fault? (List.findSome?_eq_none_iff.mp hnone entry (List.mem_of_find?_eq_some hf))
  · cases hs

theorem Capabilities.Suffice.offers (hc : c.Suffice s) {payload : Members} {B : Value → Prop} {r : Request}
    (hr : s.Asks payload B r) : c.Offer r := by
  cases hr with
  | input hr =>
    cases hr with
    | count he _ => exact hc.query (by simp [he])
    | file hf _ =>
      apply hc.artifacts
      simp [Step.usesArtifacts, List.ne_nil_of_mem hf]
  | body => trivial
  | output _ hr =>
    cases hr with
    | artifact hs hrequire _ _ _ =>
      apply hc.artifacts
      simp [Step.usesArtifacts, hs, hrequire]
  | persist _ hr =>
    cases hr with
    | @action a n p ha hp =>
      have hstore := hc.store (List.ne_nil_of_mem ha)
      obtain ⟨hp, -⟩ := prepare_fields hp
      unfold Prepared.request
      cases a with
      | update u => simpa [hp, Offer] using hstore
      | insert r => simpa [hp, Offer] using hstore
      | log r => simpa [hp, Offer] using hstore
      | custom a => simpa [hp, Offer] using hc.custom a ha

theorem engine_of_eq_ok {plan : Plan} {e : Engine} : Engine.of plan c = .ok e ↔ e.plan = plan ∧ e.capabilities = c := by
  constructor
  · intro h
    unfold Engine.of at h
    split at h
    · cases h
      exact ⟨rfl, rfl⟩
    · cases h
  · intro h
    obtain ⟨rfl, rfl⟩ := h
    unfold Engine.of
    split
    · rfl
    · rename_i f hf
      rw [e.complete] at hf
      cases hf

end

/-! ## Assertions that hold -/

section
variable {σ α β : Type} {h : Host σ} {c : Capabilities} {payload : Members} {s : Step}

@[simp] theorem ensure_true {m : Type → Type} [Monad m] [MonadExceptOf Assertion m] (a : Assertion) :
    (ensure true a : m Unit) = pure () := rfl

theorem asserting_pure (a : α) : (pure a : Check σ α).asserting = pure a := rfl

theorem asserting_bind (m : Check σ α) (f : α → Check σ β) :
    (m >>= f).asserting = m.asserting >>= fun a => (f a).asserting := by
  unfold Check.asserting
  apply ExceptT.ext
  rw [ExceptT.run_bind, ExceptT.run_bind]
  apply ExceptT.ext
  simp only [ExceptT.run_mk, ExceptT.run_bind, ExceptT.run_lift, map_bind, bind_map_left]
  congr 1
  funext x
  cases x with
  | ok a => rfl
  | error e => rfl

theorem assertFiles_eq {files : List String} (hf : files ≠ [] → c.artifacts = true) :
    assertFiles h c payload files = (checkFiles h payload files).asserting := by
  induction files with
  | nil => rfl
  | cons source rest ih =>
    have ha := hf (by simp)
    unfold assertFiles checkFiles
    rw [asserting_bind]
    congr 1
    funext path
    rw [ha, ensure_true, pure_bind, asserting_bind]
    congr 1
    funext there
    cases there with
    | true => exact ih fun _ => ha
    | false => rfl

theorem assertStepInput_eq (hc : c.Suffice s) {current : Option String} :
    assertStepInput h c s.rules.input payload current = (checkStepInput h s.rules.input payload current).asserting := by
  have hfiles : assertFiles h c payload s.rules.input.files = (checkFiles h payload s.rules.input.files).asserting := by
    apply assertFiles_eq
    intro hne
    apply hc.artifacts
    simp [Step.usesArtifacts, hne]
  have hquery := hc.query
  unfold assertStepInput checkStepInput
  rw [asserting_bind]
  congr 1
  funext _
  cases he : s.rules.input.exist with
  | none =>
    cases s.rules.input.state with
    | none => exact hfiles
    | some e => simp only [hfiles, asserting_bind]
  | some e =>
    simp only [hquery (by simp [he]), ensure_true, pure_bind, asserting_bind]
    cases s.rules.input.state with
    | none => simp only [hfiles]
    | some e => simp only [hfiles, asserting_bind]

theorem assertStepOutput_eq (hc : c.Suffice s) {v : Value} :
    assertStepOutput h c s payload v = (checkStepOutput h c.schemas s payload v).asserting := by
  cases v with
  | mapping ms =>
    have hartifacts : s.rules.output.requireArtifacts = true → ∀ contract, s.contract? = some contract →
        c.artifacts = true := by
      intro hr contract hs
      apply hc.artifacts
      simp [Step.usesArtifacts, hr, hs]
    simp only [assertStepOutput, checkStepOutput]
    cases hs : s.contract? with
    | none => split <;> simp only [asserting_bind, asserting_pure]
    | some contract =>
      by_cases hr : s.rules.output.requireArtifacts
      · simp only [hr, if_true, hartifacts hr contract hs, ensure_true, pure_bind]
        split <;> simp only [asserting_bind, asserting_pure]
      · simp only [hr, Bool.false_eq_true, if_false]
        split <;> simp only [asserting_bind, asserting_pure]
  | scalar x => rfl
  | list vs => rfl
  | tuple vs => rfl
  | set vs => rfl

theorem asserting_run (m : Check σ α) : m.asserting.run = ExceptT.lift m.run := rfl

theorem lift_bind (m : Run σ α) (f : α → Run σ β) :
    (ExceptT.lift (m >>= f) : Asserting σ β) = ExceptT.lift m >>= fun a => ExceptT.lift (f a) := by
  apply ExceptT.ext
  simp only [ExceptT.run_bind, ExceptT.run_lift, map_bind, bind_map_left]

theorem assertStep_eq (hc : c.Suffice s) {name : String} {current : Option String} :
    assertStep h c name s payload current = ExceptT.lift (runStep h c name s payload current) := by
  unfold assertStep runStep
  rw [assertStepInput_eq hc, asserting_run, lift_bind]
  congr 1
  funext r
  rcases r with (e | f) | _
  · simp only [lift_bind]
    rfl
  · rfl
  · simp only [lift_bind]
    congr 1
    funext r
    rcases r with f | v
    · rfl
    · simp only [assertStepOutput_eq hc, asserting_run, lift_bind]
      congr 1
      funext r
      cases hr : r.mapError Stop.ofOutput with
      | error e =>
        cases e with
        | rejected e =>
          simp only [lift_bind]
          rfl
        | failed f => rfl
      | ok output =>
        -- without actions there is nothing to be asserted
        cases hp : s.rules.persist with
        | nil => rfl
        | cons a actions =>
          simp only [hc.store (by simp [hp])]
          rfl

theorem engine_invoke_eq (e : Engine) {name : String} {current : Option String} :
    e.invoke h name payload current = ExceptT.lift (e.plan.invoke h e.capabilities name payload current) := by
  unfold Engine.invoke Plan.invoke
  cases hs : e.plan.step name with
  | error u => rfl
  | ok s =>
    simp only [assertStep_eq (suffice_of_check e.complete hs), lift_bind]
    congr 1
    funext r
    cases r <;> rfl

end

/-! ## Actions that fail -/

section
variable {σ : Type} {h : Host σ} {c : Capabilities} {name : String} {payload : Members} {s : Step}

theorem mutationsOf_failed {x : Except PersistFault (List MutationRecord)} {ms : List MutationRecord} {f : PersistFailure}
    (h : mutationsOf x = .ok (ms, some (.failed f))) : x = .error (.failed f) := by
  have hm := mutationsOf_eq_ok h
  simp only [Prod.mk.injEq] at hm
  cases x with
  | error g => simpa [fault?] using hm.2.symm
  | ok rs => simp [fault?] at hm

theorem Course.persisted {t : List Request} {i : Invocation} {f : PersistFailure} (hc : Course h c name s payload t (.ok i))
    (hf : i.persistFault = some (.failed f)) : ∃ output writes,
      Persisted h c.custom (resultContext payload output) s.rules.persist writes (.error (.failed f)) := by
  generalize hr : Except.ok i = r at hc
  cases hc with
  | input _ he =>
    obtain ⟨e, rfl⟩ := he i hr.symm
    cases hf
  | body _ => cases hr
  | output _ _ _ he =>
    obtain ⟨e, rfl⟩ := he i hr.symm
    cases hf
  | @commit before probes writes state session output x _ _ _ hx _ =>
    cases hm : mutationsOf x with
    | error g =>
      rw [hm] at hr
      cases hr
    | ok m =>
      rw [hm] at hr
      cases hr
      obtain ⟨ms, fault⟩ := m
      obtain rfl : fault = some (.failed f) := hf
      exact ⟨output, writes, mutationsOf_failed hm ▸ hx⟩

theorem Persisted.answered {registered : List String} {context : Members} {actions : List PersistAction} {t : List Request}
    {f : PersistFailure} (hx : Persisted h registered context actions t (.error (.failed f)))
    (hr : ∀ a, .custom a ∈ actions → a.ref ∈ registered) :
    ∃ p state, p.action ∈ actions ∧ (h (Prepared.request context p) state).1 = .error f.cause := by
  cases hx with
  | @applied ps _ _ hp ha =>
    cases ha with
    | @stopped _ p _ hm ho _ _ _ =>
      have ha : p.action ∈ actions := prepareAll_actions hp ▸ List.mem_map_of_mem (List.mem_of_getElem? hm)
      generalize f.cause = cause at ho ⊢
      cases ho with
      | raised _ _ hf => exact ⟨p, _, ha, hf⟩
      | unregistered hcustom hno => exact absurd (hr _ (hcustom ▸ ha)) hno

/-- **An engine lacks nothing that an invocation uses.** Whatever plan and capabilities it could be set up with, no assertion
fails, and what an invocation asks for is there. An action fails only with what the host answers to it, never because it is
not registered. -/
theorem engine_invoke {plan : Plan} {e : Engine} (he : Engine.of plan c = .ok e) (h : Host σ) (name : String)
    (payload : Members) (current : Option String) (session : Session σ) :
    (e.invoke h name payload current).run session = (.ok <$> plan.invoke h c name payload current : Run σ _).run session ∧
    (∀ r ∈ plan.requests h c name payload current session.state, c.Offer r) ∧
    ∀ i f, (plan.invoke h c name payload current session).1 = .ok i → i.persistFault = some (.failed f) →
      ∃ s p context state, plan.step name = .ok s ∧ p.action ∈ s.rules.persist ∧
        (h (Prepared.request context p) state).1 = .error f.cause := by
  obtain ⟨rfl, rfl⟩ := engine_of_eq_ok.mp he
  refine ⟨?_, fun r hr => ?_, fun i f hi hf => ?_⟩
  · rw [engine_invoke_eq]
    rfl
  · obtain ⟨s, hs, ha⟩ := requests_asked (B := fun _ => True) (fun _ _ _ => trivial) r hr
    exact (suffice_of_check e.complete hs).offers ha
  · have hrun : Run.Records (e.plan.invoke h e.capabilities name payload current) _ _ := invoke_records
    obtain ⟨-, u, hu⟩ | ⟨s, r, hs, hcourse, hr⟩ := hrun.result hi
    · cases hu
    · rw [mapError_eq_ok.mp hr.symm] at hcourse
      obtain ⟨output, writes, hx⟩ := hcourse.persisted hf
      obtain ⟨p, state, hp, ha⟩ := hx.answered (suffice_of_check e.complete hs).custom
      exact ⟨s, p, _, state, hs, hp, ha⟩

end

-- what is missing is noticed when it is to be used
example : ((assertFiles obliging ⟨true, false, true, [], []⟩ [] ["a"]).run.run ⟨(), []⟩).1 = .error .artifacts := rfl

/-- What is enough for a step that runs custom code and adds a row. -/
def tellingAndStore : Capabilities := ⟨false, false, true, ["tell"], []⟩

def Invocation.persistFailure? (i : Invocation) : Option PersistFailure :=
  match i.persistFault with
  | some (.failed f) => some f
  | _ => none

theorem engine_invoke_telling : ∃ plan e i f, planOf (ledger [told, inserted "a"]) = some plan ∧
    Engine.of plan tellingAndStore = .ok e ∧
    ((e.invoke sealedHost "take" packed none).run ⟨(), []⟩).1 = .ok (.ok i) ∧ i.persistFault = some (.failed f) ∧
    (∀ r ∈ plan.requests sealedHost tellingAndStore "take" packed none (), tellingAndStore.Offer r) ∧
    ∃ s p context state, plan.step "take" = .ok s ∧ p.action ∈ s.rules.persist ∧
      (sealedHost (Prepared.request context p) state).1 = .error f.cause := by
  have hc : (planOf (ledger [told, inserted "a"])).any (fun plan =>
      (Engine.of plan tellingAndStore).toOption.any (fun _ => true) &&
        (plan.invoke sealedHost tellingAndStore "take" packed none ⟨(), []⟩).1.toOption.any fun i =>
          i.persistFailure?.any fun _ => true) = true := by
    decide +kernel
  obtain ⟨plan, hp, hc⟩ := (Option.any_eq_true ..).mp hc
  obtain ⟨he, hi⟩ := Bool.and_eq_true_iff.mp hc
  obtain ⟨e, he, -⟩ := any_toOption.mp he
  obtain ⟨i, hi, hf⟩ := any_toOption.mp hi
  obtain ⟨f, hf, -⟩ := (Option.any_eq_true ..).mp hf
  have hf : i.persistFault = some (.failed f) := by
    unfold Invocation.persistFailure? at hf
    split at hf
    · rename_i g hg
      cases hf
      exact hg
    · cases hf
  obtain ⟨hrun, hoffer, hanswered⟩ := engine_invoke he sealedHost "take" packed none ⟨(), []⟩
  refine ⟨plan, e, i, f, hp, he, ?_, hf, hoffer, hanswered i f hi hf⟩
  rw [hrun]
  exact congrArg Except.ok hi

end Workflow
