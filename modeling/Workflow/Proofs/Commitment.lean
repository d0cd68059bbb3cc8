import Workflow.Proofs.LifeCycle
import Workflow.Proofs.Resolution

/-!
# What an invocation commits

Once its output is accepted, an invocation applies the actions of its step and reports what was recorded. An action that
fails ends the list. One that cannot be resolved keeps all of them from being applied.
-/

namespace Workflow

/-- The records of what was applied. -/
def reported : Except PersistFault (List MutationRecord) → List MutationRecord
  | .ok rs => rs
  | .error (.failed f) => f.applied
  | .error (.unresolved _) => []

theorem mutationsOf_eq_ok {x : Except PersistFault (List MutationRecord)} {m : List MutationRecord × Option PersistFault}
    (h : mutationsOf x = .ok m) : m = (reported x, fault? x) := by
  rcases x with (f | f) | rs
  · simp only [mutationsOf] at h
    split at h
    · cases h
    · exact (Except.ok.inj h).symm
  · exact (Except.ok.inj h).symm
  · exact (Except.ok.inj h).symm

/-! ## Actions that are applied -/

section
variable {σ : Type} {h : Host σ} {c : Capabilities} {name : String} {s : Step} {payload : Members}

/-- What a committed invocation reports of its actions, and what it asked for them in the end. -/
structure Invocation.Reports (i : Invocation) (h : Host σ) (c : Capabilities) (s : Step) (payload output : Members)
    (writes : List Request) (x : Except PersistFault (List MutationRecord)) : Prop where
  accepted : i.output = some output
  result : ∃ session, (applyActions h c.custom (resultContext payload output) s.rules.persist session).1 = x
  mutations : i.mutations = reported x
  persistFault : i.persistFault = fault? x
  accounts : ∀ ps, prepareAll (resultContext payload output) 0 s.rules.persist = .ok ps →
    Accounts h c.custom (resultContext payload output) ps writes x

theorem Persisted.accounts {registered : List String} {context : Members} {actions : List PersistAction}
    {ps : List Prepared} {t : List Request} {x : Except PersistFault (List MutationRecord)}
    (hx : Persisted h registered context actions t x) (hp : prepareAll context 0 actions = .ok ps) :
    Accounts h registered context ps t x := by
  cases hx with
  | unresolved hf =>
    rw [hp] at hf
    cases hf
  | applied hp' hx =>
    rw [hp] at hp'
    cases hp'
    exact hx

theorem Course.reports {t : List Request} {i : Invocation} (hc : Course h c name s payload t (.ok i))
    (hi : i.isCommitted = true) : ∃ output checks writes x, t = checks ++ writes ∧ i.Reports h c s payload output writes x := by
  generalize hr : Except.ok i = r at hc
  cases hc with
  | input hb he =>
    obtain ⟨e, rfl⟩ := he i hr.symm
    cases hi
  | body hb => cases hr
  | output hb hv hp he =>
    obtain ⟨e, rfl⟩ := he i hr.symm
    cases hi
  | @commit before probes writes state session output x hb hv hp hx hs =>
    cases hm : mutationsOf x with
    | error f =>
      rw [hm] at hr
      cases hr
    | ok m =>
      obtain rfl := mutationsOf_eq_ok hm
      rw [hm] at hr
      cases hr
      refine ⟨output, before ++ .body payload :: probes, writes, x, by simp, rfl, ⟨session, hs⟩, rfl, rfl, fun ps hps => ?_⟩
      exact hx.accounts hps

variable (h c name payload) in
/-- **Every action that was prepared is accounted for.** Either all are recorded, or one failed, those before it are
recorded and those behind it were skipped; the host gets one request for each that was tried, in order. An invocation
reports these records. -/
theorem applyActions_accounts :
    (∀ registered context actions ps, prepareAll context 0 actions = .ok ps → ps.map Prepared.action = actions ∧
      Run.Records (applyActions h registered context actions) (applyActions (recording h) registered context actions)
        (Accounts h registered context ps)) ∧
    ∀ plan : Plan, ∀ current state i, (plan.invoke h c name payload current ⟨state, []⟩).1 = .ok i → i.isCommitted = true →
      ∃ s output checks writes x, plan.step name = .ok s ∧
        plan.requests h c name payload current state = checks ++ writes ∧ i.Reports h c s payload output writes x := by
  constructor
  · intro registered context actions ps hps
    exact ⟨prepareAll_actions hps, applyActions_records.mono fun t x hx => hx.accounts hps⟩
  · intro plan current state i hi hcommitted
    obtain ⟨s, hs, hc⟩ := invoke_course hi
    obtain ⟨output, checks, writes, x, ht, hr⟩ := hc.reports hcommitted
    exact ⟨s, output, checks, writes, x, hs, ht, hr⟩

end

/-- A host that inserts nothing. -/
def sealedHost : Host Unit
  | .insert .., s => (.error (.reported "sealed"), s)
  | r, s => obliging r s

theorem applyActions_accounts_sealed : ∃ plan i, planOf (workshop "owner = :actor" 1000) = some plan ∧
    (plan.invoke sealedHost withTell "pack" packed none ⟨(), []⟩).1 = .ok i ∧ i.isCommitted = true ∧
    i.mutations.map MutationRecord.index = [0] ∧ ∃ s output checks writes x, plan.step "pack" = .ok s ∧
      plan.requests sealedHost withTell "pack" packed none () = checks ++ writes ∧
      i.Reports sealedHost withTell s packed output writes x := by
  have hc : (planOf (workshop "owner = :actor" 1000)).any (fun plan =>
      (plan.invoke sealedHost withTell "pack" packed none ⟨(), []⟩).1.toOption.any fun i =>
        i.isCommitted && decide (i.mutations.map MutationRecord.index = [0])) = true := by
    decide +kernel
  obtain ⟨plan, hp, hc⟩ := (Option.any_eq_true ..).mp hc
  obtain ⟨i, hi, hc⟩ := any_toOption.mp hc
  obtain ⟨hcommitted, hm⟩ := Bool.and_eq_true_iff.mp hc
  exact ⟨plan, i, hp, hi, hcommitted, of_decide_eq_true hm,
    (applyActions_accounts sealedHost withTell "pack" packed).2 plan none () i hi hcommitted⟩

/-! ## Actions that cannot be resolved -/

section
variable {σ : Type} {h : Host σ} {c : Capabilities} {name : String} {s : Step} {payload output : Members}
  {current : Option String}

/-- The output of a step, if its input is accepted, its body returns and what it returns is accepted too. -/
def Step.accepted? (h : Host σ) (c : Capabilities) (s : Step) (payload : Members) (current : Option String)
    (session : Session σ) : Option (Members × Session σ) :=
  match (checkStepInput h s.rules.input payload current).run session with
  | (.error _, _) => none
  | (.ok (), session) =>
    match Run.ask h (.body payload) session with
    | (.error _, _) => none
    | (.ok v, session) =>
      match (checkStepOutput h c.schemas s payload v).run session with
      | (.error _, _) => none
      | (.ok output, session) => some (output, session)

theorem Run.bind_apply {α β : Type} {m : Run σ α} {f : α → Run σ β} {s s' : Session σ} {a : α} (hm : m s = (a, s')) :
    (m >>= f) s = f a s' := by
  change f (m s).1 (m s).2 = _
  rw [hm]

theorem runStep_of_accepted {s₀ s₁ : Session σ} (ha : s.accepted? h c payload current s₀ = some (output, s₁)) :
    runStep h c name s payload current s₀ = commit h c.custom name s.rules.persist payload output s₁ := by
  unfold Step.accepted? at ha
  split at ha
  · cases ha
  rename_i hinput
  split at ha
  · cases ha
  rename_i hbody
  split at ha
  · cases ha
  rename_i houtput
  cases ha
  unfold runStep
  rw [Run.bind_apply hinput]
  dsimp only
  rw [Run.bind_apply hbody]
  dsimp only
  rw [Run.bind_apply houtput]
  rfl

theorem invoke_of_runStep {plan : Plan} {s₀ s₁ : Session σ} {r : Except Failure Invocation} (hs : plan.step name = .ok s)
    (hr : runStep h c name s payload current s₀ = (r, s₁)) :
    plan.invoke h c name payload current s₀ = (r.mapError .failed, s₁) := by
  unfold Plan.invoke
  rw [hs]
  dsimp only
  rw [Run.bind_apply hr]
  cases r <;> rfl

theorem commit_unprepared {custom : List String} {actions : List PersistAction} {f : ExpressionFault}
    (hf : prepareAll (resultContext payload output) 0 actions = .error f) (s₀ : Session σ) :
    ∃ s₁, commit h custom name actions payload output s₀ =
      ((mutationsOf (.error (.unresolved f))).map (Invocation.ofCommit name output), s₁) ∧ s₁.state = s₀.state := by
  unfold commit
  rw [Run.bind_apply (applyActions_unprepared hf s₀)]
  simp only [mutationsOf]
  cases f.breakdown? with
  | none => exact ⟨_, rfl, rfl⟩
  | some b => exact ⟨_, rfl, rfl⟩

/-- What comes of an invocation whose output was accepted in a session, if its actions fail with a fault before any of them
is applied. The invocation returns the fault, unless it is a breakdown. -/
structure Plan.Abandons (plan : Plan) (h : Host σ) (c : Capabilities) (name : String) (payload output : Members)
    (current : Option String) (start accepted : Session σ) (f : ExpressionFault) : Prop where
  returns : f.breakdown? = none →
    (plan.invoke h c name payload current start).1 = .ok (.ofCommit name output ([], some (.unresolved f)))
  escapes : ∀ b, f.breakdown? = some b → (plan.invoke h c name payload current start).1 = .error (.failed (.breakdown b))
  state : (plan.invoke h c name payload current start).2.state = accepted.state

theorem invoke_unprepared {plan : Plan} {s₀ s₁ : Session σ} {f : ExpressionFault} (hs : plan.step name = .ok s)
    (ha : s.accepted? h c payload current s₀ = some (output, s₁))
    (hf : prepareAll (resultContext payload output) 0 s.rules.persist = .error f) :
    plan.Abandons h c name payload output current s₀ s₁ f := by
  have hrun : runStep h c name s payload current s₀ = commit h c.custom name s.rules.persist payload output s₁ :=
    runStep_of_accepted ha
  obtain ⟨s₂, hcommit, hstate⟩ := commit_unprepared hf s₁
  have hinvoke := invoke_of_runStep hs (hrun.trans hcommit)
  refine ⟨fun hnone => ?_, fun b hb => ?_, ?_⟩
  · simp only [hinvoke, mutationsOf, hnone]
    rfl
  · simp only [hinvoke, mutationsOf, hb]
    rfl
  · rw [hinvoke]
    exact hstate

/-- **Nothing is written unless every action can be resolved.** Actions one of which cannot be resolved fail with the fault
of the first such action, and the host is not asked. An accepted invocation returns this fault, unless it is a
breakdown. -/
theorem applyActions_unresolved {context : Members} {actions : List PersistAction}
    (hf : ∃ a ∈ actions, ∃ f, a.Fails context f) :
    ∃ before a after f, actions = before ++ a :: after ∧ (∀ b ∈ before, ∀ g, ¬ b.Fails context g) ∧ a.Fails context f ∧
      a.prepare context before.length = .error f ∧ ∀ {σ : Type} (h : Host σ),
        (∀ registered session, applyActions h registered context actions session = (.error (.unresolved f), session)) ∧
        ∀ plan : Plan, ∀ c name s payload current output start accepted, plan.step name = .ok s →
          s.rules.persist = actions → resultContext payload output = context →
          s.accepted? h c payload current start = some (output, accepted) →
          plan.Abandons h c name payload output current start accepted f := by
  obtain ⟨a, ha, g, hg⟩ := hf
  obtain ⟨f, hf⟩ := prepareAll_fails ha hg
  obtain ⟨before, a, after, hactions, hbefore, hprepare⟩ := prepareAll_eq_error hf
  rw [Nat.zero_add] at hprepare
  refine ⟨before, a, after, f, hactions, hbefore, prepare_fails hprepare, hprepare, fun h => ⟨?_, ?_⟩⟩
  · exact fun _ session => applyActions_unprepared hf session
  · rintro plan c name s payload current output start accepted hs rfl rfl haccepted
    exact invoke_unprepared hs haccepted hf

end

open Plan (entry names)

/-- A document whose step applies some actions. -/
def ledger (actions : List Value) : Value := .mapping [
  entry "product" (.mapping [entry "name" (.text "ledger"), entry "version" (.text "1"), entry "description" (.text "")]),
  entry "state_machine" (.mapping [
    entry "initial" (.text "open"),
    entry "states" (.list [.mapping [entry "name" (.text "open"), entry "terminal" (.bool true)]])]),
  entry "events" (.mapping [
    entry "namespace" (.text "ledger"),
    entry "definitions" (.list [.mapping [
      entry "name" (.text "ordered"),
      entry "payload" (.mapping [entry "id" (.mapping [entry "type" (.text "string")])])]])]),
  entry "database" (.mapping [
    entry "actors" (.list [.mapping [entry "name" (.text "clerk"), entry "identifier" (.text "clerk()")]]),
    entry "tables" (.list [.mapping [
      entry "name" (.text "orders"),
      entry "columns" (.list [.mapping [entry "name" (.text "id"), entry "type" (.text "text")]]),
      entry "access" (.list [.mapping [
        entry "actor" (.text "clerk"),
        entry "operations" (names ["ALL"]),
        entry "condition" (.text "id = :actor")]])]])]),
  entry "functions" (.list [.mapping [
    entry "name" (.text "take"),
    entry "pattern" (.text "simple"),
    entry "description" (.text ""),
    entry "trigger" (.mapping [entry "event" (.text "ordered")]),
    entry "persist" (.list actions)]])]

/-- The plan of a document whose references are not checked. -/
def uncheckedPlan (document : Value) : Option Plan := do
  let m ← (Manifest.load document).toOption
  (m.plan []).toOption

def inserted (id : String) : Value := .mapping [
  entry "action" (.text "insert"),
  entry "table" (.text "orders"),
  entry "values" (.mapping [entry "id" (.text id)])]

def told : Value := .mapping [entry "action" (.text "custom"), entry "ref" (.text "tell")]

def renamed (clause : String) : Value := .mapping [
  entry "action" (.text "update"),
  entry "table" (.text "orders"),
  entry "set" (.mapping [entry "id" (.text "")]),
  entry "where" (.text clause)]

def Plan.unresolved? (p : Plan) : Option ExpressionFault := do
  let s ← (p.step "take").toOption
  let (output, _) ← s.accepted? obliging withTell packed none ⟨(), []⟩
  fault? (prepareAll (resultContext packed output) 0 s.rules.persist)

theorem unresolved?_eq_some {plan : Plan} {f : ExpressionFault} (h : plan.unresolved? = some f) : ∃ s output session,
    plan.step "take" = .ok s ∧ s.accepted? obliging withTell packed none ⟨(), []⟩ = some (output, session) ∧
    prepareAll (resultContext packed output) 0 s.rules.persist = .error f := by
  obtain ⟨s, hs, h⟩ := Option.bind_eq_some_iff.mp h
  obtain ⟨⟨output, session⟩, ha, h⟩ := Option.bind_eq_some_iff.mp h
  refine ⟨s, output, session, ?_, ha, ?_⟩
  · cases hp : plan.step "take" with
    | error u => simp [hp, Except.toOption] at hs
    | ok s' => simpa [hp, Except.toOption] using hs
  · dsimp only at h
    cases hf : prepareAll (resultContext packed output) 0 s.rules.persist with
    | ok ps => simp [hf, fault?] at h
    | error g => simpa [hf, fault?] using h

theorem exists_fails {context : Members} {actions : List PersistAction} {f : ExpressionFault}
    (hf : prepareAll context 0 actions = .error f) : ∃ a ∈ actions, ∃ g, a.Fails context g := by
  obtain ⟨before, a, after, rfl, -, ha⟩ := prepareAll_eq_error hf
  exact ⟨a, by simp, f, prepare_fails ha⟩

/-- The last of three actions needs a value that is not there. -/
theorem applyActions_unresolved_reference : ∃ plan s output session f,
    planOf (ledger [told, inserted "\x7b\x7b id \x7d\x7d", renamed "id = \x7b\x7b other \x7d\x7d"]) = some plan ∧
    plan.step "take" = .ok s ∧ s.accepted? obliging withTell packed none ⟨(), []⟩ = some (output, session) ∧
    (∃ a ∈ s.rules.persist, ∃ g, a.Fails (resultContext packed output) g) ∧
    (plan.invoke obliging withTell "take" packed none ⟨(), []⟩).1 =
      .ok (.ofCommit "take" output ([], some (.unresolved f))) := by
  have hc : (planOf (ledger [told, inserted "\x7b\x7b id \x7d\x7d", renamed "id = \x7b\x7b other \x7d\x7d"])).any
      (fun plan => plan.unresolved?.any fun f => decide (f.breakdown? = none)) = true := by
    decide +kernel
  obtain ⟨plan, hp, hc⟩ := (Option.any_eq_true ..).mp hc
  obtain ⟨f, hf, hbreakdown⟩ := (Option.any_eq_true ..).mp hc
  obtain ⟨s, output, session, hs, ha, hf⟩ := unresolved?_eq_some hf
  have hfails : ∃ a ∈ s.rules.persist, ∃ g, a.Fails (resultContext packed output) g := exists_fails hf
  refine ⟨plan, s, output, session, f, hp, hs, ha, hfails, ?_⟩
  obtain ⟨before, a, after, f', -, -, -, -, hrun⟩ := applyActions_unresolved hfails
  obtain ⟨hactions, hinvoke⟩ := hrun obliging
  -- the first fault is the one that was found
  have hsame := hactions [] session
  rw [applyActions_unprepared hf session] at hsame
  cases hsame
  exact (hinvoke plan withTell "take" s packed none output _ session hs rfl rfl ha).returns (of_decide_eq_true hbreakdown)

/-- A template with a digit of another script, in the second of two actions. -/
theorem invoke_unresolved_number : ∃ plan s output session,
    uncheckedPlan (ledger [inserted "\x7b\x7b id \x7d\x7d", inserted "\x7b\x7b 1.\u0665 \x7d\x7d"]) = some plan ∧
    withTell.check plan = .ok () ∧ plan.step "take" = .ok s ∧
    s.accepted? obliging withTell packed none ⟨(), []⟩ = some (output, session) ∧
    (∃ a ∈ s.rules.persist, ∃ g, a.Fails (resultContext packed output) g) ∧
    ∀ i, (plan.invoke obliging withTell "take" packed none ⟨(), []⟩).1 ≠ .ok i := by
  have hc : (uncheckedPlan (ledger [inserted "\x7b\x7b id \x7d\x7d", inserted "\x7b\x7b 1.\u0665 \x7d\x7d"])).any
      (fun plan => decide (withTell.check plan = .ok ()) &&
        plan.unresolved?.any fun f => decide (f.breakdown? = some (.foreign none))) = true := by
    decide +kernel
  obtain ⟨plan, hp, hc⟩ := (Option.any_eq_true ..).mp hc
  obtain ⟨hcheck, hc⟩ := Bool.and_eq_true_iff.mp hc
  obtain ⟨f, hf, hbreakdown⟩ := (Option.any_eq_true ..).mp hc
  obtain ⟨s, output, session, hs, ha, hf⟩ := unresolved?_eq_some hf
  refine ⟨plan, s, output, session, hp, of_decide_eq_true hcheck, hs, ha, exists_fails hf, fun i hi => ?_⟩
  rw [(invoke_unprepared hs ha hf).escapes _ (of_decide_eq_true hbreakdown)] at hi
  cases hi

end Workflow
