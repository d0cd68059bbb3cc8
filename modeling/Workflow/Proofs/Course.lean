import Workflow.Proofs.Accounting

/-!
# The course of an invocation

An invocation checks its input, runs its body, checks the output and applies the persist actions, in this order, and it
may end at each of these. What it asked by then is what these checks, the body and the actions ask, one after the other.
-/

namespace Workflow

/-- What an invocation returns for what became of its actions. -/
def Invocation.ofCommit (name : String) (output : Members) (m : List MutationRecord × Option PersistFault) : Invocation :=
  ⟨name, [.pending, .inputValidating, .processing, .outputValidating, .committed], some output, none, m.1, m.2⟩

section
variable {σ : Type} (h : Host σ) (c : Capabilities) (name : String) (s : Step) (payload : Members)

/-- Where an invocation ends, with what was asked until then and what is returned. -/
inductive Course : List Request → Except Failure Invocation → Prop
  | input {before : List Request} {r : Except Failure Invocation} : (∀ q ∈ before, s.InputAsks payload q) →
      (∀ i, r = .ok i → ∃ e, i = ⟨name, [.pending, .inputValidating, .inputRejected], none, some e, [], none⟩) →
      Course before r
  | body {before : List Request} {f : Failure} : (∀ q ∈ before, s.InputAsks payload q) →
      Course (before ++ [.body payload]) (.error f)
  | output {before probes : List Request} {state : σ} {v : Value} {r : Except Failure Invocation} :
      (∀ q ∈ before, s.InputAsks payload q) → (h (.body payload) state).1 = .ok v →
      (∀ q ∈ probes, s.OutputAsks payload v q) →
      (∀ i, r = .ok i → ∃ e, i = ⟨name, [.pending, .inputValidating, .processing, .outputValidating, .outputRejected],
        membersOf? v, some e, [], none⟩) →
      Course (before ++ .body payload :: probes) r
  | commit {before probes writes : List Request} {state : σ} {session : Session σ} {output : Members}
      {x : Except PersistFault (List MutationRecord)} :
      (∀ q ∈ before, s.InputAsks payload q) → (h (.body payload) state).1 = .ok (.mapping output) →
      (∀ q ∈ probes, s.OutputAsks payload (.mapping output) q) →
      Persisted h c.custom (resultContext payload output) s.rules.persist writes x →
      (applyActions h c.custom (resultContext payload output) s.rules.persist session).1 = x →
      Course (before ++ .body payload :: (probes ++ writes)) ((mutationsOf x).map (Invocation.ofCommit name output))

variable {h c name s payload}

theorem rejectedAt_records {phases : List Phase} {phase : Phase} {output : Option Members} {e : Rejection} :
    Run.Records (σ := σ) (rejectedAt name phases phase output e) (rejectedAt name phases phase output e) fun t i =>
      t = [] ∧ i = ⟨name, phases ++ [phase], output, some e, [], none⟩ := by
  refine .bind .note fun t _ ht => ?_
  subst ht
  exact .pure ⟨rfl, rfl⟩

theorem notePersistFault_records {fault : Option PersistFault} :
    Run.Records (σ := σ) (notePersistFault name fault) (notePersistFault name fault) fun t _ => t = [] := by
  rcases fault with _ | (f | f)
  · exact .pure rfl
  · exact .note
  · exact .pure rfl

theorem commit_records {custom : List String} {actions : List PersistAction} {output : Members} :
    Run.Records (commit h custom name actions payload output) (commit (recording h) custom name actions payload output)
      fun t r => ∃ x session, Persisted h custom (resultContext payload output) actions t x ∧
        (applyActions h custom (resultContext payload output) actions session).1 = x ∧
        r = (mutationsOf x).map (Invocation.ofCommit name output) := by
  refine .bind applyActions_records.reached fun t x ⟨hx, session, hs⟩ => ?_
  cases hm : mutationsOf x with
  | error f => exact .pure ⟨x, session, by simpa using hx, hs, by rw [hm]; rfl⟩
  | ok m =>
    refine .bind notePersistFault_records fun u _ hu => .bind .note fun u' _ hu' => ?_
    subst hu hu'
    exact .pure ⟨x, session, by simpa using hx, hs, by rw [hm]; rfl⟩

theorem runStep_records {current : Option String} : Run.Records (runStep h c name s payload current)
    (runStep (recording h) c name s payload current) (Course h c name s payload) := by
  refine .bind checkStepInput_asks fun before r ⟨hbefore, _⟩ => ?_
  -- an input that is rejected, or that ends everything, ends the invocation before its body
  rcases r with (e | f) | _
  · refine .bind rejectedAt_records fun t i ⟨ht, hi⟩ => ?_
    subst ht
    have hcourse : Course h c name s payload before (.ok i) := .input hbefore (by rintro _ ⟨⟩; exact ⟨e, hi⟩)
    exact .pure (by simpa using hcourse)
  · have hcourse : Course h c name s payload before (.error f) := .input hbefore (by simp)
    exact .pure (by simpa using hcourse)
  refine .bind .ask fun t r ⟨ht, state, hv⟩ => ?_
  subst ht
  rcases r with f | v
  · exact .pure (.body hbefore)
  refine .bind checkStepOutput_asks fun probes r ⟨hprobes, hr⟩ => ?_
  rcases r with e | output
  · -- some rejections of an output are failures
    simp only [Except.mapError]
    generalize e.ofOutput = e
    rcases e with e | f
    · refine .bind rejectedAt_records fun t i ⟨ht, hi⟩ => ?_
      subst ht
      have hcourse : Course h c name s payload (before ++ .body payload :: probes) (.ok i) :=
        .output hbefore hv hprobes (by rintro _ ⟨⟩; exact ⟨e, hi⟩)
      exact .pure (by simpa using hcourse)
    · have hcourse : Course h c name s payload (before ++ .body payload :: probes) (.error f) :=
        .output hbefore hv hprobes (by simp)
      exact .pure (by simpa using hcourse)
  · obtain rfl := hr output rfl
    refine commit_records.mono fun writes r ⟨x, session, hx, hs, he⟩ => ?_
    subst he
    simpa using Course.commit hbefore hv hprobes hx hs

theorem invoke_records {plan : Plan} {current : Option String} : Run.Records (plan.invoke h c name payload current)
    (plan.invoke (recording h) c name payload current) fun t r => (t = [] ∧ ∃ u, r = .error (.unknownStep u)) ∨
      ∃ s r', plan.step name = .ok s ∧ Course h c name s payload t r' ∧ r = r'.mapError .failed := by
  unfold Plan.invoke
  cases hs : plan.step name with
  | error u => exact .pure (.inl ⟨rfl, u, rfl⟩)
  | ok s =>
    refine .bind runStep_records fun t r hr => ?_
    have hr : Course h c name s payload (t ++ []) r := by simpa using hr
    cases r with
    | ok i => exact .pure (.inr ⟨s, _, rfl, hr, rfl⟩)
    | error f => exact .pure (.inr ⟨s, _, rfl, hr, rfl⟩)

theorem invoke_course {plan : Plan} {current : Option String} {state : σ} {i : Invocation}
    (hi : (plan.invoke h c name payload current ⟨state, []⟩).1 = .ok i) : ∃ s, plan.step name = .ok s ∧
      Course h c name s payload (plan.requests h c name payload current state) (.ok i) := by
  have hrun : Run.Records (plan.invoke h c name payload current) (plan.invoke (recording h) c name payload current) _ :=
    invoke_records
  rcases hrun.result hi with ⟨-, u, hu⟩ | ⟨s, r, hs, hc, hr⟩
  · cases hu
  · exact ⟨s, hs, mapError_eq_ok.mp hr.symm ▸ hc⟩

theorem Course.asks {B : Value → Prop} (hb : ∀ state v, (h (.body payload) state).1 = .ok v → B v) {t : List Request}
    {r : Except Failure Invocation} (hc : Course h c name s payload t r) : ∀ q ∈ t, s.Asks payload B q := by
  cases hc with
  | input hbefore _ => exact fun q hq => .input (hbefore q hq)
  | body hbefore =>
    refine List.forall_mem_append.mpr ⟨fun q hq => .input (hbefore q hq), ?_⟩
    exact List.forall_mem_singleton.mpr .body
  | output hbefore hv hprobes _ =>
    refine List.forall_mem_append.mpr ⟨fun q hq => .input (hbefore q hq), ?_⟩
    exact List.forall_mem_cons.mpr ⟨.body, fun q hq => .output (hb _ _ hv) (hprobes q hq)⟩
  | commit hbefore hv hprobes hx _ =>
    refine List.forall_mem_append.mpr ⟨fun q hq => .input (hbefore q hq), List.forall_mem_cons.mpr ⟨.body, ?_⟩⟩
    refine List.forall_mem_append.mpr ⟨fun q hq => .output (hb _ _ hv) (hprobes q hq), fun q hq => ?_⟩
    obtain ⟨a, ha, n, p, hp, rfl⟩ := hx.asked q hq
    exact .persist (hb _ _ hv) (.action ha hp)

theorem requests_asked {plan : Plan} {current : Option String} {state : σ} {B : Value → Prop}
    (hb : ∀ s v, (h (.body payload) s).1 = .ok v → B v) :
    ∀ r ∈ plan.requests h c name payload current state, ∃ step, plan.step name = .ok step ∧ step.Asks payload B r := by
  intro r hr
  have hrun : Run.Records (plan.invoke h c name payload current) (plan.invoke (recording h) c name payload current) _ :=
    invoke_records
  rcases hrun.result (s := ⟨state, []⟩) rfl with ⟨ht, -⟩ | ⟨step, r', hs, hc, -⟩
  · change plan.requests h c name payload current state = [] at ht
    rw [ht] at hr
    cases hr
  · exact ⟨step, hs, hc.asks hb r hr⟩

end

end Workflow
