import Workflow.Proofs.Decisions
import Workflow.Proofs.Rejections

/-!
# Invocations return

Whatever a check, a store or a custom action has to say against an invocation is part of what the invocation returns. Only
a breakdown is not. Where there is none, the invocation returns, and the first one is what ends it.
-/

namespace Workflow

open Predicate (FromValues)

/-! ## Where an invocation breaks down -/

/-- A rule of an input whose expression breaks down. -/
inductive InputCheck.Breaks (payload : Members) (current : Option String) : InputCheck → Breakdown → Prop
  | existence {e : String} {b : Breakdown} : existenceQuery e payload none = .error (.breakdown b) →
      Breaks payload current (.existence e) b
  | state {e : String} {b : Breakdown} : evaluateState e payload current = .error (.breakdown b) →
      Breaks payload current (.state e) b
  | file {source : String} {b : Breakdown} : renderTemplate source payload = .error (.breakdown b) →
      Breaks payload current (.file source) b

section
variable {σ : Type} (h : Host σ) (c : Capabilities) (s : Step) (payload : Members) (current : Option String) (state : σ)

/-- The input of a step is accepted, and its body returns an output and leaves the host in a state. -/
structure Step.Receives (v : Value) (next : σ) : Prop where
  met : Met h payload current state s.rules.input.checks
  returned : (h (.body payload) (h.after state (asksFor payload s.rules.input.checks))).1 = .ok v
  next : h.after state (asksFor payload s.rules.input.checks ++ [.body payload]) = next

/-- The first breakdown of an invocation: in a rule of the input after others that are met, in the check of an output, or in
an action once the output is accepted. -/
inductive Step.Breaks : Breakdown → Prop
  | rule {before after : List InputCheck} {check : InputCheck} {b : Breakdown} :
      s.rules.input.checks = before ++ check :: after → Met h payload current state before → check.Breaks payload current b →
      Breaks b
  | output {output : Members} {next : σ} {b : Breakdown} : s.Receives h payload current state (.mapping output) next →
      s.Unjudged h c.schemas payload next output (.breakdown b) → Breaks b
  | action {output : Members} {next : σ} {b : Breakdown} : s.Receives h payload current state (.mapping output) next →
      s.Accepts h c.schemas payload next output →
      prepareAll (resultContext payload output) 0 s.rules.persist = .error (.breakdown b) → Breaks b

end

/-! ## The input -/

section
variable {σ : Type} {h : Host σ} {s : Step} {payload : Members} {current : Option String} {state : σ}

/-- An expression of a step that is not applied rejects an invocation or breaks down. -/
theorem ExpressionFault.stop_cases {context : Members} {f : ExpressionFault}
    (hf : FromValues context f ∨ ∃ b, f = .breakdown b) : (∃ r, f.stop = .rejected r) ∨ ∃ b, f = .breakdown b := by
  refine hf.imp_left fun hv => ⟨.expression f, ?_⟩
  cases hv <;> rfl

theorem InputCheck.Breaks.verdict {check : InputCheck} {b : Breakdown} (hb : check.Breaks payload current b) :
    check.verdict h payload current state = .error (.failed (.breakdown b)) := by
  cases hb with
  | existence hf => exact mapError_bind_eq_error.mpr (.inl ⟨_, hf, rfl⟩)
  | state hf => exact mapError_bind_eq_error.mpr (.inl ⟨_, hf, rfl⟩)
  | file hf => exact mapError_bind_eq_error.mpr (.inl ⟨_, hf, rfl⟩)

/-- A rule of a readable step rejects an invocation or breaks down, if it is not met. -/
theorem Step.Readable.verdict_cases (hs : s.Readable) (hh : h.AnswersChecks) {check : InputCheck}
    (hm : check ∈ s.rules.input.checks) {e : Stop} (he : check.verdict h payload current state = .error e) :
    (∃ r, e = .rejected r) ∨ ∃ b, e = .failed (.breakdown b) ∧ check.Breaks payload current b := by
  cases check with
  | field n =>
    simp only [InputCheck.verdict] at he
    split at he <;> cases he
    exact .inl ⟨_, rfl⟩
  | existence e' =>
    obtain ⟨p, table, hp, ht⟩ := hs.exist e' (by simpa [ValidationRule.checks] using hm)
    rcases mapError_bind_eq_error.mp he with ⟨f, hf, rfl⟩ | ⟨q, -, he⟩
    · rcases ExpressionFault.stop_cases (existenceQuery_eq_error hp ht hf) with hr | ⟨b, rfl⟩
      · exact .inl hr
      · exact .inr ⟨b, rfl, .existence hf⟩
    · obtain ⟨n, hn⟩ := hh.count q state
      rw [hn] at he
      simp only [Except.mapError, ok_bind] at he
      split at he <;> cases he
      exact .inl ⟨_, rfl⟩
  | state e' =>
    obtain ⟨p, hp⟩ := hs.state e' (by simpa [ValidationRule.checks] using hm)
    rcases mapError_bind_eq_error.mp he with ⟨f, hf, rfl⟩ | ⟨holds, -, he⟩
    · rcases ExpressionFault.stop_cases (evaluateState_eq_error hp hf) with hr | ⟨b, rfl⟩
      · exact .inl hr
      · exact .inr ⟨b, rfl, .state hf⟩
    · split at he <;> cases he
      exact .inl ⟨_, rfl⟩
  | file source =>
    have hreadable : Template.Readable source := hs.files source (by simpa [ValidationRule.checks] using hm)
    rcases mapError_bind_eq_error.mp he with ⟨f, hf, rfl⟩ | ⟨path, -, he⟩
    · rcases renderTemplate_eq_error hreadable hf with ⟨u, rfl⟩ | ⟨b, rfl⟩
      · exact .inl ⟨_, rfl⟩
      · exact .inr ⟨b, rfl, .file hf⟩
    · obtain ⟨there, hthere⟩ := hh.artifact path state
      rw [hthere] at he
      simp only [Except.mapError, ok_bind] at he
      split at he <;> cases he
      exact .inl ⟨_, rfl⟩

/-! ## The output -/

theorem Unprobed.breaks {context : Members} {a : ArtifactSpec} {e : Stop} {f : Failure} (hu : Unprobed h context state a e)
    (ha : Template.Readable a.file) (hh : h.AnswersChecks) (he : e.ofOutput = .failed f) : ∃ b, f = .breakdown b := by
  cases hu with
  | unresolved hf =>
    rcases renderTemplate_eq_error ha hf with ⟨u, rfl⟩ | ⟨b, rfl⟩
    · cases he
    · exact ⟨b, (Stop.failed.inj he).symm⟩
  | unanswered hpath hf =>
    obtain ⟨there, hthere⟩ := hh.artifact _ state
    cases hthere.symm.trans hf

theorem Step.Readable.requiredArtifacts (hs : s.Readable) : ∀ a ∈ s.requiredArtifacts, Template.Readable a.file := by
  intro a ha
  unfold Step.requiredArtifacts at ha
  split at ha
  · rename_i c hc
    split at ha
    · exact hs.artifacts c hc a (List.mem_of_mem_filter ha)
    · cases ha
  · cases ha

theorem Step.Unjudged.breaks {schemas : Index OutputCheck} {output : Members} {f : Failure}
    (hu : s.Unjudged h schemas payload state output f) (hs : s.Readable) (hh : h.AnswersChecks) : ∃ b, f = .breakdown b := by
  cases hu with
  | error => exact ⟨_, rfl⟩
  | field => exact ⟨_, rfl⟩
  | unprobed _ _ _ hsplit _ hu he => exact hu.breaks (hs.requiredArtifacts _ (by simp [hsplit])) hh he

/-! ## The actions -/

theorem applyActions_eq_unresolved {registered : List String} {context : Members} {actions : List PersistAction}
    {session : Session σ} {f : ExpressionFault} :
    (applyActions h registered context actions session).1 = .error (.unresolved f) ↔
      prepareAll context 0 actions = .error f := by
  cases hp : prepareAll context 0 actions with
  | error g =>
    rw [applyActions_unprepared hp]
    simp
  | ok ps =>
    generalize hx : applyPrepared h registered context [] ps session = x
    obtain ⟨r, session'⟩ := x
    unfold applyActions
    rw [hp]
    dsimp only
    rw [Run.bind_apply hx]
    cases r <;> exact iff_of_false nofun nofun

/-- What became of the actions is told, if none of them breaks down. -/
theorem mutationsOf_cases {context : Members} {x : Except PersistFault (List MutationRecord)}
    (hx : ∀ f, x = .error (.unresolved f) → FromValues context f ∨ ∃ b, f = .breakdown b) :
    (∃ m, mutationsOf x = .ok m) ∨ ∃ b, x = .error (.unresolved (.breakdown b)) := by
  rcases x with (f | f) | rs
  · rcases hx f rfl with hf | ⟨b, rfl⟩
    · refine .inl ⟨([], some (.unresolved f)), ?_⟩
      cases hf <;> rfl
    · exact .inr ⟨b, rfl⟩
  · exact .inl ⟨_, rfl⟩
  · exact .inl ⟨_, rfl⟩

/-! ## Steps -/

variable {c : Capabilities} {name : String} {b : Breakdown}

theorem runStep_returns_or_breaks (hs : s.Readable) (hh : h.AnswersChecks) :
    (runStep (recording h) c name s payload current).Leads state fun _ r =>
      (∃ i, r = .ok i) ∨ ∃ b, s.Breaks h c payload current state b := by
  rcases met_or_stops s.rules.input.checks state with hm | ⟨before, check, after, e, hsplit, hm, he⟩
  · obtain ⟨v, hv⟩ := hh.body payload (h.after state (asksFor payload s.rules.input.checks))
    rcases accepts_or_refuses v with ⟨output, rfl, ha⟩ | ⟨r, hr⟩ | ⟨output, f, rfl, hu⟩
    · obtain ⟨t, ht⟩ := ha.ends
      refine (runStep_committed hm hv ht).mono ?_
      rintro _ _ ⟨-, x, session, hx, rfl⟩
      have hfaults : ∀ f, x = .error (.unresolved f) → FromValues (resultContext payload output) f ∨ ∃ b, f = .breakdown b := by
        intro f hf
        exact prepareAll_eq_error_cases hs.persist (applyActions_eq_unresolved.mp (hx.trans hf))
      rcases mutationsOf_cases hfaults with ⟨m, hmutations⟩ | ⟨b, rfl⟩
      · exact .inl ⟨_, by rw [hmutations]; rfl⟩
      · exact .inr ⟨b, .action ⟨hm, hv, rfl⟩ ha (applyActions_eq_unresolved.mp hx)⟩
    · obtain ⟨t, e, he, hrejected⟩ := hr.ends
      refine (runStep_refused hm hv he).told.mono ?_
      rintro _ _ ⟨-, rfl⟩
      rw [hrejected]
      exact .inl ⟨_, rfl⟩
    · obtain ⟨b, rfl⟩ := hu.breaks hs hh
      obtain ⟨t, e, he, hfailed⟩ := hu.ends
      exact (runStep_refused hm hv he).told.mono fun _ _ _ => .inr ⟨b, .output ⟨hm, hv, rfl⟩ hu⟩
  · have hstops : Check.Ends h (forM (before ++ check :: after) (InputCheck.run (recording h) payload current)) state _ _ :=
      hm.stops he
    rw [← hsplit] at hstops
    refine (runStep_stopped hstops).told.mono ?_
    rintro _ _ ⟨-, rfl⟩
    rcases hs.verdict_cases hh (hsplit ▸ List.mem_append_cons_self) he with ⟨r, rfl⟩ | ⟨b, -, hb⟩
    · exact .inl ⟨_, rfl⟩
    · exact .inr ⟨b, .rule hsplit hm hb⟩

/-- The first breakdown is what ends a step. -/
theorem Step.Breaks.ends (hb : s.Breaks h c payload current state b) :
    (runStep (recording h) c name s payload current).Leads state fun _ r => r = .error (.breakdown b) := by
  cases hb with
  | @rule before after check _ hsplit hm hb =>
    have hstops : Check.Ends h (forM (before ++ check :: after) (InputCheck.run (recording h) payload current)) state _ _ :=
      hm.stops hb.verdict
    rw [← hsplit] at hstops
    refine (runStep_stopped hstops).told.mono ?_
    rintro _ _ ⟨-, rfl⟩
    rfl
  | output hv hu =>
    obtain ⟨hm, hv, rfl⟩ := hv
    obtain ⟨t, e, he, hfailed⟩ := hu.ends
    refine (runStep_refused hm hv he).told.mono ?_
    rintro _ _ ⟨-, rfl⟩
    rw [hfailed]
  | action hv ha hp =>
    obtain ⟨hm, hv, rfl⟩ := hv
    obtain ⟨t, ht⟩ := ha.ends
    refine (runStep_committed hm hv ht).mono ?_
    rintro _ _ ⟨-, x, session, hx, rfl⟩
    rw [← hx, applyActions_eq_unresolved.mpr hp]
    rfl

/-! ## Invocations -/

theorem Run.Records.result_of_leads {α : Type} {m : Run σ α} {m' : Run (σ × List Request) α} {T U : List Request → α → Prop}
    (hm : Run.Records m m' T) (hl : m'.Leads state U) (log : List LogEntry) : ∃ t, U t (m ⟨state, log⟩).1 := by
  obtain ⟨_, he, -⟩ := hm ⟨state, log⟩ []
  obtain ⟨t, -, ht⟩ := hl [] log
  refine ⟨t, ?_⟩
  change U t (m' (Session.recorded ⟨state, log⟩ [])).1 at ht
  rwa [he] at ht

variable {settings : Settings} {custom : Option (List String)} {source : Option String}
  {loaded : Except (List Diagnostic) Manifest} {compilation : Compilation} {plan : Plan} {e : Engine}

/-- **An invocation returns** exactly if nothing breaks down, whatever its payload, its state and its output are, and whatever
the store and the custom actions do. Its first breakdown ends it; nothing else escapes. -/
theorem engine_returns (hc : compile settings custom source loaded = .ok compilation) (hp : compilation.plan = some plan)
    (he : Engine.of plan c = .ok e) (hs : plan.step name = .ok s) (hh : h.AnswersChecks) (payload : Members)
    (current : Option String) (session : Session σ) :
    ((∃ i, ((e.invoke h name payload current).run session).1 = .ok (.ok i)) ↔
      ¬ ∃ b, s.Breaks h c payload current session.state b) ∧
    ∀ b, s.Breaks h c payload current session.state b →
      ((e.invoke h name payload current).run session).1 = .ok (.error (.failed (.breakdown b))) := by
  obtain ⟨rfl, rfl⟩ := engine_of_eq_ok.mp he
  obtain ⟨state, log⟩ := session
  have hreadable : s.Readable := step_readable hc hp hs
  have hrun : ((e.invoke h name payload current).run ⟨state, log⟩).1 =
      .ok ((runStep h e.capabilities name s payload current ⟨state, log⟩).1.mapError .failed) := by
    rw [engine_invoke_eq]
    exact congrArg Except.ok (congrArg Prod.fst (invoke_of_runStep hs rfl))
  have hbreaks : ∀ b, s.Breaks h e.capabilities payload current state b →
      ((e.invoke h name payload current).run ⟨state, log⟩).1 = .ok (.error (.failed (.breakdown b))) := by
    intro b hb
    obtain ⟨_, hr⟩ := runStep_records.result_of_leads hb.ends log
    rw [hrun, hr]
    rfl
  refine ⟨⟨?_, fun hnone => ?_⟩, hbreaks⟩
  · rintro ⟨i, hi⟩ ⟨b, hb⟩
    cases (hbreaks b hb).symm.trans hi
  · obtain ⟨_, hr⟩ := runStep_records.result_of_leads (runStep_returns_or_breaks hreadable hh) log
    obtain ⟨i, hi⟩ := hr.resolve_right hnone
    exact ⟨i, by rw [hrun, hi]; rfl⟩

end

theorem sealedHost_answersChecks : sealedHost.AnswersChecks :=
  ⟨fun _ _ => ⟨_, rfl⟩, fun _ _ => ⟨_, rfl⟩, fun _ _ => ⟨_, rfl⟩⟩

/-- The store fails, and the invocation returns. -/
theorem engine_returns_sealed : ∃ c plan e s i,
    compile .standard none none (Manifest.load (requiring ["success"])) = .ok c ∧ c.plan = some plan ∧
    Engine.of plan withTell = .ok e ∧ plan.step "take" = .ok s ∧ sealedHost.AnswersChecks ∧
    ((e.invoke sealedHost "take" packed none).run ⟨(), []⟩).1 = .ok (.ok i) ∧
    ¬ ∃ b, s.Breaks sealedHost withTell packed none () b := by
  have hc : (planOf (requiring ["success"])).any (fun plan => (Engine.of plan withTell).toOption.any fun e =>
      (plan.step "take").toOption.any fun _ =>
        ((e.invoke sealedHost "take" packed none).run ⟨(), []⟩).1.toOption.any fun r => r.toOption.isSome) = true := by
    decide +kernel
  obtain ⟨plan, hp, hc⟩ := (Option.any_eq_true ..).mp hc
  obtain ⟨e, he, hc⟩ := any_toOption.mp hc
  obtain ⟨s, hs, hc⟩ := any_toOption.mp hc
  obtain ⟨r, hr, hc⟩ := any_toOption.mp hc
  obtain ⟨i, rfl⟩ : ∃ i, r = .ok i := by
    cases r with
    | ok i => exact ⟨i, rfl⟩
    | error f => cases hc
  obtain ⟨c, hc, hp⟩ := planOf_eq_some hp
  obtain ⟨hreturns, -⟩ := engine_returns hc hp he hs sealedHost_answersChecks packed none ⟨(), []⟩
  exact ⟨c, plan, e, s, i, hc, hp, he, hs, sealedHost_answersChecks, hr, hreturns.mp ⟨i, hr⟩⟩

/-- A manifest that is accepted, and whose step asks for a field with a digit that is no decimal digit. -/
theorem engine_returns_superscript : ∃ plan e s, planOf (requiring ["\u00b2"]) = some plan ∧
    Engine.of plan withTell = .ok e ∧ plan.step "take" = .ok s ∧ obliging.Answers ∧
    ∀ i, ((e.invoke obliging "take" packed none).run ⟨(), []⟩).1 ≠ .ok (.ok i) := by
  have hc : (planOf (requiring ["\u00b2"])).any (fun plan => (Engine.of plan withTell).toOption.any fun e =>
      (plan.step "take").toOption.any fun _ =>
        (((e.invoke obliging "take" packed none).run ⟨(), []⟩).1.toOption.any fun r => r.toOption.isNone)) = true := by
    decide +kernel
  obtain ⟨plan, hp, hc⟩ := (Option.any_eq_true ..).mp hc
  obtain ⟨e, he, hc⟩ := any_toOption.mp hc
  obtain ⟨s, hs, hc⟩ := any_toOption.mp hc
  obtain ⟨r, hr, hc⟩ := any_toOption.mp hc
  refine ⟨plan, e, s, hp, he, hs, obliging_answers, fun i hi => ?_⟩
  rw [hi] at hr
  cases hr
  cases hc

end Workflow
