import Workflow.Proofs.InputChecks
import Workflow.Proofs.OutputChecks
import Workflow.Proofs.Engine

/-!
# What decides on an invocation

The first rule of the input that is not met rejects an invocation, and nothing is asked for the rules behind it. If all are
met, the body runs, and what it returns decides whether the invocation is committed.
-/

namespace Workflow

section
variable {σ : Type} {h : Host σ} {payload : Members} {current : Option String} {state : σ} {checks before : List InputCheck}
  {check : InputCheck} {r : Rejection}

theorem FirstUnmet.ends (hu : FirstUnmet h payload current state checks before check r) :
    Check.Ends h (forM checks (InputCheck.run (recording h) payload current)) state (asksFor payload (before ++ [check]))
      (.error (.rejected r)) := by
  obtain ⟨after, rfl⟩ := hu.split
  exact hu.met.stops (InputCheck.fails_iff.mp hu.fails)

theorem Met.not_firstUnmet (hm : Met h payload current state checks) :
    ¬ FirstUnmet h payload current state checks before check r := by
  intro hu
  cases (hm.ends.unique hu.ends).2

/-- How an invocation that returns was decided: by the first rule of its input that is not met, or by its output. -/
structure Step.Decides (s : Step) (h : Host σ) (schemas : Index OutputCheck) (payload : Members) (current : Option String)
    (state : σ) (i : Invocation) (requests : List Request) : Prop where
  inputRejected : i.phase = .inputRejected ↔
    ∃ before check r, FirstUnmet h payload current state s.rules.input.checks before check r
  first : ∀ before check r, FirstUnmet h payload current state s.rules.input.checks before check r →
    i.rejection = some r ∧ requests = asksFor payload (before ++ [check])
  output : i.phase ≠ .inputRejected → ∃ asked v more, Met h payload current state s.rules.input.checks ∧
    asked = asksFor payload s.rules.input.checks ∧ requests = asked ++ .body payload :: more ∧
    (h (.body payload) (h.after state asked)).1 = .ok v ∧
    (i.isCommitted = true ↔ ∃ output, v = .mapping output ∧
      s.Accepts h schemas payload (h.after state (asked ++ [.body payload])) output) ∧
    ∀ r, i.rejection = some r ↔ s.Refuses h schemas payload (h.after state (asked ++ [.body payload])) v r

end

/-! ## Ends of an invocation -/

section
variable {σ : Type} {h : Host σ} {c : Capabilities} {name : String} {s : Step} {payload : Members} {current : Option String}
  {state : σ}

theorem rejectedAt_ends {phases : List Phase} {phase : Phase} {output : Option Members} {r : Rejection} :
    Run.Ends h (rejectedAt name phases phase output r) state [] ⟨name, phases ++ [phase], output, some r, [], none⟩ :=
  .bind (t := []) .note .pure

theorem runStep_stopped {t : List Request} {e : Stop}
    (he : Check.Ends h (forM s.rules.input.checks (InputCheck.run (recording h) payload current)) state t (.error e)) :
    Run.Ends h (runStep (recording h) c name s payload current) state t
      (match e with
      | .rejected r => .ok ⟨name, [.pending, .inputValidating, .inputRejected], none, some r, [], none⟩
      | .failed f => .error f) := by
  rw [← checkStepInput_eq] at he
  refine .bind_quiet he ?_
  cases e with
  | rejected r => exact .bind_quiet rejectedAt_ends .pure
  | failed f => exact .pure

variable {v : Value}

theorem runStep_unreturned {f : Failure} (hm : Met h payload current state s.rules.input.checks)
    (hf : (h (.body payload) (h.after state (asksFor payload s.rules.input.checks))).1 = .error f) :
    Run.Ends h (runStep (recording h) c name s payload current) state
      (asksFor payload s.rules.input.checks ++ [.body payload]) (.error f) :=
  .bind hm.input_ends (.bind_quiet (.ask hf) .pure)

theorem runStep_refused {t : List Request} {e : Stop} (hm : Met h payload current state s.rules.input.checks)
    (hv : (h (.body payload) (h.after state (asksFor payload s.rules.input.checks))).1 = .ok v)
    (he : Check.Ends h (checkStepOutput (recording h) c.schemas s payload v)
      (h.after state (asksFor payload s.rules.input.checks ++ [.body payload])) t (.error e)) :
    Run.Ends h (runStep (recording h) c name s payload current) state (asksFor payload s.rules.input.checks ++ .body payload :: t)
      (match e.ofOutput with
      | .rejected r => .ok ⟨name, [.pending, .inputValidating, .processing, .outputValidating, .outputRejected],
          membersOf? v, some r, [], none⟩
      | .failed f => .error f) := by
  rw [after_append] at he
  refine .bind hm.input_ends (.bind (t := [.body payload]) (.ask hv) (.bind_quiet he ?_))
  simp only [Except.mapError]
  cases e.ofOutput with
  | rejected r => exact .bind_quiet rejectedAt_ends .pure
  | failed f => exact .pure

theorem runStep_committed {t : List Request} {output : Members} (hm : Met h payload current state s.rules.input.checks)
    (hv : (h (.body payload) (h.after state (asksFor payload s.rules.input.checks))).1 = .ok v)
    (ho : Check.Ends h (checkStepOutput (recording h) c.schemas s payload v)
      (h.after state (asksFor payload s.rules.input.checks ++ [.body payload])) t (.ok output)) :
    (runStep (recording h) c name s payload current).Leads state fun u r =>
      (∃ more, u = asksFor payload s.rules.input.checks ++ .body payload :: more) ∧
        ∃ x session, (applyActions h c.custom (resultContext payload output) s.rules.persist session).1 = x ∧
          r = (mutationsOf x).map (Invocation.ofCommit name output) := by
  rw [after_append] at ho
  refine hm.input_ends.leads (Run.Ends.leads (.ask hv) (ho.leads (commit_records.mono ?_).leads))
  rintro u r ⟨x, session, -, hx, hr⟩
  exact ⟨⟨t ++ u, rfl⟩, x, session, hx, hr⟩

/-! ## What decides -/

theorem FirstUnmet.decides {before : List InputCheck} {check : InputCheck} {r : Rejection}
    (hu : FirstUnmet h payload current state s.rules.input.checks before check r) {i : Invocation}
    (hphase : i.phase = .inputRejected) (hi : i.rejection = some r) :
    s.Decides h c.schemas payload current state i (asksFor payload (before ++ [check])) := by
  refine ⟨iff_of_true hphase ⟨before, check, r, hu⟩, fun before' check' r' hu' => ?_, (absurd hphase ·)⟩
  obtain ⟨ht, hr⟩ := hu.ends.unique hu'.ends
  cases hr
  exact ⟨hi, ht⟩

theorem Met.decides (hm : Met h payload current state s.rules.input.checks)
    (hv : (h (.body payload) (h.after state (asksFor payload s.rules.input.checks))).1 = .ok v) {i : Invocation}
    {more : List Request} (hphase : i.phase ≠ .inputRejected)
    (hcommitted : i.isCommitted = true ↔ ∃ output, v = .mapping output ∧
      s.Accepts h c.schemas payload (h.after state (asksFor payload s.rules.input.checks ++ [.body payload])) output)
    (hrejection : ∀ r, i.rejection = some r ↔
      s.Refuses h c.schemas payload (h.after state (asksFor payload s.rules.input.checks ++ [.body payload])) v r) :
    s.Decides h c.schemas payload current state i (asksFor payload s.rules.input.checks ++ .body payload :: more) where
  inputRejected := iff_of_false hphase fun ⟨_, _, _, hu⟩ => hm.not_firstUnmet hu
  first _ _ _ hu := absurd hu hm.not_firstUnmet
  output _ := ⟨_, v, more, hm, rfl, rfl, hv, hcommitted, hrejection⟩

theorem Step.Accepts.not_refuses {output : Members} {r : Rejection} (ha : s.Accepts h c.schemas payload state output) :
    ¬ s.Refuses h c.schemas payload state (.mapping output) r := by
  intro hr
  obtain ⟨t, ht⟩ := ha.ends
  obtain ⟨u, e, hu, -⟩ := hr.ends
  cases (ht.unique hu).2

theorem Step.Refuses.unique {r r' : Rejection} (hr : s.Refuses h c.schemas payload state v r)
    (hr' : s.Refuses h c.schemas payload state v r') : r = r' := by
  obtain ⟨t, e, ht, he⟩ := hr.ends
  obtain ⟨u, e', hu, he'⟩ := hr'.ends
  cases (ht.unique hu).2
  rw [he] at he'
  cases he'
  rfl

/-- An accepted output is committed, unless writing it fails. -/
theorem runStep_decides_of_accepts {output : Members} (hm : Met h payload current state s.rules.input.checks)
    (hv : (h (.body payload) (h.after state (asksFor payload s.rules.input.checks))).1 = .ok (.mapping output))
    (ha : s.Accepts h c.schemas payload (h.after state (asksFor payload s.rules.input.checks ++ [.body payload])) output) :
    (runStep (recording h) c name s payload current).Leads state fun t r =>
      ∀ i, r = .ok i → s.Decides h c.schemas payload current state i t := by
  obtain ⟨t, ht⟩ := ha.ends
  refine (runStep_committed hm hv ht).mono ?_
  rintro _ _ ⟨⟨more, rfl⟩, x, -, -, rfl⟩ i hi
  cases hx : mutationsOf x with
  | error f =>
    rw [hx] at hi
    cases hi
  | ok m =>
    rw [hx] at hi
    cases hi
    exact hm.decides hv nofun (iff_of_true rfl ⟨output, rfl, ha⟩) fun r => iff_of_false nofun ha.not_refuses

theorem runStep_decides_of_refuses {r : Rejection} (hm : Met h payload current state s.rules.input.checks)
    (hv : (h (.body payload) (h.after state (asksFor payload s.rules.input.checks))).1 = .ok v)
    (hr : s.Refuses h c.schemas payload (h.after state (asksFor payload s.rules.input.checks ++ [.body payload])) v r) :
    (runStep (recording h) c name s payload current).Leads state fun t r =>
      ∀ i, r = .ok i → s.Decides h c.schemas payload current state i t := by
  obtain ⟨t, e, he, hrejected⟩ := hr.ends
  refine (runStep_refused hm hv he).told.mono ?_
  rintro _ _ ⟨rfl, rfl⟩ i hi
  rw [hrejected] at hi
  cases hi
  refine hm.decides hv nofun (iff_of_false nofun ?_) fun r' => ?_
  · rintro ⟨output, rfl, ha⟩
    exact ha.not_refuses hr
  · rw [Option.some_inj]
    exact ⟨fun h => h ▸ hr, hr.unique⟩

theorem runStep_decides : (runStep (recording h) c name s payload current).Leads state fun t r =>
    ∀ i, r = .ok i → s.Decides h c.schemas payload current state i t := by
  rcases met_or_stops s.rules.input.checks state with hm | ⟨before, check, after, e, hsplit, hm, he⟩
  -- the input is accepted, so it is up to the body and to what it returns
  · cases hv : (h (.body payload) (h.after state (asksFor payload s.rules.input.checks))).1 with
    | error f =>
      refine (runStep_unreturned hm hv).told.mono ?_
      rintro _ _ ⟨-, rfl⟩ i ⟨⟩
    | ok v =>
      rcases accepts_or_refuses v with ⟨output, rfl, ha⟩ | ⟨r, hr⟩ | ⟨output, f, rfl, hu⟩
      · exact runStep_decides_of_accepts hm hv ha
      · exact runStep_decides_of_refuses hm hv hr
      · obtain ⟨t, e, he, hf⟩ := hu.ends
        refine (runStep_refused hm hv he).told.mono ?_
        rintro _ _ ⟨-, rfl⟩ i hi
        rw [hf] at hi
        cases hi
  -- whatever else could be the first rule that is not met ends the check in the same way, so it is this one
  · have hstops : Check.Ends h (forM (before ++ check :: after) (InputCheck.run (recording h) payload current)) state _ _ :=
      hm.stops he
    rw [← hsplit] at hstops
    refine (runStep_stopped hstops).told.mono ?_
    rintro _ _ ⟨rfl, rfl⟩ i hi
    cases e with
    | failed f => cases hi
    | rejected r =>
      cases hi
      exact FirstUnmet.decides ⟨⟨after, hsplit⟩, hm, InputCheck.fails_iff.mpr he⟩ rfl rfl

/-- **What decides on an invocation.** Where an invocation returns, its input is rejected exactly if there is a first rule of
the input that is not met; that rule is the reason, and what is asked is what is asked for the rules up to it. Otherwise the
body runs, and the invocation is committed exactly if the step accepts what it returns, and rejected for what it refuses. -/
theorem engine_decides {plan : Plan} {e : Engine} (he : Engine.of plan c = .ok e) {i : Invocation}
    (hi : ((e.invoke h name payload current).run ⟨state, []⟩).1 = .ok (.ok i)) : ∃ s, plan.step name = .ok s ∧
      s.Decides h c.schemas payload current state i (plan.requests h c name payload current state) := by
  obtain ⟨rfl, rfl⟩ := engine_of_eq_ok.mp he
  rw [engine_invoke_eq] at hi
  have hi : (e.plan.invoke h e.capabilities name payload current ⟨state, []⟩).1 = .ok i := Except.ok.inj hi
  have hrecords : Run.Records (e.plan.invoke h e.capabilities name payload current)
      (e.plan.invoke (recording h) e.capabilities name payload current) _ := invoke_records
  obtain ⟨_, hrecorded, -⟩ := hrecords ⟨state, []⟩ []
  rw [hi] at hrecorded
  cases hs : e.plan.step name with
  | error u =>
    rw [Plan.invoke, hs] at hi
    cases hi
  | ok s =>
    have hleads : (runStep (recording h) e.capabilities name s payload current).Leads state _ := runStep_decides
    obtain ⟨t, ht, hdecides⟩ := hleads [] []
    generalize hrun : runStep (recording h) e.capabilities name s payload current ⟨(state, []), []⟩ = x at ht hdecides
    obtain ⟨r, session⟩ := x
    -- an invocation does what its step does
    have hinvoke : e.plan.invoke (recording h) e.capabilities name payload current ⟨(state, []), []⟩ = (_, session) :=
      invoke_of_runStep hs hrun
    have hr : r.mapError InvocationFault.failed = .ok i := congrArg Prod.fst (hinvoke.symm.trans hrecorded)
    refine ⟨s, rfl, ?_⟩
    rw [Plan.requests, hinvoke]
    exact ht ▸ hdecides i (mapError_eq_ok.mp hr)

end

open Plan (entry names)

/-- A document whose step adds a row, and whose output must have some fields. -/
def requiring (fields : List String) : Value :=
  match ledger [] with
  | .mapping ms => .mapping (Members.put (.text "functions") (.list [.mapping [
      entry "name" (.text "take"),
      entry "pattern" (.text "simple"),
      entry "description" (.text ""),
      entry "trigger" (.mapping [entry "event" (.text "ordered")]),
      entry "validate_output" (.mapping [entry "required_fields" (names fields)]),
      entry "persist" (.list [inserted "\x7b\x7b id \x7d\x7d"])]]) ms)
  | v => v

theorem planOf_eq_some {document : Value} {plan : Plan} (h : planOf document = some plan) :
    ∃ c, compile .standard none none (Manifest.load document) = .ok c ∧ c.plan = some plan := by
  unfold planOf at h
  split at h
  · rename_i c hc
    exact ⟨c, hc, h⟩
  · cases h

/-- Two fields are missing, and both are told. -/
theorem engine_decides_fields : ∃ plan e i s, planOf (requiring ["a", "success", "b"]) = some plan ∧
    Engine.of plan withTell = .ok e ∧ ((e.invoke obliging "take" packed none).run ⟨(), []⟩).1 = .ok (.ok i) ∧
    i.rejection.map Rejection.message = some "output is missing required fields: a, b" ∧ plan.step "take" = .ok s ∧
    s.Decides obliging withTell.schemas packed none () i (plan.requests obliging withTell "take" packed none ()) := by
  have hc : (planOf (requiring ["a", "success", "b"])).any (fun plan => (Engine.of plan withTell).toOption.any fun e =>
      ((e.invoke obliging "take" packed none).run ⟨(), []⟩).1.toOption.any fun r => r.toOption.any fun i =>
        decide (i.rejection.map Rejection.message = some "output is missing required fields: a, b")) = true := by
    decide +kernel
  obtain ⟨plan, hp, hc⟩ := (Option.any_eq_true ..).mp hc
  obtain ⟨e, he, hc⟩ := any_toOption.mp hc
  obtain ⟨r, hr, hc⟩ := any_toOption.mp hc
  obtain ⟨i, rfl, hm⟩ := any_toOption.mp hc
  obtain ⟨s, hs, hdecides⟩ := engine_decides he hr
  exact ⟨plan, e, i, s, hp, he, hr, of_decide_eq_true hm, hs, hdecides⟩

end Workflow
