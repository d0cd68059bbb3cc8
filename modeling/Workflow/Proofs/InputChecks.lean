import Workflow.Proofs.Endings
import Workflow.Proofs.Except

/-!
# The rules of an input, one by one

An input is checked rule by rule: its payload fields, its row, its state and its files. The first rule that is not met ends
the check, and rules behind it ask for nothing.
-/

namespace Workflow

inductive InputCheck where
  | field (name : String)
  | existence (expression : String)
  | state (expression : String)
  | file (source : String)

/-- The rules of an input in the order in which they are checked. -/
def ValidationRule.checks (rule : ValidationRule) : List InputCheck :=
  rule.payload.map .field ++ (rule.exist.toList.map .existence ++ (rule.state.toList.map .state ++ rule.files.map .file))

namespace InputCheck

def asks (payload : Members) : InputCheck → List Request
  | field _ => []
  | existence e =>
    match existenceQuery e payload none with
    | .ok q => [.count q]
    | .error _ => []
  | state _ => []
  | file source =>
    match renderTemplate source payload with
    | .ok path => [.artifact path]
    | .error _ => []

section
variable {σ : Type} (h : Host σ) (payload : Members) (current : Option String)

def run : InputCheck → Check σ Unit
  | field n => if isPresent payload n then pure () else reject (.payloadField n)
  | existence e => checkExistence h payload e
  | state e => checkCurrentState payload current e
  | file source => do
    let path ← expect (renderTemplate source payload)
    if ← demand h (.artifact path) then pure () else reject (.artifact path)

/-- A rule that is met when the host is in some state. -/
inductive Holds (s : σ) : InputCheck → Prop
  | field {n : String} {v : Value} : Members.get? payload n = some v → v ≠ .null → Holds s (.field n)
  | existence {e : String} {q : CountQuery} {n : Int} : existenceQuery e payload none = .ok q →
      (h (.count q) s).1 = .ok n → 0 < n → Holds s (.existence e)
  | state {e : String} : evaluateState e payload current = .ok true → Holds s (.state e)
  | file {source path : String} : renderTemplate source payload = .ok path → (h (.artifact path) s).1 = .ok true →
      Holds s (.file source)

/-- A rule that is not met, with what the invocation is rejected for: the rule itself, or what keeps it from being applied. -/
inductive Fails (s : σ) : InputCheck → Rejection → Prop
  | field {n : String} : (∀ v, Members.get? payload n = some v → v = .null) → Fails s (.field n) (.payloadField n)
  | existence {e : String} {q : CountQuery} {n : Int} : existenceQuery e payload none = .ok q →
      (h (.count q) s).1 = .ok n → n ≤ 0 → Fails s (.existence e) (.precondition e q.table)
  | unasked {e : String} {f : ExpressionFault} {r : Rejection} : existenceQuery e payload none = .error f →
      f.stop = .rejected r → Fails s (.existence e) r
  | uncounted {e : String} {q : CountQuery} {f : Failure} {r : Rejection} : existenceQuery e payload none = .ok q →
      (h (.count q) s).1 = .error f → f.stop = .rejected r → Fails s (.existence e) r
  | state {e : String} : evaluateState e payload current = .ok false → Fails s (.state e) (.state e current)
  | undecided {e : String} {f : ExpressionFault} {r : Rejection} : evaluateState e payload current = .error f →
      f.stop = .rejected r → Fails s (.state e) r
  | file {source path : String} : renderTemplate source payload = .ok path → (h (.artifact path) s).1 = .ok false →
      Fails s (.file source) (.artifact path)
  | unresolved {source : String} {f : ExpressionFault} {r : Rejection} : renderTemplate source payload = .error f →
      f.stop = .rejected r → Fails s (.file source) r
  | unanswered {source path : String} {f : Failure} {r : Rejection} : renderTemplate source payload = .ok path →
      (h (.artifact path) s).1 = .error f → f.stop = .rejected r → Fails s (.file source) r

def verdict (s : σ) : InputCheck → Except Stop Unit
  | field n => if isPresent payload n then .ok () else .error (.rejected (.payloadField n))
  | existence e => do
    let q ← (existenceQuery e payload none).mapError ExpressionFault.stop
    let n ← (h (.count q) s).1.mapError Failure.stop
    if n ≤ 0 then .error (.rejected (.precondition e q.table)) else .ok ()
  | state e => do
    let b ← (evaluateState e payload current).mapError ExpressionFault.stop
    if b then .ok () else .error (.rejected (.state e current))
  | file source => do
    let path ← (renderTemplate source payload).mapError ExpressionFault.stop
    let there ← (h (.artifact path) s).1.mapError Failure.stop
    if there then .ok () else .error (.rejected (.artifact path))

end

section
variable {σ : Type} {h : Host σ} {payload : Members} {current : Option String} {s : σ} {c : InputCheck}

/-! ## Single rules -/

theorem isPresent_iff {n : String} : isPresent payload n = true ↔ ∃ v, Members.get? payload n = some v ∧ v ≠ .null := by
  have hnull (v : Value) : v.isNull = false ↔ v ≠ .null := by
    rcases v with s | _ | _ | _ | _
    · cases s <;> simp [Value.isNull]
    all_goals simp [Value.isNull]
  cases hv : Members.get? payload n with
  | none => simp [isPresent, hv]
  | some v => simp [isPresent, hv, hnull]

theorem holds_iff : c.Holds h payload current s ↔ c.verdict h payload current s = .ok () := by
  constructor
  · intro hc
    cases hc with
    | field hv hne => exact if_pos (isPresent_iff.mpr ⟨_, hv, hne⟩)
    | existence hq hn hlt =>
      exact mapError_bind_eq_ok.mpr ⟨_, hq, mapError_bind_eq_ok.mpr ⟨_, hn, if_neg (Int.not_le.mpr hlt)⟩⟩
    | state hb => exact mapError_bind_eq_ok.mpr ⟨_, hb, rfl⟩
    | file hp ht => exact mapError_bind_eq_ok.mpr ⟨_, hp, mapError_bind_eq_ok.mpr ⟨_, ht, rfl⟩⟩
  · intro hc
    cases c with
    | field n =>
      simp only [verdict] at hc
      split at hc
      · obtain ⟨v, hv, hne⟩ := isPresent_iff.mp ‹_›
        exact .field hv hne
      · cases hc
    | existence e =>
      obtain ⟨q, hq, hc⟩ := mapError_bind_eq_ok.mp hc
      obtain ⟨n, hn, hc⟩ := mapError_bind_eq_ok.mp hc
      split at hc
      · cases hc
      · exact .existence hq hn (Int.not_le.mp ‹_›)
    | state e =>
      obtain ⟨b, hb, hc⟩ := mapError_bind_eq_ok.mp hc
      cases b with
      | true => exact .state hb
      | false => cases hc
    | file source =>
      obtain ⟨path, hp, hc⟩ := mapError_bind_eq_ok.mp hc
      obtain ⟨there, ht, hc⟩ := mapError_bind_eq_ok.mp hc
      cases there with
      | true => exact .file hp ht
      | false => cases hc

theorem fails_iff {r : Rejection} :
    c.Fails h payload current s r ↔ c.verdict h payload current s = .error (.rejected r) := by
  constructor
  · intro hc
    cases hc with
    | field hv =>
      refine if_neg fun hp => ?_
      obtain ⟨v, hv', hne⟩ := isPresent_iff.mp hp
      exact hne (hv v hv')
    | existence hq hn hle =>
      exact mapError_bind_eq_error.mpr (.inr ⟨_, hq, mapError_bind_eq_error.mpr (.inr ⟨_, hn, if_pos hle⟩)⟩)
    | unasked hq hr => exact mapError_bind_eq_error.mpr (.inl ⟨_, hq, hr⟩)
    | uncounted hq hn hr =>
      exact mapError_bind_eq_error.mpr (.inr ⟨_, hq, mapError_bind_eq_error.mpr (.inl ⟨_, hn, hr⟩)⟩)
    | state hb => exact mapError_bind_eq_error.mpr (.inr ⟨_, hb, rfl⟩)
    | undecided hb hr => exact mapError_bind_eq_error.mpr (.inl ⟨_, hb, hr⟩)
    | file hp ht => exact mapError_bind_eq_error.mpr (.inr ⟨_, hp, mapError_bind_eq_error.mpr (.inr ⟨_, ht, rfl⟩)⟩)
    | unresolved hp hr => exact mapError_bind_eq_error.mpr (.inl ⟨_, hp, hr⟩)
    | unanswered hp ht hr =>
      exact mapError_bind_eq_error.mpr (.inr ⟨_, hp, mapError_bind_eq_error.mpr (.inl ⟨_, ht, hr⟩)⟩)
  · intro hc
    cases c with
    | field n =>
      simp only [verdict] at hc
      split at hc
      · cases hc
      · rename_i hp
        cases hc
        refine .field fun v hv => ?_
        by_contra hne
        exact hp (isPresent_iff.mpr ⟨v, hv, hne⟩)
    | existence e =>
      rcases mapError_bind_eq_error.mp hc with ⟨f, hf, hr⟩ | ⟨q, hq, hc⟩
      · exact .unasked hf hr
      rcases mapError_bind_eq_error.mp hc with ⟨f, hf, hr⟩ | ⟨n, hn, hc⟩
      · exact .uncounted hq hf hr
      split at hc
      · cases hc
        exact .existence hq hn ‹_›
      · cases hc
    | state e =>
      rcases mapError_bind_eq_error.mp hc with ⟨f, hf, hr⟩ | ⟨b, hb, hc⟩
      · exact .undecided hf hr
      cases b with
      | true => cases hc
      | false =>
        cases hc
        exact .state hb
    | file source =>
      rcases mapError_bind_eq_error.mp hc with ⟨f, hf, hr⟩ | ⟨path, hp, hc⟩
      · exact .unresolved hf hr
      rcases mapError_bind_eq_error.mp hc with ⟨f, hf, hr⟩ | ⟨there, ht, hc⟩
      · exact .unanswered hp hf hr
      cases there with
      | true => cases hc
      | false =>
        cases hc
        exact .file hp ht

theorem run_ends : Check.Ends h (c.run (recording h) payload current) s (c.asks payload) (c.verdict h payload current s) := by
  cases c with
  | field n =>
    rw [run, asks, verdict]
    split
    · exact .pure
    · exact .reject
  | existence e =>
    rw [run, asks, verdict, checkExistence]
    cases existenceQuery e payload none with
    | error f => exact .stop (.expect_stop rfl)
    | ok q =>
      refine .bind (t := []) (.expect rfl) (.demand_bind fun n => ?_)
      split
      · exact .reject
      · exact .pure
  | state e =>
    rw [run, asks, verdict, checkCurrentState]
    cases evaluateState e payload current with
    | error f => exact .stop (.expect_stop rfl)
    | ok b =>
      refine .bind (t := []) (.expect rfl) ?_
      cases b with
      | true => exact .pure
      | false => exact .reject
  | file source =>
    rw [run, asks, verdict]
    cases renderTemplate source payload with
    | error f => exact .stop (.expect_stop rfl)
    | ok path =>
      refine .bind (t := []) (.expect rfl) (.demand_bind fun there => ?_)
      cases there with
      | true => exact .pure
      | false => exact .reject

end

end InputCheck

/-! ## All rules -/

section
variable {σ : Type} (h : Host σ) (payload : Members) (current : Option String)

def asksFor (checks : List InputCheck) : List Request := checks.flatMap (InputCheck.asks payload)

/-- Rules that are met, each in the state in which those before it left the host. -/
def Met (s : σ) : List InputCheck → Prop
  | [] => True
  | c :: cs => c.Holds h payload current s ∧ Met (h.after s (c.asks payload)) cs

/-- The first rule that is not met, with the rules before it. -/
structure FirstUnmet (s : σ) (checks before : List InputCheck) (c : InputCheck) (r : Rejection) : Prop where
  split : ∃ after, checks = before ++ c :: after
  met : Met h payload current s before
  fails : c.Fails h payload current (h.after s (asksFor payload before)) r

end

section
variable {σ : Type} {h : Host σ} {payload : Members} {current : Option String} {s : σ} {checks : List InputCheck}

theorem checkPayloadFields_eq {names : List String} :
    checkPayloadFields (σ := σ) payload names = forM (names.map .field) (InputCheck.run h payload current) := by
  induction names with
  | nil => rfl
  | cons n names ih =>
    rw [List.map_cons, List.forM_cons, ← ih, InputCheck.run, checkPayloadFields, List.find?_cons]
    cases isPresent payload n with
    | true => rfl
    | false => rfl

theorem checkFiles_eq {files : List String} :
    checkFiles h payload files = forM (files.map .file) (InputCheck.run h payload current) := by
  induction files with
  | nil => rfl
  | cons source files ih =>
    rw [List.map_cons, List.forM_cons, ← ih, InputCheck.run, checkFiles]
    simp only [bind_assoc]
    congr 1
    funext path
    congr 1
    funext there
    cases there with
    | true => rfl
    | false => rfl

/-- The check of an input is the check of its rules, one by one. -/
theorem checkStepInput_eq {rule : ValidationRule} :
    checkStepInput h rule payload current = forM rule.checks (InputCheck.run h payload current) := by
  simp only [ValidationRule.checks, List.forM_append, ← checkPayloadFields_eq, ← checkFiles_eq]
  unfold checkStepInput
  congr 1
  funext _
  cases rule.exist <;> cases rule.state <;>
    simp only [Option.toList, List.map_nil, List.map_cons, List.forM_nil, List.forM_cons, pure_bind, bind_assoc] <;> rfl

theorem asksFor_append {cs ds : List InputCheck} : asksFor payload (cs ++ ds) = asksFor payload cs ++ asksFor payload ds :=
  List.flatMap_append

theorem Met.ends (hm : Met h payload current s checks) :
    Check.Ends h (forM checks (InputCheck.run (recording h) payload current)) s (asksFor payload checks) (.ok ()) := by
  induction checks generalizing s with
  | nil => exact .pure
  | cons c checks ih =>
    obtain ⟨hc, hm⟩ := hm
    have hrun : Check.Ends h (c.run (recording h) payload current) s (c.asks payload) _ := c.run_ends
    rw [InputCheck.holds_iff.mp hc] at hrun
    rw [List.forM_cons]
    exact .bind hrun (ih hm)

theorem Met.input_ends {rule : ValidationRule} (hm : Met h payload current s rule.checks) :
    Check.Ends h (checkStepInput (recording h) rule payload current) s (asksFor payload rule.checks) (.ok ()) := by
  rw [checkStepInput_eq]
  exact hm.ends

theorem Met.stops {before after : List InputCheck} {c : InputCheck} {e : Stop} (hm : Met h payload current s before)
    (hc : c.verdict h payload current (h.after s (asksFor payload before)) = .error e) :
    Check.Ends h (forM (before ++ c :: after) (InputCheck.run (recording h) payload current)) s
      (asksFor payload (before ++ [c])) (.error e) := by
  have hrun : Check.Ends h (c.run (recording h) payload current) (h.after s (asksFor payload before)) (c.asks payload) _ :=
    c.run_ends
  rw [hc] at hrun
  rw [List.forM_append, List.forM_cons, asksFor_append]
  refine .bind hm.ends ?_
  simpa [asksFor] using Check.Ends.stop hrun

theorem met_or_stops (checks : List InputCheck) (s : σ) : Met h payload current s checks ∨
    ∃ before c after e, checks = before ++ c :: after ∧ Met h payload current s before ∧
      c.verdict h payload current (h.after s (asksFor payload before)) = .error e := by
  induction checks generalizing s with
  | nil => exact .inl trivial
  | cons c checks ih =>
    cases hc : c.verdict h payload current s with
    | error e => exact .inr ⟨[], c, checks, e, rfl, trivial, hc⟩
    | ok _ =>
      have hholds := InputCheck.holds_iff.mpr hc
      rcases ih (h.after s (c.asks payload)) with hm | ⟨before, d, after, e, rfl, hm, hd⟩
      · exact .inl ⟨hholds, hm⟩
      · refine .inr ⟨c :: before, d, after, e, rfl, ⟨hholds, hm⟩, ?_⟩
        rw [asksFor, List.flatMap_cons, after_append]
        exact hd

end

end Workflow
