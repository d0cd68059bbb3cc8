import Workflow.Proofs.Plan
import Workflow.Proofs.StoreClauses

/-!
# The life cycle of an invocation

An invocation that returns has passed its phases in one of three ways. The rows and files of its input are asked for
before its body is run, and nothing is written before the output is accepted.
-/

namespace Workflow

inductive Capability where
  | query | artifacts | body | store | custom
  deriving DecidableEq

def Request.capability : Request → Capability
  | count _ => .query
  | artifact _ => .artifacts
  | body _ => .body
  | update .. => .store
  | insert .. => .store
  | log .. => .store
  | custom .. => .custom

def Request.Writes (r : Request) : Prop := r.capability = .store ∨ r.capability = .custom

/-- What an invocation went through, what it asked before its body and behind it, and what it may report of it. -/
structure Invocation.Follows (i : Invocation) (s : Step) (payload : Members) (asked before after : List Request) : Prop where
  phases : i.phases = [.pending, .inputValidating, .inputRejected] ∨
    i.phases = [.pending, .inputValidating, .processing, .outputValidating, .outputRejected] ∨
    i.phases = [.pending, .inputValidating, .processing, .outputValidating, .committed]
  phase : i.phases.getLast? = some i.phase
  body : (asked.map Request.capability).count .body = if .processing ∈ i.phases then 1 else 0
  order : asked = before ++ if .processing ∈ i.phases then .body payload :: after else []
  input : ∀ r ∈ before, s.InputAsks payload r ∧ ¬ r.Writes
  output : ∀ r ∈ after, r.capability ≠ .query ∧ ∃ output, i.output = some output ∧
    (s.OutputAsks payload (.mapping output) r ∧ ¬ r.Writes ∨ i.isCommitted = true ∧ s.PersistAsks payload output r ∧ r.Writes)
  rejection : i.rejection = none ↔ i.isCommitted = true
  unwritten : i.isCommitted = false → i.mutations = [] ∧ i.persistFault = none

section
variable {s : Step} {payload : Members}

theorem Step.InputAsks.capability {r : Request} (hr : s.InputAsks payload r) :
    r.capability = .query ∨ r.capability = .artifacts := by
  cases hr with
  | count _ _ => exact .inl rfl
  | file _ _ => exact .inr rfl

theorem Step.InputAsks.not_writes {r : Request} (hr : s.InputAsks payload r) : ¬ r.Writes := by
  rcases hr.capability with hc | hc <;> simp [Request.Writes, hc]

theorem Step.OutputAsks.capability {v : Value} {r : Request} (hr : s.OutputAsks payload v r) : r.capability = .artifacts := by
  cases hr
  rfl

theorem Step.OutputAsks.mapping {v : Value} {r : Request} (hr : s.OutputAsks payload v r) : ∃ output, v = .mapping output := by
  cases hr
  exact ⟨_, rfl⟩

theorem Step.OutputAsks.not_writes {v : Value} {r : Request} (hr : s.OutputAsks payload v r) : ¬ r.Writes := by
  simp [Request.Writes, hr.capability]

theorem Persisted.writes {σ : Type} {h : Host σ} {registered : List String} {output : Members} {t : List Request}
    {x : Except PersistFault (List MutationRecord)}
    (hx : Persisted h registered (resultContext payload output) s.rules.persist t x) :
    ∀ r ∈ t, s.PersistAsks payload output r ∧ r.Writes := by
  intro r hr
  obtain ⟨a, ha, n, p, hp, rfl⟩ := hx.asked r hr
  refine ⟨.action ha hp, ?_⟩
  unfold Request.Writes Prepared.request
  cases p.action <;> simp [Request.capability]

/-! ## Bodies -/

theorem Request.Writes.not_body {r : Request} (hr : r.Writes) : r.capability ≠ .body := by
  rcases hr with hc | hc <;> simp [hc]

theorem Request.Writes.not_query {r : Request} (hr : r.Writes) : r.capability ≠ .query := by
  rcases hr with hc | hc <;> simp [hc]

theorem count_body {t : List Request} (ht : ∀ r ∈ t, r.capability ≠ .body) : (t.map Request.capability).count .body = 0 := by
  rw [List.count_eq_zero, List.mem_map]
  rintro ⟨r, hr, hb⟩
  exact ht r hr hb

theorem count_body_input {t : List Request} (ht : ∀ r ∈ t, s.InputAsks payload r) :
    (t.map Request.capability).count .body = 0 := by
  refine count_body fun r hr => ?_
  rcases (ht r hr).capability with hc | hc <;> simp [hc]

theorem count_body_behind {before after : List Request} (hb : ∀ r ∈ before, s.InputAsks payload r)
    (ha : ∀ r ∈ after, r.capability ≠ .body) :
    ((before ++ .body payload :: after).map Request.capability).count .body = 1 := by
  rw [List.map_append, List.count_append, count_body_input hb, List.map_cons, List.count_cons, count_body ha]
  rfl

/-! ## Invocations -/

variable {σ : Type} {h : Host σ} {c : Capabilities} {name : String}

theorem Course.follows {t : List Request} {i : Invocation} (hc : Course h c name s payload t (.ok i)) :
    ∃ before after, i.Follows s payload t before after := by
  generalize hi : Except.ok i = r at hc
  have hinput {before : List Request} (hb : ∀ r ∈ before, s.InputAsks payload r) :
      ∀ r ∈ before, s.InputAsks payload r ∧ ¬ r.Writes := fun r hr => ⟨hb r hr, (hb r hr).not_writes⟩
  cases hc with
  | input hb hr =>
    obtain ⟨e, rfl⟩ := hr i hi.symm
    refine ⟨t, [], ?_⟩
    exact {
      phases := .inl rfl
      phase := rfl
      body := count_body_input hb
      order := by simp
      input := hinput hb
      output := nofun
      rejection := iff_of_false nofun nofun
      unwritten := fun _ => ⟨rfl, rfl⟩ }
  | body hb => cases hi
  | @output before probes state v _ hb hv hp hr =>
    obtain ⟨e, rfl⟩ := hr i hi.symm
    have hquery : ∀ r ∈ probes, r.capability = .artifacts := fun r hr => (hp r hr).capability
    refine ⟨before, probes, ?_⟩
    exact {
      phases := .inr (.inl rfl)
      phase := rfl
      body := count_body_behind hb fun r hr => by simp [hquery r hr]
      order := rfl
      input := hinput hb
      output := by
        intro q hq
        -- artifacts are asked for only if the body returned a mapping, and then it is the output that is reported
        obtain ⟨output, rfl⟩ := (hp q hq).mapping
        exact ⟨by simp [hquery q hq], output, rfl, .inl ⟨hp q hq, (hp q hq).not_writes⟩⟩
      rejection := iff_of_false nofun nofun
      unwritten := fun _ => ⟨rfl, rfl⟩ }
  | @commit before probes writes state session output x hb hv hp hx hs =>
    have hquery : ∀ r ∈ probes, r.capability = .artifacts := fun r hr => (hp r hr).capability
    cases hm : mutationsOf x with
    | error f =>
      rw [hm] at hi
      cases hi
    | ok m =>
      rw [hm] at hi
      cases hi
      refine ⟨before, probes ++ writes, ?_⟩
      exact {
        phases := .inr (.inr rfl)
        phase := rfl
        body := by
          refine count_body_behind hb (List.forall_mem_append.mpr ⟨fun r hr => by simp [hquery r hr], fun r hr => ?_⟩)
          exact (hx.writes r hr).2.not_body
        order := rfl
        input := hinput hb
        output := by
          intro r hr
          rcases List.mem_append.mp hr with hr | hr
          · exact ⟨by simp [hquery r hr], output, rfl, .inl ⟨hp r hr, (hp r hr).not_writes⟩⟩
          · obtain ⟨ha, hw⟩ := hx.writes r hr
            exact ⟨hw.not_query, output, rfl, .inr ⟨rfl, ha, hw⟩⟩
        rejection := iff_of_true rfl rfl
        unwritten := nofun }

/-- **An invocation that returns has one of three courses.** It runs its body once if its input is accepted, after all that
its input asks for; it writes only if its output is accepted, and only then there is no rejection. -/
theorem invoke_follows {plan : Plan} {current : Option String} {state : σ} {i : Invocation}
    (hi : (plan.invoke h c name payload current ⟨state, []⟩).1 = .ok i) : ∃ s before after, plan.step name = .ok s ∧
      i.Follows s payload (plan.requests h c name payload current state) before after := by
  obtain ⟨s, hs, hc⟩ := invoke_course hi
  obtain ⟨before, after, hf⟩ := hc.follows
  exact ⟨s, before, after, hs, hf⟩

end

/-- All that a step may need, with one custom action. -/
def withTell : Capabilities := ⟨true, true, true, ["tell"], []⟩

def packed : Members := [(.text "id", .text "7")]

theorem invoke_follows_packed : ∃ plan i, planOf (workshop "owner = :actor" 1000) = some plan ∧
    withTell.check plan = .ok () ∧ (plan.invoke obliging withTell "pack" packed none ⟨(), []⟩).1 = .ok i ∧
    i.isCommitted = true ∧ i.mutations.length = 4 ∧ ∃ s before after, plan.step "pack" = .ok s ∧
      i.Follows s packed (plan.requests obliging withTell "pack" packed none ()) before after := by
  have hc : (planOf (workshop "owner = :actor" 1000)).any (fun plan => decide (withTell.check plan = .ok ()) &&
      (plan.invoke obliging withTell "pack" packed none ⟨(), []⟩).1.toOption.any fun i =>
        i.isCommitted && decide (i.mutations.length = 4)) = true := by
    decide +kernel
  obtain ⟨plan, hp, hc⟩ := (Option.any_eq_true ..).mp hc
  obtain ⟨hc, hi⟩ := Bool.and_eq_true_iff.mp hc
  obtain ⟨i, hi, hm⟩ := any_toOption.mp hi
  obtain ⟨hcommitted, hm⟩ := Bool.and_eq_true_iff.mp hm
  exact ⟨plan, i, hp, of_decide_eq_true hc, hi, hcommitted, of_decide_eq_true hm, invoke_follows hi⟩

end Workflow
