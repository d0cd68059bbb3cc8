import Workflow.Proofs.Applying

/-!
# What becomes of persist actions

Actions are applied one after the other until one fails. The host gets one request for each action that is tried, in the
order of the list, and every action before the one that failed has a record.
-/

namespace Workflow

/-! ## Prepared actions -/

theorem prepare_fields {a : PersistAction} {context : Members} {n : Nat} {p : Prepared} (h : a.prepare context n = .ok p) :
    p.action = a ∧ p.index = n := by
  obtain ⟨⟨values, empty⟩, -, h⟩ := bind_eq_ok.mp h
  obtain ⟨clause, -, h⟩ := bind_eq_ok.mp h
  cases h
  exact ⟨rfl, rfl⟩

theorem prepareAll_prepared {context : Members} {n : Nat} {actions : List PersistAction} {ps : List Prepared}
    (h : prepareAll context n actions = .ok ps) :
    List.Forall₂ (fun a p => a.prepare context p.index = .ok p) actions ps ∧
      ps.map Prepared.index = List.range' n actions.length := by
  induction actions generalizing n ps with
  | nil =>
    cases h
    exact ⟨.nil, rfl⟩
  | cons a actions ih =>
    obtain ⟨p, hp, h⟩ := bind_eq_ok.mp h
    obtain ⟨ps', hps, h⟩ := bind_eq_ok.mp h
    cases h
    obtain ⟨-, rfl⟩ := prepare_fields hp
    obtain ⟨hactions, hindexes⟩ := ih hps
    exact ⟨.cons hp hactions, by rw [List.map_cons, hindexes, List.length_cons, List.range'_succ]⟩

theorem prepareAll_actions {context : Members} {n : Nat} {actions : List PersistAction} {ps : List Prepared}
    (h : prepareAll context n actions = .ok ps) : ps.map Prepared.action = actions := by
  have hps := (prepareAll_prepared h).1
  clear h
  induction hps with
  | nil => rfl
  | cons hp _ ih => rw [List.map_cons, ih, (prepare_fields hp).1]

section
variable {σ : Type} (h : Host σ) (registered : List String) (context : Members)

/-- What becomes of an action, and what the host is asked for it. The host may do it or fail, but an entry of a log that is
not written has a record all the same. For a custom action that nobody registered the host is not asked. -/
inductive Prepared.Outcome (p : Prepared) : List Request → Except Failure MutationRecord → Prop
  | done {s : σ} {reply : (p.request context).Reply} {rows : Option Int} :
      (∀ c, p.action = .custom c → c.ref ∈ registered) → (h (p.request context) s).1 = .ok reply →
      Outcome p [p.request context] (.ok (p.record none rows))
  | unwritten {s : σ} {r : RowAction} {f : Failure} : p.action = .log r → (h (p.request context) s).1 = .error f →
      Outcome p [p.request context] (.ok (p.record (some f.message) none))
  | raised {s : σ} {f : Failure} : (∀ r, p.action ≠ .log r) → (∀ c, p.action = .custom c → c.ref ∈ registered) →
      (h (p.request context) s).1 = .error f → Outcome p [p.request context] (.error f)
  | unregistered {c : CustomAction} : p.action = .custom c → c.ref ∉ registered →
      Outcome p [] (.error (.unregistered c.ref))

def Prepared.RecordedAs (p : Prepared) (r : MutationRecord) : Prop :=
  p.Outcome h registered context [p.request context] (.ok r)

/-- What becomes of prepared actions behind those that have been applied, and what is asked for them: all are recorded, or
one fails and those before it are recorded. -/
inductive Applied (applied : List MutationRecord) (ps : List Prepared) :
    List Request → Except PersistFailure (List MutationRecord) → Prop
  | all {rs : List MutationRecord} : List.Forall₂ (Prepared.RecordedAs h registered context) ps rs →
      Applied applied ps (ps.map (Prepared.request context)) (.ok (applied ++ rs))
  | stopped {before after : List Prepared} {p : Prepared} {rs : List MutationRecord} {t : List Request} {f : Failure} :
      ps = before ++ p :: after → List.Forall₂ (Prepared.RecordedAs h registered context) before rs →
      p.Outcome h registered context t (.error f) →
      Applied applied ps (before.map (Prepared.request context) ++ t)
        (.error ⟨applied ++ rs, p.index, after.map Prepared.index, f⟩)

variable {h registered context}

theorem Prepared.Handled.outcome {p : Prepared} {t : List Request} {x : Except Failure MutationRecord}
    (hx : p.Handled h (fun _ => True) registered context (fun r _ => [r]) t x) : p.Outcome h registered context t x := by
  cases hx with
  | done hr _ hx => exact .done hr hx
  | unwritten ha _ hx => exact .unwritten ha hx
  | raised ha hr _ hx => exact .raised ha hr hx
  | unregistered ha hn => exact .unregistered ha hn

theorem Applied.cons {applied : List MutationRecord} {p : Prepared} {r : MutationRecord} {ps : List Prepared}
    {t : List Request} {x : Except PersistFailure (List MutationRecord)} (hr : p.RecordedAs h registered context r)
    (ha : Applied h registered context (applied ++ [r]) ps t x) :
    Applied h registered context applied (p :: ps) (p.request context :: t) x := by
  cases ha with
  | all hrs =>
    rw [List.append_assoc]
    exact .all (.cons hr hrs)
  | stopped hps hrs hf =>
    rw [List.append_assoc]
    exact .stopped (congrArg (p :: ·) hps) (.cons hr hrs) hf

theorem Prepared.Outcome.request {p : Prepared} {t : List Request} {x : Except Failure MutationRecord}
    (ho : p.Outcome h registered context t x) {r : Request} (hr : r ∈ t) : r = p.request context := by
  cases ho with
  | unregistered => cases hr
  | _ => exact List.mem_singleton.mp hr

theorem Prepared.Outcome.asked {p : Prepared} {t : List Request} {r : MutationRecord}
    (ho : p.Outcome h registered context t (.ok r)) : t = [p.request context] := by
  cases ho with
  | done => rfl
  | unwritten => rfl

theorem AllHandled.applied {applied : List MutationRecord} {ps : List Prepared} {t : List Request}
    {x : Except PersistFailure (List MutationRecord)}
    (hx : AllHandled h (fun _ => True) registered context (fun r _ => [r]) applied ps t x) :
    Applied h registered context applied ps t x := by
  induction hx with
  | @nil applied =>
    have hnil : Applied h registered context applied [] [] (.ok (applied ++ [])) := .all .nil
    rwa [List.append_nil] at hnil
  | cons hr _ ih =>
    have ho := hr.outcome
    obtain rfl := ho.asked
    exact .cons ho ih
  | @stopped applied p ps t f hf =>
    have hstopped : Applied h registered context applied (p :: ps) ([] ++ t)
        (.error ⟨applied ++ [], p.index, ps.map Prepared.index, f⟩) := .stopped rfl .nil hf.outcome
    rwa [List.append_nil] at hstopped

theorem applyPrepared_records {applied : List MutationRecord} {ps : List Prepared} :
    Run.Records (applyPrepared h registered context applied ps)
      (applyPrepared (recording h) registered context applied ps) (Applied h registered context applied ps) :=
  records_iff.mpr ((applyPrepared_remembers fun _ _ _ => trivial).mono fun _ _ hx => hx.applied)

/-! ## Accounts -/

variable (h registered context) in
/-- The accounts of prepared actions, with what was asked for them. Either each has a record; or one of them failed, those
before it have a record, and those behind it were skipped. -/
inductive Accounts (ps : List Prepared) : List Request → Except PersistFault (List MutationRecord) → Prop
  | complete {rs : List MutationRecord} : rs.map MutationRecord.index = List.range ps.length →
      List.Forall₂ (Prepared.RecordedAs h registered context) ps rs →
      Accounts ps (ps.map (Prepared.request context)) (.ok rs)
  | stopped {f : PersistFailure} {p : Prepared} {t : List Request} : ps[f.index]? = some p →
      p.Outcome h registered context t (.error f.cause) → f.applied.map MutationRecord.index = List.range f.index →
      List.Forall₂ (Prepared.RecordedAs h registered context) (ps.take f.index) f.applied →
      f.skipped = (List.range ps.length).drop (f.index + 1) →
      Accounts ps ((ps.take f.index).map (Prepared.request context) ++ t) (.error (.failed f))

theorem Prepared.RecordedAs.index {p : Prepared} {r : MutationRecord} (hr : p.RecordedAs h registered context r) :
    r.index = p.index := by
  cases hr with
  | done => rfl
  | unwritten => rfl

theorem records_index {ps : List Prepared} {rs : List MutationRecord}
    (hr : List.Forall₂ (Prepared.RecordedAs h registered context) ps rs) :
    rs.map MutationRecord.index = ps.map Prepared.index := by
  induction hr with
  | nil => rfl
  | cons hr _ ih => rw [List.map_cons, List.map_cons, hr.index, ih]

theorem Applied.accounts {ps : List Prepared} {t : List Request} {x : Except PersistFailure (List MutationRecord)}
    (hi : ps.map Prepared.index = List.range ps.length) (ha : Applied h registered context [] ps t x) :
    Accounts h registered context ps t (x.mapError .failed) := by
  cases ha with
  | all hrs => exact .complete ((records_index hrs).trans hi) hrs
  | @stopped before after p rs t f hps hrs hf =>
    subst hps
    -- the indices of the whole list are known, so each part has its share of them
    have hp : p.index = before.length := by
      have := congrArg (fun l => l[before.length]?) hi
      simpa using this
    have hbefore : before.map Prepared.index = List.range before.length := by
      have := congrArg (List.take before.length) hi
      simpa [List.take_range] using this
    have hafter : after.map Prepared.index = (List.range (before ++ p :: after).length).drop (before.length + 1) := by
      rw [← hi, ← List.map_drop, List.drop_append, List.drop_of_length_le (by simp)]
      simp
    have hstopped : Accounts h registered context (before ++ p :: after)
        (((before ++ p :: after).take before.length).map (Prepared.request context) ++ t)
        (.error (.failed ⟨rs, before.length, after.map Prepared.index, f⟩)) := by
      refine .stopped (f := ⟨rs, before.length, after.map Prepared.index, f⟩) ?_ hf ?_ ?_ hafter
      · simp
      · exact (records_index hrs).trans hbefore
      · simpa using hrs
    simpa [Except.mapError, hp] using hstopped

variable (h registered context) in
/-- What becomes of actions, and what is asked for them: nothing is, if they cannot be prepared. -/
inductive Persisted (actions : List PersistAction) : List Request → Except PersistFault (List MutationRecord) → Prop
  | unresolved {f : ExpressionFault} : prepareAll context 0 actions = .error f → Persisted actions [] (.error (.unresolved f))
  | applied {ps : List Prepared} {t : List Request} {x : Except PersistFault (List MutationRecord)} :
      prepareAll context 0 actions = .ok ps → Accounts h registered context ps t x → Persisted actions t x

theorem applyActions_records {actions : List PersistAction} : Run.Records (applyActions h registered context actions)
    (applyActions (recording h) registered context actions) (Persisted h registered context actions) := by
  unfold applyActions
  cases hp : prepareAll context 0 actions with
  | error f => exact .pure (.unresolved hp)
  | ok ps =>
    have hi : ps.map Prepared.index = List.range ps.length := by
      rw [(prepareAll_prepared hp).2, ← prepareAll_actions hp, List.length_map, List.range_eq_range']
    refine .bind applyPrepared_records fun t x hx => ?_
    have hx := Persisted.applied hp (hx.accounts hi)
    rw [← t.append_nil] at hx
    cases x with
    | ok rs => exact .pure hx
    | error f => exact .pure hx

theorem Persisted.asked {actions : List PersistAction} {t : List Request}
    {x : Except PersistFault (List MutationRecord)} (hx : Persisted h registered context actions t x) :
    ∀ r ∈ t, ∃ a ∈ actions, ∃ n p, a.prepare context n = .ok p ∧ r = p.request context := by
  cases hx with
  | unresolved hf => simp
  | @applied ps t x hp hx =>
    have hps : ∀ p ∈ ps, ∃ a ∈ actions, ∃ n q, a.prepare context n = .ok q ∧ p.request context = q.request context := by
      intro p hm
      obtain ⟨a, ha, hap⟩ := (exists_of_forall₂ (prepareAll_prepared hp).1).2 p hm
      exact ⟨a, ha, p.index, p, hap, rfl⟩
    cases hx with
    | complete _ _ => exact List.forall_mem_map.mpr hps
    | stopped hm ho _ _ _ =>
      refine List.forall_mem_append.mpr ⟨List.forall_mem_map.mpr fun q hq => hps q (List.mem_of_mem_take hq), ?_⟩
      intro r hr
      exact ho.request hr ▸ hps _ (List.mem_of_getElem? hm)

end

end Workflow
