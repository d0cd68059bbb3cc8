import Workflow.Proofs.Commitment

/-!
# What took effect before a failure

A failure lists the records of the actions before the one that failed. Among them are the entries of a log that the host
refused, each with its error; all others took effect.
-/

namespace Workflow

/-- A request, and its failure if it failed. -/
abbrev Answered := Request × Option Failure

/-- A host that also keeps how every request ended. -/
def tracing {σ : Type} (h : Host σ) : Host (σ × List Answered) := remembering (fun r y => [(r, fault? y)]) h

def MutationRecord.request (context : Members) (r : MutationRecord) : Request :=
  (⟨r.index, r.action, r.values, r.clause, r.emptyColumns⟩ : Prepared).request context

/-- A record tells how its request ended. Either what was asked took effect, or it is an entry of a log and the record has
the message of its failure. -/
inductive MutationRecord.Tells (context : Members) (r : MutationRecord) : Answered → Prop
  | done : r.error = none → Tells context r (r.request context, none)
  | unwritten {a : RowAction} {f : Failure} : r.action = .log a → r.error = some f.message →
      Tells context r (r.request context, some f)

/-- What a failure lists, against how all requests ended until then: each record has its request, and behind these there
is only the one that failed. Every record took effect exactly if no entry of a log was refused. -/
structure PersistFailure.Tells (context : Members) (f : PersistFailure) (answered : List Answered) : Prop where
  records : ∃ before last, answered = before ++ last ∧ List.Forall₂ (MutationRecord.Tells context) f.applied before ∧
    (last = [] ∨ ∃ r, r.isLog = false ∧ last = [(r, some f.cause)])
  effects : f.applied.countP MutationRecord.applied = answered.countP fun e => e.2.isNone
  applied : (∀ r ∈ f.applied, r.applied = true) ↔ ∀ e ∈ answered, e.1.isLog = true → e.2 = none
  count : f.applied.length = (answered.countP fun e => e.2.isNone) ↔ ∀ e ∈ answered, e.1.isLog = true → e.2 = none

section
variable {σ : Type} {h : Host σ} {I : σ → Prop} {registered : List String} {context : Members}

theorem MutationRecord.Tells.applied {r : MutationRecord} {e : Answered} (h : r.Tells context e) :
    r.applied = e.2.isNone := by
  unfold MutationRecord.applied
  cases h with
  | done hr => simp [hr]
  | unwritten _ hr => simp [hr]

theorem MutationRecord.Tells.isLog {r : MutationRecord} {e : Answered} (h : r.Tells context e) (he : e.2 ≠ none) :
    e.1.isLog = true := by
  cases h with
  | done _ => exact absurd rfl he
  | unwritten ha _ => exact isLog_request.mpr ⟨_, ha⟩

theorem Prepared.Handled.tells {p : Prepared} {r : MutationRecord} {t : List Answered}
    (hx : p.Handled h I registered context (fun r y => [(r, fault? y)]) t (.ok r)) : ∃ e, t = [e] ∧ r.Tells context e := by
  cases hx with
  | done _ _ _ => exact ⟨_, rfl, .done rfl⟩
  | unwritten ha _ _ => exact ⟨_, rfl, .unwritten ha rfl⟩

theorem AllHandled.tells {applied : List MutationRecord} {ps : List Prepared} {t : List Answered}
    {x : Except PersistFailure (List MutationRecord)} {f : PersistFailure}
    (hx : AllHandled h I registered context (fun r y => [(r, fault? y)]) applied ps t x) (hf : x = .error f) :
    ∃ rs before last, f.applied = applied ++ rs ∧ t = before ++ last ∧
      List.Forall₂ (MutationRecord.Tells context) rs before ∧
      (last = [] ∨ ∃ r, r.isLog = false ∧ last = [(r, some f.cause)]) := by
  induction hx with
  | nil => cases hf
  | @cons applied p ps r t u x hr _ ih =>
    obtain ⟨e, rfl, he⟩ := hr.tells
    obtain ⟨rs, before, last, ha, rfl, hrs, hlast⟩ := ih hf
    exact ⟨r :: rs, e :: before, last, by simpa using ha, rfl, .cons he hrs, hlast⟩
  | @stopped applied p ps t g hg =>
    cases hf
    refine ⟨[], [], t, by simp, rfl, .nil, ?_⟩
    cases hg with
    | raised ha _ _ _ =>
      refine .inr ⟨p.request context, Bool.eq_false_iff.mpr fun hlog => ?_, rfl⟩
      obtain ⟨r, hr⟩ := isLog_request.mp hlog
      exact ha r hr
    | unregistered _ _ => exact .inl rfl

theorem countP_applied {rs : List MutationRecord} {answered : List Answered}
    (h : List.Forall₂ (MutationRecord.Tells context) rs answered) :
    rs.countP MutationRecord.applied = answered.countP fun e => e.2.isNone := by
  induction h with
  | nil => rfl
  | cons hr _ ih => rw [List.countP_cons, List.countP_cons, ih, hr.applied]

theorem forall_applied {rs : List MutationRecord} {answered : List Answered}
    (h : List.Forall₂ (MutationRecord.Tells context) rs answered) :
    (∀ r ∈ rs, r.applied = true) ↔ ∀ e ∈ answered, e.1.isLog = true → e.2 = none := by
  obtain ⟨hrecords, hanswered⟩ := exists_of_forall₂ h
  constructor
  · intro hall e he _
    obtain ⟨r, hr, ht⟩ := hanswered e he
    exact Option.isNone_iff_eq_none.mp (ht.applied ▸ hall r hr)
  · intro hall r hr
    obtain ⟨e, he, ht⟩ := hrecords r hr
    rw [ht.applied, Option.isNone_iff_eq_none]
    by_contra hne
    exact hne (hall e he (ht.isLog hne))

theorem tells_of_records {f : PersistFailure} {before last : List Answered}
    (hrs : List.Forall₂ (MutationRecord.Tells context) f.applied before)
    (hlast : last = [] ∨ ∃ r, r.isLog = false ∧ last = [(r, some f.cause)]) : f.Tells context (before ++ last) := by
  have heffects : f.applied.countP MutationRecord.applied = (before ++ last).countP fun e => e.2.isNone := by
    rw [countP_applied hrs, List.countP_append]
    obtain rfl | ⟨r, -, rfl⟩ := hlast <;> rfl
  -- the request that failed is for no entry of a log
  have hnone : ∀ e ∈ last, e.1.isLog = true → e.2 = none := by
    obtain rfl | ⟨r, hr, rfl⟩ := hlast
    · simp
    · simp [hr]
  have happlied : (∀ r ∈ f.applied, r.applied = true) ↔ ∀ e ∈ before ++ last, e.1.isLog = true → e.2 = none := by
    rw [forall_applied hrs, List.forall_mem_append]
    exact (and_iff_left hnone).symm
  refine ⟨⟨before, last, rfl, hrs, hlast⟩, heffects, happlied, ?_⟩
  rw [← heffects, eq_comm, List.countP_eq_length]
  exact happlied

/-- **A failure lists what took effect, and the entries of a log that were refused.** What it lists is all that took effect,
as its message counts it, exactly if no entry of a log was refused before. -/
theorem applyActions_effects {actions : List PersistAction} {session : Session σ} {f : PersistFailure}
    (hf : (applyActions h registered context actions session).1 = .error (.failed f)) : ∃ session' answered,
      applyActions h registered context actions session = (.error (.failed f), session') ∧
      applyActions (tracing h) registered context actions (session.remembered []) =
        (.error (.failed f), session'.remembered answered) ∧ f.Tells context answered := by
  have hrun : Run.Remembers (fun _ => True) (applyActions h registered context actions)
      (applyActions (tracing h) registered context actions)
      fun t x => ∀ f : PersistFailure, x = .error (.failed f) → f.Tells context t := by
    unfold applyActions
    cases prepareAll context 0 actions with
    | error g => exact .pure (by simp)
    | ok ps =>
      refine .bind (applyPrepared_remembers fun _ _ _ => trivial) fun t x hx => ?_
      cases x with
      | ok rs => exact .pure (by simp)
      | error g =>
        obtain ⟨rs, before, last, ha, rfl, hrs, hlast⟩ := hx.tells rfl
        rw [List.nil_append] at ha
        refine .pure ?_
        rintro _ ⟨⟩
        rw [List.append_nil]
        exact tells_of_records (ha ▸ hrs) hlast
  obtain ⟨answered, he, -, ht⟩ := hrun session [] trivial
  rw [hf] at he ht
  exact ⟨_, answered, Prod.ext hf rfl, he, ht f rfl⟩

end

/-- A row that is added after an entry of a log. -/
def audited : List PersistAction := [.log ⟨"events", []⟩, .insert ⟨"orders", []⟩]

/-- The failure to add the row, behind the entry with some error. -/
def refusedRow (error : Option String) : PersistFailure :=
  ⟨[⟨0, .log ⟨"events", []⟩, [], none, [], error, none⟩], 1, [], .reported "sealed"⟩

theorem applyActions_effects_sealed :
    (applyActions sealedHost [] [] audited ⟨(), []⟩).1 = .error (.failed (refusedRow none)) ∧ ∃ session' answered,
      applyActions sealedHost [] [] audited ⟨(), []⟩ = (.error (.failed (refusedRow none)), session') ∧
      applyActions (tracing sealedHost) [] [] audited (Session.remembered ⟨(), []⟩ []) =
        (.error (.failed (refusedRow none)), session'.remembered answered) ∧ (refusedRow none).Tells [] answered := by
  have hf : (applyActions sealedHost [] [] audited ⟨(), []⟩).1 = .error (.failed (refusedRow none)) := rfl
  exact ⟨hf, applyActions_effects hf⟩

/-- A host that writes nothing. -/
def closedHost : Host Unit
  | .log .., s => (.error (.reported "closed"), s)
  | r, s => sealedHost r s

/-- A failure that lists an entry of a log as applied, and counts it, although nothing took effect. -/
theorem applyActions_effects_closed : ∃ f, (applyActions closedHost [] [] audited ⟨(), []⟩).1 = .error (.failed f) ∧
    (∀ e ∈ (applyActions (tracing closedHost) [] [] audited ⟨((), []), []⟩).2.state.2, e.2 ≠ none) ∧
    f.message = "Persist action 1 failed after 1 applied (0 skipped): sealed" ∧ ¬ ∀ r ∈ f.applied, r.applied = true := by
  have hanswered : (applyActions (tracing closedHost) [] [] audited ⟨((), []), []⟩).2.state.2 =
      [(.log "events" [], some (.reported "closed")), (.insert "orders" [], some (.reported "sealed"))] := rfl
  refine ⟨refusedRow (some "closed"), rfl, ?_, rfl, ?_⟩
  · rw [hanswered]
    simp
  · intro hall
    have hentry := hall _ (List.mem_singleton_self _)
    cases hentry

end Workflow
