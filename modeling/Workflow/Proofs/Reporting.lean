import Workflow.Proofs.Commitment

/-!
# Reported failures

A host may keep what it did not do, and why. A run over such a host does what it does over the host itself. So what failed
can be told of every run, with the state of the host that it failed in.
-/

namespace Workflow

/-- A request that failed, and its failure. -/
abbrev Refusal := Request × Failure

/-- A host that also keeps what failed. -/
def reporting {σ : Type} (h : Host σ) : Host (σ × List Refusal) := fun r s =>
  let (reply, state) := h r s.1
  (reply, state, s.2 ++ ((fault? reply).map fun f => (r, f)).toList)

/-- A session with a reporting host at which some requests failed before. -/
def Session.reported {σ : Type} (s : Session σ) (failed : List Refusal) : Session (σ × List Refusal) :=
  ⟨(s.state, failed), s.log⟩

/-! ## Persist actions -/

section
variable {σ : Type} (h : Host σ) (I : σ → Prop) (context : Members)

/-- What failed while an action was applied, and what became of the action: a failure ends the list or stands in the record
of an entry of a log. -/
inductive Prepared.Discloses (p : Prepared) : List Refusal → Except Failure MutationRecord → Prop
  | done {rows : Option Int} : Discloses p [] (.ok (p.record none rows))
  | unwritten {s : σ} {r : RowAction} {f : Failure} : p.action = .log r → I s → (h (p.request context) s).1 = .error f →
      Discloses p [(p.request context, f)] (.ok (p.record (some f.message) none))
  | raised {s : σ} {f : Failure} : I s → (h (p.request context) s).1 = .error f →
      Discloses p [(p.request context, f)] (.error f)
  | unregistered {ref : String} : Discloses p [] (.error (.unregistered ref))

def ErrorsTold (t : List Refusal) (rs : List MutationRecord) : Prop :=
  ∀ r ∈ rs, ∀ e, r.error = some e → ∃ a f, r.action = .log a ∧ (.log a.table r.values, f) ∈ t ∧ f.message = e

/-- What failed while actions were applied behind others. Each of these failures is the answer to one of the actions. What
the list stopped for is one of them, if there was a request for it, and so is each error of a record. -/
structure Disclosed (applied : List MutationRecord) (ps : List Prepared) (t : List Refusal)
    (x : Except PersistFailure (List MutationRecord)) : Prop where
  refused : ∀ e ∈ t, ∃ p ∈ ps, e.1 = p.request context ∧ ∃ s, I s ∧ (h e.1 s).1 = .error e.2
  cause : ∀ f, x = .error f → (∃ ref, f.cause = .unregistered ref) ∨ ∃ r, (r, f.cause) ∈ t
  records : ∃ rs, reported (x.mapError .failed) = applied ++ rs ∧ ErrorsTold t rs

variable {h I context} {registered : List String}

theorem Prepared.Handled.discloses {p : Prepared} {t : List Refusal} {x : Except Failure MutationRecord}
    (hx : p.Handled h I registered context (fun r y => ((fault? y).map fun f => (r, f)).toList) t x) :
    p.Discloses h I context t x := by
  cases hx with
  | done _ _ _ => exact .done
  | unwritten ha hs hx => exact .unwritten ha hs hx
  | raised _ _ hs hx => exact .raised hs hx
  | unregistered _ _ => exact .unregistered

theorem Prepared.Discloses.refused {p : Prepared} {t : List Refusal} {x : Except Failure MutationRecord}
    (ht : p.Discloses h I context t x) : ∀ e ∈ t, e.1 = p.request context ∧ ∃ s, I s ∧ (h e.1 s).1 = .error e.2 := by
  intro e he
  cases ht with
  | done => cases he
  | unwritten _ hs hx =>
    obtain rfl := List.mem_singleton.mp he
    exact ⟨rfl, _, hs, hx⟩
  | raised hs hx =>
    obtain rfl := List.mem_singleton.mp he
    exact ⟨rfl, _, hs, hx⟩
  | unregistered => cases he

theorem ErrorsTold.mono {t u : List Refusal} {rs : List MutationRecord} (ht : ErrorsTold t rs) (h : t ⊆ u) :
    ErrorsTold u rs := by
  intro r hr e he
  obtain ⟨a, f, ha, hf, hm⟩ := ht r hr e he
  exact ⟨a, f, ha, h hf, hm⟩

theorem Prepared.Discloses.errors {p : Prepared} {t : List Refusal} {r : MutationRecord} (ht : p.Discloses h I context t (.ok r)) :
    ErrorsTold t [r] := by
  intro q hq e he
  obtain rfl := List.mem_singleton.mp hq
  cases ht with
  | done => cases he
  | @unwritten s a f ha _ _ =>
    refine ⟨a, f, ha, ?_, by simpa [Prepared.record] using he⟩
    simp [Prepared.request, Prepared.record, ha]

theorem Disclosed.cons {applied : List MutationRecord} {p : Prepared} {ps : List Prepared} {r : MutationRecord}
    {t u : List Refusal} {x : Except PersistFailure (List MutationRecord)} (ht : p.Discloses h I context t (.ok r))
    (hu : Disclosed h I context (applied ++ [r]) ps u x) : Disclosed h I context applied (p :: ps) (t ++ u) x := by
  refine ⟨List.forall_mem_append.mpr ⟨fun e he => ?_, fun e he => ?_⟩, fun f hf => ?_, ?_⟩
  · exact ⟨p, by simp, ht.refused e he⟩
  · obtain ⟨p', hp', h⟩ := hu.refused e he
    exact ⟨p', by simp [hp'], h⟩
  · obtain h | ⟨r', hr'⟩ := hu.cause f hf
    · exact .inl h
    · exact .inr ⟨r', by simp [hr']⟩
  · obtain ⟨rs, hrs, he⟩ := hu.records
    refine ⟨r :: rs, by simpa using hrs, List.forall_mem_cons.mpr ⟨?_, he.mono (List.subset_append_right t u)⟩⟩
    exact ht.errors.mono (List.subset_append_left t u) r (by simp)

theorem Disclosed.stopped {applied : List MutationRecord} {p : Prepared} {ps : List Prepared} {t : List Refusal} {f : Failure}
    {skipped : List Nat} (ht : p.Discloses h I context t (.error f)) :
    Disclosed h I context applied (p :: ps) t (.error ⟨applied, p.index, skipped, f⟩) := by
  refine ⟨fun e he => ⟨p, by simp, ht.refused e he⟩, fun g hg => ?_, [], ?_, by simp [ErrorsTold]⟩
  · cases hg
    cases ht with
    | raised _ _ => exact .inr ⟨p.request context, by simp⟩
    | @unregistered ref => exact .inl ⟨ref, rfl⟩
  · simp [reported, Except.mapError]

theorem AllHandled.disclosed {applied : List MutationRecord} {ps : List Prepared} {t : List Refusal}
    {x : Except PersistFailure (List MutationRecord)}
    (hx : AllHandled h I registered context (fun r y => ((fault? y).map fun f => (r, f)).toList) applied ps t x) :
    Disclosed h I context applied ps t x := by
  induction hx with
  | nil => exact ⟨by simp, nofun, [], by simp [reported, Except.mapError], by simp [ErrorsTold]⟩
  | cons hr _ ih => exact .cons hr.discloses ih
  | stopped hf => exact .stopped hf.discloses

theorem applyPrepared_reports (hi : ∀ r s, I s → I (h r s).2) {applied : List MutationRecord} {ps : List Prepared} :
    Run.Remembers I (applyPrepared h registered context applied ps)
      (applyPrepared (reporting h) registered context applied ps) (Disclosed h I context applied ps) :=
  (applyPrepared_remembers hi).mono fun _ _ hx => hx.disclosed

theorem applyActions_reports (hi : ∀ r s, I s → I (h r s).2) {actions : List PersistAction} {ps : List Prepared}
    (hp : prepareAll context 0 actions = .ok ps) :
    Run.Remembers I (applyActions h registered context actions) (applyActions (reporting h) registered context actions)
      fun t x => ∃ y, x = y.mapError .failed ∧ Disclosed h I context [] ps t y := by
  unfold applyActions
  rw [hp]
  refine .bind (applyPrepared_reports hi) fun t y hy => ?_
  cases y with
  | ok rs => exact .pure ⟨.ok rs, rfl, by simpa using hy⟩
  | error f => exact .pure ⟨.error f, rfl, by simpa using hy⟩

end

end Workflow
