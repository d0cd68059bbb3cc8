import Workflow.Proofs.Commitment

/-!
# Entries of a log do not matter

Whether a host writes the entries of a log changes nothing else about persist actions. This compares two runs of the same
actions, over hosts that differ in what they answer to entries of a log.
-/

namespace Workflow

/-! ## Two runs -/

section
variable {σ τ α β γ δ : Type} {R : σ → τ → Prop} {Q : α → β → Prop} {S : γ → δ → Prop}

/-- Two runs from related states end in related states and have related results. -/
def Run.Couples (R : σ → τ → Prop) (m : Run σ α) (m' : Run τ β) (Q : α → β → Prop) : Prop :=
  ∀ s s', R s.state s'.state → R (m s).2.state (m' s').2.state ∧ Q (m s).1 (m' s').1

def Run.Quiet (m : Run σ α) (a : α) : Prop := ∀ s, (m s).2.state = s.state ∧ (m s).1 = a

theorem Run.Quiet.pure {a : α} : Run.Quiet (σ := σ) (Pure.pure a) a := fun _ => ⟨rfl, rfl⟩

theorem Run.Quiet.note_pure {level : LogLevel} {logger event : String} {fields : List (String × Value)} {a : α} :
    Run.Quiet (σ := σ) (do Run.note level logger event fields; Pure.pure a) a := fun _ => ⟨rfl, rfl⟩

namespace Run.Couples

theorem quiet {m : Run σ α} {m' : Run τ β} {a : α} {b : β} (hm : m.Quiet a) (hm' : m'.Quiet b) (h : Q a b) :
    Run.Couples R m m' Q := by
  intro s s' hs
  obtain ⟨hstate, ha⟩ := hm s
  obtain ⟨hstate', hb⟩ := hm' s'
  rw [hstate, hstate', ha, hb]
  exact ⟨hs, h⟩

theorem pure {a : α} {b : β} (h : Q a b) : Run.Couples R (Pure.pure a) (Pure.pure b) Q := quiet .pure .pure h

theorem bind {m : Run σ α} {m' : Run τ β} {f : α → Run σ γ} {f' : β → Run τ δ} (hm : Run.Couples R m m' Q)
    (hf : ∀ a b, Q a b → Run.Couples R (f a) (f' b) S) : Run.Couples R (m >>= f) (m' >>= f') S := by
  intro s s' hs
  obtain ⟨hr, hq⟩ := hm s s' hs
  exact hf _ _ hq _ _ hr

theorem ask {h : Host σ} {h' : Host τ} {r : Request} {Q : Except Failure r.Reply → Except Failure r.Reply → Prop}
    (hr : ∀ s s', R s s' → R (h r s).2 (h' r s').2 ∧ Q (h r s).1 (h' r s').1) :
    Run.Couples R (Run.ask h r) (Run.ask h' r) Q := fun s s' hs => hr s.state s'.state hs

end Run.Couples

end

/-! ## Hosts -/

section
variable {σ τ : Type}

/-- From a state on, the answers of a host to all writes but entries of a log depend on these writes only. -/
def Host.AnswersBy (h : Host σ) (s : σ) (answer : List Request → (r : Request) → Except Failure r.Reply) : Prop :=
  ∀ asked r, (∀ q ∈ asked, q.Writes) → r.Writes → r.isLog = false →
    (h r (h.after s asked)).1 = answer (asked.filter fun q => !q.isLog) r

/-- The states of two recording hosts that were asked the same writes. -/
structure Alike (h : Host σ) (s : σ) (h' : Host τ) (s' : τ) (x : σ × List Request) (y : τ × List Request) : Prop where
  asked : x.2 = y.2
  writes : ∀ q ∈ x.2, q.Writes
  left : x.1 = h.after s x.2
  right : y.1 = h'.after s' y.2

def MutationRecord.SameButLog (r r' : MutationRecord) : Prop :=
  r' = r ∨ (∃ a, r.action = .log a) ∧ r' = { r with error := r'.error }

/-- Actions that both were applied, both failed at the same action, or both could not be resolved. -/
inductive SameEnd : Except PersistFault (List MutationRecord) → Except PersistFault (List MutationRecord) → Prop
  | applied {rs rs' : List MutationRecord} : List.Forall₂ MutationRecord.SameButLog rs rs' → SameEnd (.ok rs) (.ok rs')
  | failed {rs rs' : List MutationRecord} {index : Nat} {skipped : List Nat} {cause : Failure} :
      List.Forall₂ MutationRecord.SameButLog rs rs' →
      SameEnd (.error (.failed ⟨rs, index, skipped, cause⟩)) (.error (.failed ⟨rs', index, skipped, cause⟩))
  | unresolved {f : ExpressionFault} : SameEnd (.error (.unresolved f)) (.error (.unresolved f))

inductive SameOutcome : Except Failure MutationRecord → Except Failure MutationRecord → Prop
  | recorded {r r' : MutationRecord} : r.SameButLog r' → SameOutcome (.ok r) (.ok r')
  | failed {f : Failure} : SameOutcome (.error f) (.error f)

variable {h : Host σ} {h' : Host τ} {s : σ} {s' : τ} {answer : List Request → (r : Request) → Except Failure r.Reply}
  {registered : List String} {context : Members}

theorem ask_alike (hh : h.AnswersBy s answer) (hh' : h'.AnswersBy s' answer) {r : Request} (hr : r.Writes) :
    Run.Couples (Alike h s h' s') (Run.ask (recording h) r) (Run.ask (recording h') r) fun x y =>
      r.isLog = false → x = y := by
  refine .ask fun x y hxy => ?_
  obtain ⟨x, asked⟩ := x
  obtain ⟨y, asked'⟩ := y
  obtain ⟨hasked, hwrites, hleft, hright⟩ := hxy
  dsimp only at hasked hwrites hleft hright
  subst hasked hleft hright
  refine ⟨⟨rfl, ?_, after_concat.symm, after_concat.symm⟩, fun hlog => ?_⟩
  · exact List.forall_mem_append.mpr ⟨hwrites, List.forall_mem_singleton.mpr hr⟩
  · exact (hh asked r hwrites hr hlog).trans (hh' asked r hwrites hr hlog).symm

theorem applyAction_alike (hh : h.AnswersBy s answer) (hh' : h'.AnswersBy s' answer) {p : Prepared} :
    Run.Couples (Alike h s h' s') (applyAction (recording h) registered context p)
      (applyAction (recording h') registered context p) SameOutcome := by
  have hask (r : Request) (hr : r.Writes) := ask_alike hh hh' hr
  unfold applyAction
  cases ha : p.action with
  | update u =>
    refine .bind (hask _ (.inl rfl)) fun x y hxy => ?_
    obtain rfl := hxy rfl
    cases x with
    | ok rows => exact .pure (.recorded (.inl rfl))
    | error f => exact .pure .failed
  | insert r =>
    refine .bind (hask _ (.inl rfl)) fun x y hxy => ?_
    obtain rfl := hxy rfl
    cases x with
    | ok _ => exact .pure (.recorded (.inl rfl))
    | error f => exact .pure .failed
  | log r =>
    -- whatever the two hosts answer, nothing more is asked, and the records differ in the error at most
    refine .bind (hask _ (.inl rfl)) fun x y _ => ?_
    have hsame (e e' : Option String) : SameOutcome (.ok (p.record e none)) (.ok (p.record e' none)) :=
      .recorded (.inr ⟨⟨r, ha⟩, rfl⟩)
    cases x with
    | ok _ =>
      cases y with
      | ok _ => exact .pure (hsame _ _)
      | error g => exact .quiet .pure .note_pure (hsame _ _)
    | error f =>
      cases y with
      | ok _ => exact .quiet .note_pure .pure (hsame _ _)
      | error g => exact .quiet .note_pure .note_pure (hsame _ _)
  | custom c =>
    dsimp only
    split
    · refine .bind (hask _ (.inr rfl)) fun x y hxy => ?_
      obtain rfl := hxy rfl
      cases x with
      | ok _ => exact .pure (.recorded (.inl rfl))
      | error f => exact .pure .failed
    · exact .pure .failed

theorem noteEmptyColumns_quiet {p : Prepared} : Run.Quiet (σ := σ) (noteEmptyColumns p) () := by
  unfold noteEmptyColumns
  split
  · exact .pure
  · exact fun _ => ⟨rfl, rfl⟩

theorem applyPrepared_alike (hh : h.AnswersBy s answer) (hh' : h'.AnswersBy s' answer) {applied applied' : List MutationRecord}
    (ha : List.Forall₂ MutationRecord.SameButLog applied applied') {ps : List Prepared} :
    Run.Couples (Alike h s h' s') (applyPrepared (recording h) registered context applied ps)
      (applyPrepared (recording h') registered context applied' ps)
      fun x y => SameEnd (x.mapError .failed) (y.mapError .failed) := by
  induction ps generalizing applied applied' with
  | nil => exact .pure (.applied ha)
  | cons p ps ih =>
    refine .bind (Q := fun _ _ => True) (.quiet noteEmptyColumns_quiet noteEmptyColumns_quiet trivial) fun _ _ _ => ?_
    refine .bind (applyAction_alike hh hh') fun x y hxy => ?_
    cases hxy with
    | recorded hr => exact ih (List.rel_append ha (.cons hr .nil))
    | failed => exact .quiet .note_pure .note_pure (.failed ha)

/-- **The entries of a log do not matter.** Two hosts that answer all other writes alike, by what was written before apart
from logs, are asked the same for a list of actions, and the list ends in the same way. -/
theorem applyActions_unlogged (session : Session σ) (session' : Session τ) (hh : h.AnswersBy session.state answer)
    (hh' : h'.AnswersBy session'.state answer) (registered : List String) (context : Members)
    (actions : List PersistAction) :
    SameEnd (applyActions h registered context actions session).1 (applyActions h' registered context actions session').1 ∧
    (applyActions (recording h) registered context actions (session.recorded [])).2.state.2 =
      (applyActions (recording h') registered context actions (session'.recorded [])).2.state.2 := by
  have hruns : Run.Couples (Alike h session.state h' session'.state)
      (applyActions (recording h) registered context actions) (applyActions (recording h') registered context actions)
      SameEnd := by
    unfold applyActions
    cases prepareAll context 0 actions with
    | error f => exact .pure .unresolved
    | ok ps =>
      refine .bind (applyPrepared_alike hh hh' .nil) fun x y hxy => ?_
      cases x <;> cases y <;> exact .pure hxy
  have halike : Alike h session.state h' session'.state (session.recorded []).state (session'.recorded []).state :=
    ⟨rfl, by simp [Session.recorded], rfl, rfl⟩
  obtain ⟨hstates, hend⟩ := hruns _ _ halike
  -- a recording host does what the host itself does
  have hrecords : Run.Records (applyActions h registered context actions) (applyActions (recording h) registered context actions)
      (Persisted h registered context actions) := applyActions_records
  have hrecords' : Run.Records (applyActions h' registered context actions)
      (applyActions (recording h') registered context actions) (Persisted h' registered context actions) := applyActions_records
  obtain ⟨t, he, -⟩ := hrecords session []
  obtain ⟨t', he', -⟩ := hrecords' session' []
  refine ⟨?_, hstates.asked⟩
  rw [he, he'] at hend
  exact hend

end

/-- A host that adds one row and then no more, and has one answer to all entries of a log. -/
def crowded (answer : Except Failure Unit) : Host Nat
  | .insert .., n => (if n = 0 then .ok () else .error (.reported "full"), n + 1)
  | .log .., n => (answer, n)
  | r, n => ((obliging r ()).1, n)

def Request.isInsert : Request → Bool
  | insert .. => true
  | _ => false

theorem after_crowded {answer : Except Failure Unit} {n : Nat} {asked : List Request} :
    (crowded answer).after n asked = n + asked.countP Request.isInsert := by
  induction asked generalizing n with
  | nil => rfl
  | cons r asked ih =>
    refine ih.trans ?_
    rw [List.countP_cons]
    cases r with
    | insert table values =>
      change n + 1 + asked.countP Request.isInsert = n + (asked.countP Request.isInsert + 1)
      omega
    | _ => rfl

theorem crowded_answersBy (answer : Except Failure Unit) : (crowded answer).AnswersBy 0 fun asked r =>
    (crowded (.ok ()) r (asked.countP Request.isInsert)).1 := by
  intro asked r _ _ hlog
  have hcount : (asked.filter fun q => !q.isLog).countP Request.isInsert = asked.countP Request.isInsert := by
    rw [List.countP_filter]
    refine List.countP_congr fun q _ => ?_
    cases q <;> simp [Request.isInsert, Request.isLog]
  dsimp only
  rw [after_crowded, Nat.zero_add, hcount]
  cases r with
  | log table values => cases hlog
  | _ => rfl

/-- Two rows, each with an entry of a log behind it. -/
def doubled : List PersistAction :=
  [.insert ⟨"orders", []⟩, .log ⟨"events", []⟩, .insert ⟨"orders", []⟩, .log ⟨"events", []⟩]

/-- The first entry is written or refused, and the second row is refused all the same. -/
theorem applyActions_unlogged_crowded :
    (crowded (.ok ())).AnswersBy 0 (fun asked r => (crowded (.ok ()) r (asked.countP Request.isInsert)).1) ∧
    (crowded (.error (.reported "closed"))).AnswersBy 0
      (fun asked r => (crowded (.ok ()) r (asked.countP Request.isInsert)).1) ∧
    (reported (applyActions (crowded (.ok ())) [] [] doubled ⟨0, []⟩).1).map MutationRecord.applied = [true, true] ∧
    (reported (applyActions (crowded (.error (.reported "closed"))) [] [] doubled ⟨0, []⟩).1).map MutationRecord.applied =
      [true, false] ∧
    SameEnd (applyActions (crowded (.ok ())) [] [] doubled ⟨0, []⟩).1
      (applyActions (crowded (.error (.reported "closed"))) [] [] doubled ⟨0, []⟩).1 := by
  refine ⟨crowded_answersBy _, crowded_answersBy _, rfl, rfl, ?_⟩
  exact (applyActions_unlogged ⟨0, []⟩ ⟨0, []⟩ (crowded_answersBy _) (crowded_answersBy _) [] [] doubled).1

end Workflow
