import Workflow.Proofs.Requests

/-!
# Applying persist actions

What becomes of an action is told by the answer to its one request, and what becomes of a list by what becomes of each of
its actions until one fails. This holds for hosts that keep anything of their answers.
-/

namespace Workflow

def Request.isLog : Request → Bool
  | log .. => true
  | _ => false

theorem isLog_request {context : Members} {p : Prepared} :
    (p.request context).isLog = true ↔ ∃ r, p.action = .log r := by
  unfold Prepared.request
  cases p.action <;> simp [Request.isLog]

section
variable {σ γ : Type} (h : Host σ) (I : σ → Prop) (registered : List String) (context : Members)
  (keep : (r : Request) → Except Failure r.Reply → List γ)

/-- What becomes of an action, and what is kept of the answer to its request. An entry of a log that is not written has a
record all the same. There is no request for a custom action that nobody registered. -/
inductive Prepared.Handled (p : Prepared) : List γ → Except Failure MutationRecord → Prop
  | done {s : σ} {reply : (p.request context).Reply} {rows : Option Int} :
      (∀ c, p.action = .custom c → c.ref ∈ registered) → I s → (h (p.request context) s).1 = .ok reply →
      Handled p (keep (p.request context) (.ok reply)) (.ok (p.record none rows))
  | unwritten {s : σ} {r : RowAction} {f : Failure} : p.action = .log r → I s →
      (h (p.request context) s).1 = .error f →
      Handled p (keep (p.request context) (.error f)) (.ok (p.record (some f.message) none))
  | raised {s : σ} {f : Failure} : (∀ r, p.action ≠ .log r) → (∀ c, p.action = .custom c → c.ref ∈ registered) → I s →
      (h (p.request context) s).1 = .error f → Handled p (keep (p.request context) (.error f)) (.error f)
  | unregistered {c : CustomAction} : p.action = .custom c → c.ref ∉ registered →
      Handled p [] (.error (.unregistered c.ref))

/-- What becomes of actions behind those that were applied, and what is kept of the answers to their requests. -/
inductive AllHandled : List MutationRecord → List Prepared → List γ → Except PersistFailure (List MutationRecord) → Prop
  | nil {applied : List MutationRecord} : AllHandled applied [] [] (.ok applied)
  | cons {applied : List MutationRecord} {p : Prepared} {ps : List Prepared} {r : MutationRecord} {t u : List γ}
      {x : Except PersistFailure (List MutationRecord)} : p.Handled h I registered context keep t (.ok r) →
      AllHandled (applied ++ [r]) ps u x → AllHandled applied (p :: ps) (t ++ u) x
  | stopped {applied : List MutationRecord} {p : Prepared} {ps : List Prepared} {t : List γ} {f : Failure} :
      p.Handled h I registered context keep t (.error f) →
      AllHandled applied (p :: ps) t (.error ⟨applied, p.index, ps.map Prepared.index, f⟩)

variable {h I registered context keep}

theorem applyAction_remembers (hi : ∀ r s, I s → I (h r s).2) {p : Prepared} :
    Run.Remembers I (applyAction h registered context p) (applyAction (remembering keep h) registered context p)
      (p.Handled h I registered context keep) := by
  obtain ⟨index, a, values, clause, emptyColumns⟩ := p
  cases a with
  | update u =>
    refine .bind (.ask (hi _)) fun t x hx => ?_
    obtain ⟨⟨s, hs, hx⟩, rfl⟩ := hx
    cases x with
    | ok rows => exact .pure_behind (.done nofun hs hx)
    | error f => exact .pure_behind (.raised nofun nofun hs hx)
  | insert r =>
    refine .bind (.ask (hi _)) fun t x hx => ?_
    obtain ⟨⟨s, hs, hx⟩, rfl⟩ := hx
    cases x with
    | ok _ => exact .pure_behind (.done nofun hs hx)
    | error f => exact .pure_behind (.raised nofun nofun hs hx)
  | log r =>
    -- the failure of an entry is noted, and the entry is recorded with it
    refine .bind (.ask (hi _)) fun t x hx => ?_
    obtain ⟨⟨s, hs, hx⟩, rfl⟩ := hx
    cases x with
    | ok _ => exact .pure_behind (.done nofun hs hx)
    | error f =>
      refine .bind .note fun t _ ht => ?_
      subst ht
      exact .pure_behind (.unwritten rfl hs hx)
  | custom c =>
    by_cases hc : registered.contains c.ref
    · have hknown : ∀ c', PersistAction.custom c = .custom c' → c'.ref ∈ registered := by
        rintro _ ⟨⟩
        simpa using hc
      simp only [applyAction, if_pos hc]
      refine .bind (.ask (hi _)) fun t x hx => ?_
      obtain ⟨⟨s, hs, hx⟩, rfl⟩ := hx
      cases x with
      | ok _ => exact .pure_behind (.done hknown hs hx)
      | error f => exact .pure_behind (.raised nofun hknown hs hx)
    · simp only [applyAction, if_neg hc]
      exact .pure (.unregistered rfl (by simpa using hc))

theorem applyPrepared_remembers (hi : ∀ r s, I s → I (h r s).2) {applied : List MutationRecord} {ps : List Prepared} :
    Run.Remembers I (applyPrepared h registered context applied ps)
      (applyPrepared (remembering keep h) registered context applied ps)
      (AllHandled h I registered context keep applied ps) := by
  -- what has been applied grows along the list, so this is shown for whatever it is
  induction ps generalizing applied with
  | nil => exact .pure .nil
  | cons p ps ih =>
    refine .bind noteEmptyColumns_remembers fun t _ ht => ?_
    subst ht
    refine .bind (applyAction_remembers hi) fun t x hx => ?_
    cases x with
    | ok r => exact ih.mono fun u y hy => by simpa using AllHandled.cons hx hy
    | error f =>
      refine .bind .note fun u _ hu => ?_
      subst hu
      exact .pure_behind (.stopped hx)

end

end Workflow
