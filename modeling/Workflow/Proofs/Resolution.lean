import Workflow.Proofs.Accounting
import Workflow.Proofs.Assignments
import Workflow.Proofs.Predicate.Misfits

/-!
# Actions that cannot be resolved

Actions are prepared in order, so a list of actions fails with the fault of the first one that cannot be prepared. As all
of them are prepared before any is applied, nothing has been asked by then.
-/

namespace Workflow

/-- What keeps an action from being prepared in a context. A template that is written to a column, or the clause, cannot be
read; or the clause has an operand without a value, or with one that does not fit. Besides, a value of a column, an operand
or the clause as a text may break down. -/
inductive PersistAction.Fails (context : Members) (a : PersistAction) : ExpressionFault → Prop
  | value {column source : String} {f : TemplateFault} : (column, .text source) ∈ a.assignments →
      Template.parse source = .error f → Fails context a (.template source f)
  | clause {e : String} {f : ExpressionFault} : a.clause? = some e → Predicate.parse e = .error f → Fails context a f
  | operand {e : String} {p : Predicate} {f : ExpressionFault} : a.clause? = some e → Predicate.parse e = .ok p →
      p.bind context e = .error f → Predicate.FromValues context f → Fails context a f
  | brokenValue {column source : String} {t : Template} {b : Breakdown} : (column, .text source) ∈ a.assignments →
      Template.parse source = .ok t → t.valued context = .error b → Fails context a (.breakdown b)
  | brokenOperand {e : String} {p : Predicate} {b : Breakdown} : a.clause? = some e → Predicate.parse e = .ok p →
      p.bind context e = .error (.breakdown b) → Fails context a (.breakdown b)
  | brokenClause {e : String} {p : Predicate} {bs : List BoundCondition} {b : Breakdown} : a.clause? = some e →
      Predicate.parse e = .ok p → p.bind context e = .ok bs → renderClause bs = .error b → Fails context a (.breakdown b)

section
variable {context : Members} {a : PersistAction} {n : Nat}

/-! ## One action -/

theorem resolveScalar_eq_error {v : Scalar} {f : ExpressionFault} : resolveScalar context v = .error f ↔ ∃ source, v = .text source ∧
    ((∃ g, Template.parse source = .error g ∧ f = .template source g) ∨
      ∃ t b, Template.parse source = .ok t ∧ t.valued context = .error b ∧ f = .breakdown b) := by
  cases v with
  | text source =>
    cases ht : Template.parse source with
    | error g => simp [resolveScalar, ht, eq_comm]
    | ok t =>
      rw [resolveScalar_text ht]
      simp [ht, mapError_eq_error, map_eq_error, eq_comm (b := f)]
  | _ => simp [resolveScalar]

theorem resolveAssignments_eq_error {values : Assignments} {f : ExpressionFault}
    (h : resolveAssignments context values = .error f) : ∃ entry ∈ values, resolveScalar context entry.2 = .error f := by
  rcases bind_eq_error.mp h with h | ⟨_, -, h⟩
  · obtain ⟨entry, hentry, h⟩ := exists_fault h
    exact ⟨entry, hentry, map_eq_error.mp h⟩
  · cases h

theorem not_error_of_resolveAssignments {values : Assignments} {r : Row × List String}
    (h : resolveAssignments context values = .ok r) {entry : String × Scalar} (hentry : entry ∈ values) (f : ExpressionFault) :
    resolveScalar context entry.2 ≠ .error f := by
  obtain ⟨rs, hrs, -⟩ := bind_eq_ok.mp h
  obtain ⟨_, -, hr⟩ := exists_result hrs _ hentry
  obtain ⟨_, hscalar, -⟩ := map_eq_ok.mp hr
  simp [hscalar]

theorem compileClause_eq_error {e : String} {f : ExpressionFault} : compileClause e context = .error f ↔
    Predicate.parse e = .error f ∨ ∃ p, Predicate.parse e = .ok p ∧ (p.bind context e = .error f ∨
      ∃ bs b, p.bind context e = .ok bs ∧ renderClause bs = .error b ∧ f = .breakdown b) := by
  unfold compileClause
  rw [bind_eq_error]
  refine or_congr_right (exists_congr fun p => and_congr_right fun _ => ?_)
  rw [bind_eq_error]
  simp only [mapError_eq_error, eq_comm (b := f), exists_and_left]

theorem mapM_clause {f : ExpressionFault} : (a.clause?.mapM fun e => compileClause e context) = .error f ↔
    ∃ e, a.clause? = some e ∧ compileClause e context = .error f := by
  cases a.clause? with
  | none => simp
  | some e =>
    simp only [Option.mapM_some, Option.some.injEq, exists_eq_left']
    exact bind_eq_error.trans (by simp)

theorem prepare_fails {f : ExpressionFault} (h : a.prepare context n = .error f) : a.Fails context f := by
  rcases bind_eq_error.mp h with h | ⟨_, -, h⟩
  · obtain ⟨⟨column, _⟩, hv, h⟩ := resolveAssignments_eq_error h
    obtain ⟨source, rfl, ⟨g, hg, rfl⟩ | ⟨t, b, ht, hb, rfl⟩⟩ := resolveScalar_eq_error.mp h
    · exact .value hv hg
    · exact .brokenValue hv ht hb
  rcases bind_eq_error.mp h with h | ⟨_, -, h⟩
  · obtain ⟨e, he, h⟩ := mapM_clause.mp h
    rcases compileClause_eq_error.mp h with h | ⟨p, hp, h | ⟨bs, b, hbs, hb, rfl⟩⟩
    · exact .clause he h
    · rcases Predicate.fromValues_or_breakdown hp h with hv | ⟨b, rfl⟩
      · exact .operand he hp h hv
      · exact .brokenOperand he hp h
    · exact .brokenClause he hp hbs hb
  · cases h

theorem not_fails_of_prepare {p : Prepared} (h : a.prepare context n = .ok p) (f : ExpressionFault) :
    ¬ a.Fails context f := by
  obtain ⟨r, hr, h⟩ := bind_eq_ok.mp h
  obtain ⟨clause, hclause, -⟩ := bind_eq_ok.mp h
  have hvalue (column source : String) (hv : (column, .text source) ∈ a.assignments) (g : ExpressionFault) :
      resolveScalar context (.text source) ≠ .error g := not_error_of_resolveAssignments hr hv g
  have hcompiles (e : String) (he : a.clause? = some e) (g : ExpressionFault) : compileClause e context ≠ .error g := by
    intro hg
    rw [mapM_clause.mpr ⟨e, he, hg⟩] at hclause
    cases hclause
  intro hf
  cases hf with
  | value hv hg => exact hvalue _ _ hv _ (resolveScalar_eq_error.mpr ⟨_, rfl, .inl ⟨_, hg, rfl⟩⟩)
  | clause he hg => exact hcompiles _ he _ (compileClause_eq_error.mpr (.inl hg))
  | operand he hp hg => exact hcompiles _ he _ (compileClause_eq_error.mpr (.inr ⟨_, hp, .inl hg⟩))
  | brokenValue hv ht hb => exact hvalue _ _ hv _ (resolveScalar_eq_error.mpr ⟨_, rfl, .inr ⟨_, _, ht, hb, rfl⟩⟩)
  | brokenOperand he hp hg => exact hcompiles _ he _ (compileClause_eq_error.mpr (.inr ⟨_, hp, .inl hg⟩))
  | brokenClause he hp hbs hb =>
    exact hcompiles _ he _ (compileClause_eq_error.mpr (.inr ⟨_, hp, .inr ⟨_, _, hbs, hb, rfl⟩⟩))

/-! ## Lists of actions -/

theorem prepareAll_eq_error {actions : List PersistAction} {f : ExpressionFault}
    (h : prepareAll context n actions = .error f) : ∃ before a after, actions = before ++ a :: after ∧
      (∀ b ∈ before, ∀ g, ¬ b.Fails context g) ∧ a.prepare context (n + before.length) = .error f := by
  -- an action that is prepared has no fault, so the first that is not prepared is the first with one
  induction actions generalizing n with
  | nil => cases h
  | cons a actions ih =>
    rcases bind_eq_error.mp h with ha | ⟨p, hp, h⟩
    · exact ⟨[], a, actions, rfl, nofun, ha⟩
    rcases bind_eq_error.mp h with h | ⟨ps, -, h⟩
    · obtain ⟨before, b, after, rfl, hbefore, hb⟩ := ih h
      refine ⟨a :: before, b, after, rfl, List.forall_mem_cons.mpr ⟨not_fails_of_prepare hp, hbefore⟩, ?_⟩
      rw [List.length_cons, Nat.add_comm before.length, ← Nat.add_assoc]
      exact hb
    · cases h

theorem prepareAll_fails {actions : List PersistAction} {g : ExpressionFault} (ha : a ∈ actions)
    (hg : a.Fails context g) : ∃ f, prepareAll context 0 actions = .error f := by
  cases h : prepareAll context 0 actions with
  | error f => exact ⟨f, rfl⟩
  | ok ps =>
    obtain ⟨p, -, hp⟩ := (exists_of_forall₂ (prepareAll_prepared h).1).1 a ha
    exact absurd hg (not_fails_of_prepare hp g)

theorem applyActions_unprepared {σ : Type} {h : Host σ} {registered : List String} {actions : List PersistAction}
    {f : ExpressionFault} (hf : prepareAll context 0 actions = .error f) (s : Session σ) :
    applyActions h registered context actions s = (.error (.unresolved f), s) := by
  unfold applyActions
  rw [hf]
  rfl

end

end Workflow
