import Workflow.Proofs.Predicate.Bound

/-!
# Values that do not fit

Binding a predicate that was read fails for two reasons only: an operand has no value, or it has one that does not fit
where it is used. A template, the grammar or the table of a predicate is never the reason. A breakdown in between is no
fault of the predicate.
-/

namespace Workflow.Predicate

def Structured (v : Value) : Prop := ∀ s, v ≠ .scalar s

def items? : Value → Option (List Value)
  | .list vs => some vs
  | .tuple vs => some vs
  | _ => none

inductive Misfit (context : Members) (expression : String) : Condition → Cause → Prop
  | compared {c : Column} {op : Operator} {o : Operand} {v : Value} : o.value context expression = .ok v →
      Structured v → Misfit context expression (.comparison c op o) (.structured v)
  | listed {c : Column} {negated : Bool} {os : List Operand} {o : Operand} {v : Value} : o ∈ os →
      o.value context expression = .ok v → (os = [o] → items? v = none) → Structured v →
      Misfit context expression (.membership c negated os) (.structured v)
  | item {c : Column} {negated : Bool} {o : Operand} {v i : Value} {vs : List Value} :
      o.value context expression = .ok v → items? v = some vs → i ∈ vs → Structured i →
      Misfit context expression (.membership c negated [o]) (.structured i)
  | order {c : Column} {op : Operator} {o : Operand} : op.isOrder = true → o.value context expression = .ok .null →
      Misfit context expression (.comparison c op o) (.orderNull c.text)
  | empty {c : Column} {negated : Bool} {o : Operand} {v : Value} : o.value context expression = .ok v →
      items? v = some [] → Misfit context expression (.membership c negated [o]) (.emptyList c.text)

inductive FromValues (context : Members) : ExpressionFault → Prop
  | unresolved (u : Unresolved) : FromValues context (.unresolved u)
  | misfit {expression : String} {p : Predicate} {c : Condition} {cause : Cause} : parse expression = .ok p →
      c ∈ p.conditions → Misfit context expression c cause → FromValues context (.predicate expression cause)

section
variable {context : Members} {expression : String} {f : ExpressionFault}

/-! ## Operands -/

/-- The faults of an operand that has no value. -/
def Valueless (f : ExpressionFault) : Prop := (∃ u, f = .unresolved u) ∨ ∃ b, f = .breakdown b

theorem value_eq_error {o : Operand} (h : o.value context expression = .error f) : Valueless f := by
  unfold Operand.value at h
  split at h
  · cases h
  · obtain ⟨g, -, rfl⟩ := mapError_eq_error.mp h
    cases g with
    | unresolved u => exact .inl ⟨u, rfl⟩
    | breakdown b => exact .inr ⟨b, rfl⟩
  · split at h
    · cases h
    · cases h
      exact .inl ⟨_, rfl⟩

theorem structuredFault_cases (v : Value) :
    structuredFault expression v = .predicate expression (.structured v) ∨ Valueless (structuredFault expression v) := by
  unfold structuredFault
  split
  · exact .inl rfl
  · exact .inr (.inr ⟨_, rfl⟩)

theorem scalarOf_eq_error {v : Value} (h : scalarOf expression v = .error f) :
    Structured v ∧ f = structuredFault expression v := by
  cases v with
  | scalar s => cases h
  | _ =>
    cases h
    exact ⟨nofun, rfl⟩

theorem operatorFor_eq_error {c : Column} {op : Operator} {s : Scalar} (h : operatorFor expression c op s = .error f) :
    s = .null ∧ op.isOrder = true ∧ f = .predicate expression (.orderNull c.text) := by
  unfold operatorFor at h
  split at h
  · rename_i hs
    cases op <;> cases h <;> exact ⟨hs, rfl, rfl⟩
  · cases h

theorem items_eq_error {vs : List Value} (h : vs.mapM (scalarOf expression) = .error f) :
    ∃ i ∈ vs, Structured i ∧ f = structuredFault expression i := by
  obtain ⟨i, hi, he⟩ := exists_fault h
  exact ⟨i, hi, scalarOf_eq_error he⟩

theorem listValues_eq_error {lone : Bool} {o : Operand} (h : listValues context expression lone o = .error f) :
    Valueless f ∨ ∃ v, o.value context expression = .ok v ∧
      ((lone = true → items? v = none) ∧ Structured v ∧ f = structuredFault expression v ∨
        lone = true ∧ ∃ vs, items? v = some vs ∧ ∃ i ∈ vs, Structured i ∧ f = structuredFault expression i) := by
  rcases bind_eq_error.mp h with h | ⟨v, hv, h⟩
  · exact .inl (value_eq_error h)
  · refine .inr ⟨v, hv, ?_⟩
    split at h
    · exact .inr ⟨rfl, _, rfl, items_eq_error h⟩
    · exact .inr ⟨rfl, _, rfl, items_eq_error h⟩
    · rename_i hlist htuple
      rcases bind_eq_error.mp h with h | ⟨s, -, h⟩
      · refine .inl ⟨?_, scalarOf_eq_error h⟩
        rintro rfl
        cases v with
        | list vs => exact absurd rfl (hlist vs rfl)
        | tuple vs => exact absurd rfl (htuple vs rfl)
        | _ => rfl
      · cases h

theorem listValues_eq_nil {lone : Bool} {o : Operand} (h : listValues context expression lone o = .ok []) :
    lone = true ∧ ∃ v, o.value context expression = .ok v ∧ items? v = some [] := by
  obtain ⟨v, hv, h⟩ := bind_eq_ok.mp h
  split at h
  · rw [scalars_of_items h] at hv
    exact ⟨rfl, _, hv, rfl⟩
  · rw [scalars_of_items h] at hv
    exact ⟨rfl, _, hv, rfl⟩
  · obtain ⟨s, -, h⟩ := bind_eq_ok.mp h
    cases h

/-! ## Conditions -/

theorem bind_comparison_eq_error {c : Column} {op : Operator} {o : Operand}
    (h : (Condition.comparison c op o).bind context expression = .error f) :
    Valueless f ∨
      ∃ cause, f = .predicate expression cause ∧ Misfit context expression (.comparison c op o) cause := by
  rcases bind_eq_error.mp h with h | ⟨v, hv, hr⟩
  · exact .inl (value_eq_error h)
  · rcases bind_eq_error.mp hr with h | ⟨s, hs, hr'⟩
    · obtain ⟨hstructured, rfl⟩ := scalarOf_eq_error h
      rcases structuredFault_cases v with he | he
      · exact .inr ⟨_, he, .compared hv hstructured⟩
      · exact .inl he
    · obtain rfl := scalarOf_eq_ok hs
      rcases bind_eq_error.mp hr' with h | ⟨op', -, h⟩
      · obtain ⟨rfl, ho, rfl⟩ := operatorFor_eq_error h
        exact .inr ⟨_, rfl, .order ho hv⟩
      · cases h

theorem bind_membership_eq_error {c : Column} {negated : Bool} {os : List Operand} (hne : os ≠ [])
    (h : (Condition.membership c negated os).bind context expression = .error f) :
    Valueless f ∨
      ∃ cause, f = .predicate expression cause ∧ Misfit context expression (.membership c negated os) cause := by
  -- a list stands for its items only where it is the one operand
  have hlone {o : Operand} (ho : o ∈ os) (hl : (os.length == 1) = true) : os = [o] := by
    obtain ⟨o', rfl⟩ := List.length_eq_one_iff.mp (beq_iff_eq.mp hl)
    rw [List.mem_singleton.mp ho]
  rcases bind_eq_error.mp h with h | ⟨parts, hparts, h⟩
  · obtain ⟨o, ho, h⟩ := exists_fault h
    rcases listValues_eq_error h with hu | ⟨v, hv, ⟨hi, hs, rfl⟩ | ⟨hl, vs, hvs, i, hi, hs, rfl⟩⟩
    · exact .inl hu
    · rcases structuredFault_cases v with he | he
      · exact .inr ⟨_, he, .listed ho hv (fun he => hi (by simp [he])) hs⟩
      · exact .inl he
    · cases hlone ho hl
      rcases structuredFault_cases i with he | he
      · exact .inr ⟨_, he, .item hv hvs hi hs⟩
      · exact .inl he
  · split at h
    · rename_i hnil
      cases h
      obtain ⟨o, ho⟩ := List.exists_mem_of_ne_nil os hne
      obtain ⟨part, hpart, hl⟩ := exists_result hparts o ho
      rw [List.flatten_eq_nil_iff.mp hnil part hpart] at hl
      obtain ⟨hl, v, hv, hvs⟩ := listValues_eq_nil hl
      cases hlone ho hl
      exact .inr ⟨_, rfl, .empty hv hvs⟩
    · cases h

theorem bind_eq_error_cases {c : Condition} (hne : c.operands ≠ []) (h : c.bind context expression = .error f) :
    Valueless f ∨ ∃ cause, f = .predicate expression cause ∧ Misfit context expression c cause := by
  cases c with
  | comparison c op o => exact bind_comparison_eq_error h
  | membership c negated os => exact bind_membership_eq_error hne h

/-! ## Predicates -/

theorem ClauseTree.Means.operands_ne_nil {templates : Bool} {d : ClauseTree} {c : Condition} (h : d.Means templates c) :
    c.operands ≠ [] := by
  cases h <;> simp [Condition.operands]

theorem MoreMeans.operands_ne_nil {templates : Bool} {more : List (Token × ClauseTree)} {cs : List Condition}
    (h : MoreMeans templates more cs) : ∀ c ∈ cs, c.operands ≠ [] := by
  induction h with
  | nil => simp
  | cons hq _ ih => exact List.forall_mem_cons.mpr ⟨hq.2.operands_ne_nil, ih⟩

theorem operands_ne_nil {templates : Bool} {p : Predicate} (h : parseWith templates expression = .ok p) :
    ∀ c ∈ p.conditions, c.operands ≠ [] := by
  obtain ⟨ts, ht, hp⟩ := parseWith_eq_ok.mp h
  obtain ⟨d, -, -, c, cs, hc, hd, hm⟩ := means_of_ofTokens (tokens_shaped ht) hp
  rw [hc]
  exact List.forall_mem_cons.mpr ⟨hd.operands_ne_nil, hm.operands_ne_nil⟩

theorem fromValues_or_breakdown {p : Predicate} (hp : parse expression = .ok p) (h : p.bind context expression = .error f) :
    FromValues context f ∨ ∃ b, f = .breakdown b := by
  obtain ⟨c, hc, h⟩ := exists_fault h
  rcases bind_eq_error_cases (operands_ne_nil hp c hc) h with (⟨u, rfl⟩ | hb) | ⟨cause, rfl, hm⟩
  · exact .inl (.unresolved u)
  · exact .inr hb
  · exact .inl (.misfit hp hc hm)

end

end Workflow.Predicate
