import Workflow.Proofs.Predicate.Misfits
import Workflow.Proofs.Template.References

/-!
# What binding accepts

A predicate can be bound where every operand has a value that fits, and its conditions are then bound one by one. It fails
with the fault of the first operand, in reading order, that has no value or one that does not fit. An operand that resolves
has a value unless a text or a key within it cannot be written.
-/

namespace Workflow.Predicate

/-- The operator that takes the place of another one for a value: null is tested for. -/
def Operator.against (s : Scalar) : Operator → Operator
  | eq => if s = .null then .isNull else .eq
  | ne => if s = .null then .notNull else .ne
  | op => op

def listed : List Value → List Value
  | [v] => (items? v).getD [v]
  | vs => vs

abbrev Valued (context : Members) (expression : String) : List Operand → List Value → Prop :=
  List.Forall₂ fun o v => o.value context expression = .ok v

/-- What a condition is bound to. -/
inductive Condition.BindsTo (context : Members) (expression : String) : Condition → BoundCondition → Prop
  | comparison {c : Column} {op : Operator} {o : Operand} {s : Scalar} : o.value context expression = .ok (.scalar s) →
      (op.isOrder = true → s ≠ .null) → BindsTo context expression (.comparison c op o) (.comparison c.name (op.against s) s)
  | membership {c : Column} {negated : Bool} {os : List Operand} {vs : List Value} {ss : List Scalar} :
      Valued context expression os vs → listed vs = ss.map .scalar → ss ≠ [] →
      BindsTo context expression (.membership c negated os) (.membership c.name negated ss)

/-- Whether a context has what an operand refers to. -/
def Operand.Resolves (context : Members) : Operand → Prop
  | literal _ => True
  | template t => t.missing context = []
  | param name => (Members.get? context name).isSome = true

instance (context : Members) : DecidablePred (Operand.Resolves context)
  | .literal _ => .isTrue trivial
  | .template t => inferInstanceAs (Decidable (t.missing context = []))
  | .param name => inferInstanceAs (Decidable ((Members.get? context name).isSome = true))

/-- All operands of a predicate resolve, none breaks down on the way, and their values fit. -/
structure Bindable (p : Predicate) (context : Members) (expression : String) : Prop where
  resolves : ∀ o ∈ p.operands, o.Resolves context
  unbroken : ∀ o ∈ p.operands, ∀ b, o.value context expression ≠ .error (.breakdown b)
  compared : ∀ c op o v, .comparison c op o ∈ p.conditions → o.value context expression = .ok v → ¬ Structured v
  ordered : ∀ c op o, .comparison c op o ∈ p.conditions → op.isOrder = true → o.value context expression ≠ .ok .null
  listed : ∀ c negated os vs, .membership c negated os ∈ p.conditions → Valued context expression os vs →
    listed vs ≠ [] ∧ ∀ v ∈ listed vs, ¬ Structured v

/-- The operands of a predicate in reading order, each with its condition. -/
def places (p : Predicate) : List (Condition × Operand) := p.conditions.flatMap fun c => c.operands.map fun o => (c, o)

/-- What is wrong with an operand of a condition. -/
inductive Offends (context : Members) (expression : String) : Condition × Operand → ExpressionFault → Prop
  | unresolved {c : Condition} {o : Operand} {u : Unresolved} : o.value context expression = .error (.unresolved u) →
      Offends context expression (c, o) (.unresolved u)
  | breakdown {c : Condition} {o : Operand} {b : Breakdown} : o.value context expression = .error (.breakdown b) →
      Offends context expression (c, o) (.breakdown b)
  | compared {c : Column} {op : Operator} {o : Operand} {v : Value} : o.value context expression = .ok v → Structured v →
      Offends context expression (.comparison c op o, o) (structuredFault expression v)
  | order {c : Column} {op : Operator} {o : Operand} : o.value context expression = .ok .null → op.isOrder = true →
      Offends context expression (.comparison c op o, o) (.predicate expression (.orderNull c.text))
  | listed {c : Column} {negated : Bool} {os : List Operand} {o : Operand} {v : Value} :
      o.value context expression = .ok v → (os.length = 1 → items? v = none) → Structured v →
      Offends context expression (.membership c negated os, o) (structuredFault expression v)
  | item {c : Column} {negated : Bool} {o : Operand} {v i : Value} {before after : List Value} :
      o.value context expression = .ok v → items? v = some (before ++ i :: after) → (∀ w ∈ before, ¬ Structured w) →
      Structured i → Offends context expression (.membership c negated [o], o) (structuredFault expression i)
  | empty {c : Column} {negated : Bool} {o : Operand} {v : Value} : o.value context expression = .ok v →
      items? v = some [] → Offends context expression (.membership c negated [o], o) (.predicate expression (.emptyList c.text))

section
variable {context : Members} {expression : String}

theorem structured_iff {v : Value} : ¬ Structured v ↔ ∃ s, v = .scalar s := by
  simp only [Structured, ne_eq, not_forall, not_not]

theorem scalarOf_error {v : Value} {f : ExpressionFault} :
    scalarOf expression v = .error f ↔ Structured v ∧ f = structuredFault expression v := by
  refine ⟨scalarOf_eq_error, ?_⟩
  rintro ⟨hv, rfl⟩
  cases v with
  | scalar s => exact absurd rfl (hv s)
  | _ => rfl

theorem operatorFor_iff {c : Column} {op op' : Operator} {s : Scalar} :
    operatorFor expression c op s = .ok op' ↔ (op.isOrder = true → s ≠ .null) ∧ op.against s = op' := by
  unfold operatorFor
  by_cases hs : s = .null
  · cases op <;> simp [hs, Operator.against, Operator.isOrder]
  · cases op <;> simp [hs, Operator.against]

/-! ## Lists -/

theorem scalars_iff {vs : List Value} {ss : List Scalar} :
    vs.mapM (scalarOf expression) = .ok ss ↔ vs = ss.map .scalar := by
  refine ⟨scalars_of_items, ?_⟩
  rintro rfl
  rw [mapM_eq_ok]
  induction ss with
  | nil => exact .nil
  | cons s ss ih => exact .cons rfl ih

theorem listValues_lone {o : Operand} {v : Value} (hv : o.value context expression = .ok v) :
    listValues context expression true o = (listed [v]).mapM (scalarOf expression) := by
  unfold listValues
  rw [hv]
  cases v <;> rfl

theorem listValues_several {o : Operand} {v : Value} (hv : o.value context expression = .ok v) :
    listValues context expression false o = [v].mapM (scalarOf expression) := by
  unfold listValues
  rw [hv]
  cases v <;> rfl

theorem listed_of_length {vs : List Value} (h : vs.length ≠ 1) : listed vs = vs := by
  match vs with
  | [] => rfl
  | [v] => exact absurd rfl h
  | _ :: _ :: _ => rfl

theorem parts_of_values {os : List Operand} {vs : List Value} (h : Valued context expression os vs) {parts : List (List Scalar)} :
    os.mapM (listValues context expression false) = .ok parts ↔
      ∃ ss : List Scalar, vs = ss.map .scalar ∧ parts = ss.map ([·]) := by
  induction h generalizing parts with
  | nil =>
    constructor
    · intro h
      cases h
      exact ⟨[], rfl, rfl⟩
    · rintro ⟨ss, hss, rfl⟩
      obtain rfl := List.map_eq_nil_iff.mp hss.symm
      rfl
  | cons hv _ ih =>
    rw [mapM_cons_eq_ok, listValues_several hv]
    constructor
    · rintro ⟨part, hpart, parts, hparts, rfl⟩
      obtain ⟨ss, rfl, rfl⟩ := ih.mp hparts
      obtain ⟨s, hs, _, hnil, rfl⟩ := mapM_cons_eq_ok.mp hpart
      cases hnil
      obtain rfl := scalarOf_eq_ok hs
      exact ⟨s :: ss, rfl, rfl⟩
    · rintro ⟨ss, hss, rfl⟩
      obtain ⟨s, ss, rfl, rfl, rfl⟩ := List.map_eq_cons_iff.mp hss.symm
      exact ⟨[s], rfl, _, ih.mpr ⟨ss, rfl, rfl⟩, rfl⟩

theorem scalars_of_values {os : List Operand} {vs : List Value} (h : Valued context expression os vs) {ss : List Scalar} :
    (∃ parts, os.mapM (listValues context expression (os.length == 1)) = .ok parts ∧ parts.flatten = ss) ↔
      listed vs = ss.map .scalar := by
  by_cases hlone : os.length = 1
  · obtain ⟨o, rfl⟩ := List.length_eq_one_iff.mp hlone
    obtain ⟨v, _, hv, hnil, rfl⟩ := List.forall₂_cons_left_iff.mp h
    obtain rfl := List.forall₂_nil_left_iff.mp hnil
    rw [← scalars_iff, ← listValues_lone hv]
    constructor
    · rintro ⟨parts, hparts, rfl⟩
      obtain ⟨part, hpart, _, hnil, rfl⟩ := mapM_cons_eq_ok.mp hparts
      cases hnil
      simpa using hpart
    · intro hss
      exact ⟨[ss], mapM_cons_eq_ok.mpr ⟨ss, hss, [], rfl, rfl⟩, by simp⟩
  · have hflatten (ss : List Scalar) : (ss.map ([·])).flatten = ss := by
      rw [← List.flatMap_def, List.flatMap_singleton']
    rw [listed_of_length (h.length_eq ▸ hlone), beq_eq_false_iff_ne.mpr hlone]
    simp only [parts_of_values h]
    constructor
    · rintro ⟨parts, ⟨ss', rfl, rfl⟩, rfl⟩
      rw [hflatten]
    · rintro rfl
      exact ⟨_, ⟨ss, rfl, rfl⟩, hflatten ss⟩

/-! ## What a condition is bound to -/

theorem bind_comparison_iff {c : Column} {op : Operator} {o : Operand} {b : BoundCondition} :
    (Condition.comparison c op o).bind context expression = .ok b ↔
      (Condition.comparison c op o).BindsTo context expression b := by
  constructor
  · intro h
    obtain ⟨v, hv, h⟩ := bind_eq_ok.mp h
    obtain ⟨s, hs, h⟩ := bind_eq_ok.mp h
    obtain ⟨op', hop, h⟩ := bind_eq_ok.mp h
    obtain rfl := scalarOf_eq_ok hs
    obtain ⟨horder, rfl⟩ := operatorFor_iff.mp hop
    cases h
    exact .comparison hv horder
  · intro h
    cases h with
    | comparison hv horder =>
      exact bind_eq_ok.mpr ⟨_, hv, bind_eq_ok.mpr ⟨_, rfl, bind_eq_ok.mpr ⟨_, operatorFor_iff.mpr ⟨horder, rfl⟩, rfl⟩⟩⟩

theorem valued_of_parts {os : List Operand} {lone : Bool} {parts : List (List Scalar)}
    (h : os.mapM (listValues context expression lone) = .ok parts) : ∃ vs, Valued context expression os vs := by
  have hvalues : ∀ o ∈ os, ∃ v, o.value context expression = .ok v := by
    intro o ho
    obtain ⟨part, -, hpart⟩ := exists_result h o ho
    obtain ⟨v, hv, -⟩ := bind_eq_ok.mp hpart
    exact ⟨v, hv⟩
  obtain ⟨vs, hvs⟩ := exists_mapM hvalues
  exact ⟨vs, mapM_eq_ok.mp hvs⟩

theorem bind_membership_iff {c : Column} {negated : Bool} {os : List Operand} {b : BoundCondition} :
    (Condition.membership c negated os).bind context expression = .ok b ↔
      (Condition.membership c negated os).BindsTo context expression b := by
  constructor
  · intro h
    obtain ⟨parts, hparts, h⟩ := bind_eq_ok.mp h
    obtain ⟨vs, hvs⟩ := valued_of_parts hparts
    have hlisted := (scalars_of_values hvs).mp ⟨parts, hparts, rfl⟩
    split at h
    · cases h
    · rename_i hne
      cases h
      exact .membership hvs hlisted hne
  · intro h
    cases h with
    | membership hvs hlisted hne =>
      obtain ⟨parts, hparts, rfl⟩ := (scalars_of_values hvs).mpr hlisted
      rw [Condition.bind, hparts, ok_bind]
      split
      · exact absurd ‹_› hne
      · rfl

theorem bind_iff {c : Condition} {b : BoundCondition} :
    c.bind context expression = .ok b ↔ c.BindsTo context expression b := by
  cases c with
  | comparison c op o => exact bind_comparison_iff
  | membership c negated os => exact bind_membership_iff

/-! ## What binding refuses -/

theorem offends_of_value {c : Condition} {o : Operand} {f : ExpressionFault} (h : o.value context expression = .error f) :
    Offends context expression (c, o) f := by
  rcases value_eq_error h with ⟨u, rfl⟩ | ⟨b, rfl⟩
  · exact .unresolved h
  · exact .breakdown h

theorem bind_comparison_error_iff {c : Column} {op : Operator} {o : Operand} {f : ExpressionFault} :
    (Condition.comparison c op o).bind context expression = .error f ↔
      Offends context expression (.comparison c op o, o) f := by
  constructor
  · intro h
    rcases bind_eq_error.mp h with hu | ⟨v, hv, hscalar⟩
    · exact offends_of_value hu
    rcases bind_eq_error.mp hscalar with hs | ⟨s, hs, hbound⟩
    · obtain ⟨hstructured, rfl⟩ := scalarOf_eq_error hs
      exact .compared hv hstructured
    rcases bind_eq_error.mp hbound with hop | ⟨op', -, hnone⟩
    · obtain rfl := scalarOf_eq_ok hs
      obtain ⟨rfl, horder, rfl⟩ := operatorFor_eq_error hop
      exact .order hv horder
    · cases hnone
  · intro h
    cases h with
    | unresolved hu => exact bind_eq_error.mpr (.inl hu)
    | breakdown hu => exact bind_eq_error.mpr (.inl hu)
    | compared hv hstructured =>
      exact bind_eq_error.mpr (.inr ⟨_, hv, bind_eq_error.mpr (.inl (scalarOf_error.mpr ⟨hstructured, rfl⟩))⟩)
    | order hv horder =>
      refine bind_eq_error.mpr (.inr ⟨_, hv, bind_eq_error.mpr (.inr ⟨.null, rfl, bind_eq_error.mpr (.inl ?_)⟩)⟩)
      cases op <;> first | rfl | cases horder

theorem singleton_error_iff {v : Value} {f : ExpressionFault} :
    [v].mapM (scalarOf expression) = .error f ↔ Structured v ∧ f = structuredFault expression v := by
  rw [firstFault_of_mapM, firstFault_singleton, scalarOf_error]

theorem listValues_several_error_iff {c : Column} {negated : Bool} {os : List Operand} (hos : os.length ≠ 1) {o : Operand}
    {f : ExpressionFault} : listValues context expression false o = .error f ↔
      Offends context expression (.membership c negated os, o) f := by
  constructor
  · intro h
    rcases bind_eq_error.mp h with hu | ⟨v, hv, -⟩
    · exact offends_of_value hu
    · rw [listValues_several hv, singleton_error_iff] at h
      obtain ⟨hstructured, rfl⟩ := h
      exact .listed hv (absurd · hos) hstructured
  · intro h
    cases h with
    | unresolved hu => exact bind_eq_error.mpr (.inl hu)
    | breakdown hu => exact bind_eq_error.mpr (.inl hu)
    | listed hv _ hstructured =>
      rw [listValues_several hv, singleton_error_iff]
      exact ⟨hstructured, rfl⟩
    | item => exact absurd rfl hos
    | empty => exact absurd rfl hos

theorem bind_several_error_iff {c : Column} {negated : Bool} {os : List Operand} (hos : os.length ≠ 1) (hne : os ≠ [])
    {f : ExpressionFault} : (Condition.membership c negated os).bind context expression = .error f ↔
      FirstFault (fun o => Offends context expression (.membership c negated os, o)) os f := by
  -- each operand leaves a value, so the list is never empty
  have hfilled {parts : List (List Scalar)} (h : os.mapM (listValues context expression false) = .ok parts) :
      parts.flatten ≠ [] := by
    obtain ⟨o, ho⟩ := List.exists_mem_of_ne_nil os hne
    obtain ⟨part, hpart, hl⟩ := exists_result h o ho
    intro hnil
    rw [List.flatten_eq_nil_iff.mp hnil part hpart] at hl
    cases (listValues_eq_nil hl).1
  have hmapM : os.mapM (listValues context expression false) = .error f ↔
      (Condition.membership c negated os).bind context expression = .error f := by
    rw [Condition.bind, beq_eq_false_iff_ne.mpr hos, bind_eq_error, iff_self_or]
    rintro ⟨parts, hparts, h⟩
    split at h
    · exact absurd ‹_› (hfilled hparts)
    · cases h
  rw [← hmapM, firstFault_of_mapM]
  exact firstFault_congr fun o _ f => listValues_several_error_iff hos

theorem listed_of_items {v : Value} {vs : List Value} (h : items? v = some vs) : listed [v] = vs := by
  rw [listed, h]
  rfl

theorem listed_of_not_items {v : Value} (h : items? v = none) : listed [v] = [v] := by
  rw [listed, h]
  rfl

theorem bind_lone_of_error {c : Column} {negated : Bool} {o : Operand} {f : ExpressionFault}
    (hv : o.value context expression = .error f) :
    (Condition.membership c negated [o]).bind context expression = .error f := by
  rw [Condition.bind, List.mapM_cons, listValues, hv]
  rfl

theorem bind_lone_error_iff_of_value {c : Column} {negated : Bool} {o : Operand} {v : Value}
    (hv : o.value context expression = .ok v) {f : ExpressionFault} :
    (Condition.membership c negated [o]).bind context expression = .error f ↔
      (listed [v]).mapM (scalarOf expression) = .error f ∨
        listed [v] = [] ∧ f = .predicate expression (.emptyList c.text) := by
  have hparts : [o].mapM (listValues context expression ([o].length == 1)) =
      (listed [v]).mapM (scalarOf expression) >>= fun ss => .ok [ss] := by
    rw [List.length_singleton, beq_self_eq_true, List.mapM_cons, List.mapM_nil, listValues_lone hv]
    rfl
  constructor
  · intro h
    rcases bind_eq_error.mp h with h | ⟨parts, hok, h⟩
    · rw [hparts] at h
      rcases bind_eq_error.mp h with h | ⟨ss, -, h⟩
      · exact .inl h
      · cases h
    · rw [hparts] at hok
      obtain ⟨ss, hss, hok⟩ := bind_eq_ok.mp hok
      cases hok
      split at h
      · rename_i hnil
        cases h
        rw [List.flatten_singleton] at hnil
        subst hnil
        exact .inr ⟨scalars_iff.mp hss, rfl⟩
      · cases h
  · rintro (h | ⟨hnil, rfl⟩)
    · exact bind_eq_error.mpr (.inl (by rw [hparts, h]; rfl))
    · exact bind_eq_error.mpr (.inr ⟨[[]], by rw [hparts, hnil]; rfl, rfl⟩)

theorem bind_lone_error_iff {c : Column} {negated : Bool} {o : Operand} {f : ExpressionFault} :
    (Condition.membership c negated [o]).bind context expression = .error f ↔
      Offends context expression (.membership c negated [o], o) f := by
  constructor
  · intro h
    cases hv : o.value context expression with
    | error g =>
      rw [bind_lone_of_error hv] at h
      cases h
      exact offends_of_value hv
    | ok v =>
      rw [bind_lone_error_iff_of_value hv] at h
      cases hi : items? v with
      | none =>
        rw [listed_of_not_items hi, singleton_error_iff] at h
        obtain ⟨hstructured, rfl⟩ | ⟨hnil, -⟩ := h
        · exact .listed hv (fun _ => hi) hstructured
        · cases hnil
      | some vs =>
        rw [listed_of_items hi] at h
        obtain h | ⟨rfl, rfl⟩ := h
        · obtain ⟨before, i, after, rfl, hbefore, hf⟩ := mapM_eq_error.mp h
          obtain ⟨hstructured, rfl⟩ := scalarOf_eq_error hf
          refine .item hv hi (fun w hw => ?_) hstructured
          obtain ⟨s, hs⟩ := hbefore w hw
          exact structured_iff.mpr ⟨s, scalarOf_eq_ok hs⟩
        · exact .empty hv hi
  · intro h
    cases h with
    | unresolved hu => exact bind_lone_of_error hu
    | breakdown hu => exact bind_lone_of_error hu
    | listed hv hi hstructured =>
      refine (bind_lone_error_iff_of_value hv).mpr (.inl ?_)
      rw [listed_of_not_items (hi rfl), singleton_error_iff]
      exact ⟨hstructured, rfl⟩
    | item hv hi hbefore hstructured =>
      refine (bind_lone_error_iff_of_value hv).mpr (.inl ?_)
      rw [listed_of_items hi, mapM_eq_error]
      refine ⟨_, _, _, rfl, fun w hw => ?_, scalarOf_error.mpr ⟨hstructured, rfl⟩⟩
      obtain ⟨s, rfl⟩ := structured_iff.mp (hbefore w hw)
      exact ⟨s, rfl⟩
    | empty hv hi => exact (bind_lone_error_iff_of_value hv).mpr (.inr ⟨listed_of_items hi, rfl⟩)

/-- A condition is refused for the first of its operands that there is something wrong with. -/
theorem bind_error_iff {c : Condition} (hne : c.operands ≠ []) {f : ExpressionFault} :
    c.bind context expression = .error f ↔ FirstFault (fun o => Offends context expression (c, o)) c.operands f := by
  cases c with
  | comparison c op o => rw [bind_comparison_error_iff, Condition.operands, firstFault_singleton]
  | membership c negated os =>
    by_cases hos : os.length = 1
    · obtain ⟨o, rfl⟩ := List.length_eq_one_iff.mp hos
      rw [bind_lone_error_iff, Condition.operands, firstFault_singleton]
    · exact bind_several_error_iff hos hne

/-! ## Predicates -/

theorem exists_value_iff {o : Operand} : (∃ v, o.value context expression = .ok v) ↔
    o.Resolves context ∧ ∀ b, o.value context expression ≠ .error (.breakdown b) := by
  cases o with
  | literal s =>
    refine iff_of_true ⟨_, rfl⟩ ⟨trivial, fun b h => ?_⟩
    cases h
  | param name =>
    simp only [Operand.value, Operand.Resolves]
    cases Members.get? context name <;> simp
  | template t =>
    simp only [Operand.value, Operand.Resolves, mapError_eq_ok]
    constructor
    · rintro ⟨v, hv⟩
      refine ⟨(Template.value_ok.mp hv).2, fun b h => ?_⟩
      rw [hv] at h
      cases h
    · rintro ⟨hnil, hunbroken⟩
      cases hv : t.value context with
      | ok v => exact ⟨v, rfl⟩
      | error f =>
        rw [hv] at hunbroken
        rcases Template.value_error hv with ⟨b, -, rfl⟩ | ⟨path, rest, hmissing, -⟩
        · exact absurd rfl (hunbroken b)
        · rw [hnil] at hmissing
          cases hmissing

theorem bindsTo_comparison_iff {c : Column} {op : Operator} {o : Operand} :
    (∃ b, (Condition.comparison c op o).BindsTo context expression b) ↔ (∃ v, o.value context expression = .ok v) ∧
      (∀ v, o.value context expression = .ok v → ¬ Structured v) ∧
      (op.isOrder = true → o.value context expression ≠ .ok .null) := by
  constructor
  · rintro ⟨b, h⟩
    cases h with
    | comparison hv horder =>
      refine ⟨⟨_, hv⟩, fun v hv' => ?_, fun ho hnull => ?_⟩
      · cases hv.symm.trans hv'
        exact structured_iff.mpr ⟨_, rfl⟩
      · cases hv.symm.trans hnull
        exact horder ho rfl
  · rintro ⟨⟨v, hv⟩, hscalar, horder⟩
    obtain ⟨s, rfl⟩ := structured_iff.mp (hscalar v hv)
    refine ⟨_, .comparison hv fun ho => ?_⟩
    rintro rfl
    exact horder ho hv

theorem valued_unique {os : List Operand} {vs ws : List Value} (hvs : Valued context expression os vs)
    (hws : Valued context expression os ws) : vs = ws := by
  rw [Valued, ← mapM_eq_ok] at hvs hws
  cases hvs.symm.trans hws
  rfl

theorem unstructured_iff {vs : List Value} : (∀ v ∈ vs, ¬ Structured v) ↔ ∃ ss : List Scalar, vs = ss.map .scalar := by
  simp only [structured_iff]
  constructor
  · intro h
    have hscalars : ∀ v ∈ vs, ∃ s, scalarOf "" v = .ok s := by
      intro v hv
      obtain ⟨s, rfl⟩ := h v hv
      exact ⟨s, rfl⟩
    obtain ⟨ss, hss⟩ := exists_mapM hscalars
    exact ⟨ss, scalars_iff.mp hss⟩
  · rintro ⟨ss, rfl⟩ v hv
    obtain ⟨s, -, rfl⟩ := List.mem_map.mp hv
    exact ⟨s, rfl⟩

theorem bindsTo_membership_iff {c : Column} {negated : Bool} {os : List Operand} :
    (∃ b, (Condition.membership c negated os).BindsTo context expression b) ↔
      (∀ o ∈ os, ∃ v, o.value context expression = .ok v) ∧
      ∀ vs, Valued context expression os vs → listed vs ≠ [] ∧ ∀ v ∈ listed vs, ¬ Structured v := by
  constructor
  · rintro ⟨b, h⟩
    cases h with
    | membership hvs hlisted hne =>
      refine ⟨fun o ho => ?_, fun ws hws => ?_⟩
      · obtain ⟨v, -, hv⟩ := (exists_of_forall₂ hvs).1 o ho
        exact ⟨v, hv⟩
      · rw [← valued_unique hvs hws, hlisted]
        exact ⟨by simpa using hne, unstructured_iff.mpr ⟨_, rfl⟩⟩
  · rintro ⟨hresolves, hfit⟩
    obtain ⟨vs, hvs⟩ := exists_mapM hresolves
    obtain ⟨hne, hscalars⟩ := hfit vs (mapM_eq_ok.mp hvs)
    obtain ⟨ss, hss⟩ := unstructured_iff.mp hscalars
    refine ⟨_, .membership (mapM_eq_ok.mp hvs) hss ?_⟩
    rintro rfl
    exact hne hss

theorem bindable_iff {p : Predicate} :
    (∀ c ∈ p.conditions, ∃ b, c.BindsTo context expression b) ↔ p.Bindable context expression := by
  constructor
  · intro h
    have hvalue (o : Operand) (ho : o ∈ p.operands) : ∃ v, o.value context expression = .ok v := by
      obtain ⟨c, hc, ho⟩ := List.mem_flatMap.mp ho
      cases c with
      | comparison c op o' =>
        obtain rfl := List.mem_singleton.mp ho
        exact (bindsTo_comparison_iff.mp (h _ hc)).1
      | membership c negated os => exact (bindsTo_membership_iff.mp (h _ hc)).1 o ho
    refine ⟨fun o ho => ?_, fun o ho => ?_, fun c op o v hc => ?_, fun c op o hc => ?_, fun c negated os vs hc => ?_⟩
    · exact (exists_value_iff.mp (hvalue o ho)).1
    · exact (exists_value_iff.mp (hvalue o ho)).2
    · exact (bindsTo_comparison_iff.mp (h _ hc)).2.1 v
    · exact (bindsTo_comparison_iff.mp (h _ hc)).2.2
    · exact (bindsTo_membership_iff.mp (h _ hc)).2 vs
  · intro h c hc
    have hresolves (o : Operand) (ho : o ∈ c.operands) : ∃ v, o.value context expression = .ok v :=
      have hm : o ∈ p.operands := List.mem_flatMap.mpr ⟨c, hc, ho⟩
      exists_value_iff.mpr ⟨h.resolves o hm, h.unbroken o hm⟩
    cases c with
    | comparison c op o =>
      exact bindsTo_comparison_iff.mpr
        ⟨hresolves o (List.mem_singleton.mpr rfl), fun v => h.compared c op o v hc, h.ordered c op o hc⟩
    | membership c negated os =>
      exact bindsTo_membership_iff.mpr ⟨hresolves, fun vs => h.listed c negated os vs hc⟩

/-- A predicate that was read can be bound where all its operands resolve to values that fit and none breaks down. Each
condition is then bound on its own. Otherwise the first operand in reading order that has no value, or one that does not
fit, says why not. -/
theorem bind_decides {templates : Bool} {text : String} {p : Predicate} (hp : parseWith templates text = .ok p)
    (context : Members) (expression : String) :
    ((∃ bs, p.bind context expression = .ok bs) ↔ p.Bindable context expression) ∧
      (∀ bs, p.bind context expression = .ok bs ↔ List.Forall₂ (Condition.BindsTo context expression) p.conditions bs) ∧
      ∀ f, p.bind context expression = .error f ↔ FirstFault (Offends context expression) p.places f := by
  refine ⟨?_, fun bs => ?_, fun f => ?_⟩
  · rw [← bindable_iff]
    constructor
    · rintro ⟨bs, hbs⟩ c hc
      obtain ⟨b, -, hb⟩ := exists_result hbs c hc
      exact ⟨b, bind_iff.mp hb⟩
    · intro h
      refine exists_mapM fun c hc => ?_
      obtain ⟨b, hb⟩ := h c hc
      exact ⟨b, bind_iff.mpr hb⟩
  · simp only [Predicate.bind, mapM_eq_ok, bind_iff]
  · calc p.bind context expression = .error f
        ↔ FirstFault (fun (c : Condition) f => c.bind context expression = .error f) p.conditions f := firstFault_of_mapM
      _ ↔ FirstFault (fun (c : Condition) => FirstFault (fun o => Offends context expression (c, o)) c.operands) p.conditions f :=
        firstFault_congr fun c hc _ => bind_error_iff (operands_ne_nil hp c hc)
      _ ↔ FirstFault (Offends context expression) p.places f := by
        rw [places, firstFault_flatMap]
        exact firstFault_congr fun c _ _ => firstFault_map.symm

end

/-- A test for null, a list that a value stands for, and an order. -/
def rules : String := "a = \x7b\x7b gone \x7d\x7d AND b NOT IN (\x7b\x7b ids \x7d\x7d) AND c < :top"

def rulesContext (top : Scalar) : Members :=
  [(.text "gone", .null), (.text "ids", .tuple [.int 7, .int 7, .int 8]), (.text "top", .scalar top)]

def rulesBound : List BoundCondition :=
  [.comparison "a" .isNull .null, .membership "b" true [.int 7, .int 7, .int 8], .comparison "c" .lt (.int 9)]

theorem bind_decides_rules : ∃ p bs c, parseWith true rules = .ok p ∧ p.Bindable (rulesContext (.int 9)) rules ∧
    List.Forall₂ (Condition.BindsTo (rulesContext (.int 9)) rules) p.conditions bs ∧ bs = rulesBound ∧
    FirstFault (Offends (rulesContext .null) rules) p.places (.predicate rules (.orderNull c)) := by
  have hread : (parseWith true rules).toOption.any (fun p =>
      (p.bind (rulesContext (.int 9)) rules).toOption.any (fun bs => decide (bs = rulesBound)) &&
      (fault? (p.bind (rulesContext .null) rules)).any fun
        | .predicate e (.orderNull _) => e == rules
        | _ => false) = true := by
    decide +kernel
  obtain ⟨p, hp, h⟩ := any_toOption.mp hread
  obtain ⟨hbound, hfault⟩ := Bool.and_eq_true_iff.mp h
  obtain ⟨bs, hbs, heq⟩ := any_toOption.mp hbound
  obtain ⟨f, hf, h⟩ := any_fault?.mp hfault
  obtain ⟨hbindable, hbinds, -⟩ := bind_decides hp (rulesContext (.int 9)) rules
  obtain ⟨-, -, hrefused⟩ := bind_decides hp (rulesContext .null) rules
  split at h
  · obtain rfl := beq_iff_eq.mp h
    exact ⟨p, bs, _, hp, hbindable.mp ⟨bs, hbs⟩, (hbinds bs).mp hbs, of_decide_eq_true heq, (hrefused _).mp hf⟩
  · cases h

/-- A text around a mapping whose keys have no order. -/
def mixedRule : String := "a = 'x\x7b\x7b m \x7d\x7d'"

def mixedValues : Members := [(.text "m", .mapping [(.int 1, .int 1), (.text "a", .int 2)])]

/-- All operands resolve, none is structured or null, and the predicate is not bound. -/
theorem bind_mixed : ∃ p f, parseWith true mixedRule = .ok p ∧ (∀ o ∈ p.operands, o.Resolves mixedValues) ∧
    (∀ c ∈ p.conditions, ∃ column o, c = .comparison column .eq o) ∧
    p.bind mixedValues mixedRule = .error f ∧ f.breakdown? = some (.unordered "str" "int") := by
  have hc : (parseWith true mixedRule).toOption.any (fun p => decide (∀ o ∈ p.operands, o.Resolves mixedValues) &&
      p.conditions.all (fun | .comparison _ .eq _ => true | _ => false) &&
      (fault? (p.bind mixedValues mixedRule)).any fun f => decide (f.breakdown? = some (.unordered "str" "int"))) = true := by
    decide +kernel
  obtain ⟨p, hp, hc⟩ := any_toOption.mp hc
  obtain ⟨hc, hfault⟩ := Bool.and_eq_true_iff.mp hc
  obtain ⟨hresolves, hequal⟩ := Bool.and_eq_true_iff.mp hc
  obtain ⟨f, hf, hb⟩ := any_fault?.mp hfault
  refine ⟨p, f, hp, of_decide_eq_true hresolves, fun c hm => ?_, hf, of_decide_eq_true hb⟩
  have hm := List.all_eq_true.mp hequal c hm
  split at hm
  · exact ⟨_, _, rfl⟩
  · cases hm

end Workflow.Predicate
