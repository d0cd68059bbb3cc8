import Workflow.Proofs.Predicate.RoundTrip

/-!
# Values do not change the shape of a clause

Two runs of one predicate render clauses that read back with the same conditions on the same columns, whatever the
values are: a value fills its own operand and nothing else. Only null shows in an operator, as a test for null. A run whose
values hold an integer that cannot be written has no clause.
-/

namespace Workflow

namespace Predicate

def Operator.nullTest? : Operator → Option Operator
  | eq => some isNull
  | ne => some notNull
  | _ => none

/-- The operators of two runs with their values: the same, unless the value is null in one run only. -/
def OperatorsAgree (op₁ : Operator) (s₁ : Scalar) (op₂ : Operator) (s₂ : Scalar) : Prop :=
  (s₁ = .null ↔ s₂ = .null) ∧ op₁ = op₂ ∨
    s₁ ≠ .null ∧ s₂ = .null ∧ op₁.nullTest? = some op₂ ∨
    s₁ = .null ∧ s₂ ≠ .null ∧ op₂.nullTest? = some op₁

/-- A scalar that stands where an operand stood: a literal stays what it is. -/
def FillsIn (o : Operand) (s : Scalar) : Prop := ∀ l, o = .literal l → s = l

/-- A condition of a predicate, and what became of it in two clauses. -/
inductive Condition.SameShape : Condition → Condition → Condition → Prop
  | comparison {c : Column} {op op₁ op₂ : Operator} {o : Operand} {s₁ s₂ : Scalar} : OperatorsAgree op₁ s₁ op₂ s₂ →
      FillsIn o s₁ → FillsIn o s₂ →
      SameShape (.comparison c op o) (.comparison c op₁ (.literal s₁)) (.comparison c op₂ (.literal s₂))
  | membership {c : Column} {negated : Bool} {os : List Operand} {ss₁ ss₂ : List Scalar} : List.Forall₂ FillsIn os ss₁ →
      List.Forall₂ FillsIn os ss₂ →
      SameShape (.membership c negated os) (.membership c negated (ss₁.map .literal)) (.membership c negated (ss₂.map .literal))

/-- An operand whose value is a scalar of the basic kinds. -/
def Operand.IsBasic (context : Members) (expression : String) (o : Operand) : Prop :=
  ∃ s : Scalar, o.value context expression = .ok (.scalar s) ∧ s.IsBasic

def scalar? : Except ExpressionFault Value → Option Scalar
  | .ok (.scalar s) => some s
  | _ => none

theorem isBasic_iff {context : Members} {expression : String} {o : Operand} :
    o.IsBasic context expression ↔ ∃ s ∈ scalar? (o.value context expression), s.IsBasic := by
  unfold Operand.IsBasic scalar?
  split
  · rename_i s hs
    simp [hs]
  · rename_i hs
    simpa using fun s h => absurd h (hs s)

instance (context : Members) (expression : String) : DecidablePred (Operand.IsBasic context expression) := fun _ =>
  decidable_of_iff _ isBasic_iff.symm

section
variable {expression : String} {context c₁ c₂ : Members}

theorem fillsIn_of_value {o : Operand} {s : Scalar} (h : o.value context expression = .ok (.scalar s)) : FillsIn o s := by
  rintro l rfl
  cases h
  rfl

theorem operatorsAgree {c : Column} {op op₁ op₂ : Operator} {s₁ s₂ : Scalar}
    (h₁ : operatorFor expression c op s₁ = .ok op₁) (h₂ : operatorFor expression c op s₂ = .ok op₂)
    (ho : op = .isNull ∨ op = .notNull → s₁ = .null ∧ s₂ = .null) : OperatorsAgree op₁ s₁ op₂ s₂ := by
  rcases operatorFor_eq_ok h₁ with ⟨hn₁, rfl⟩ | ⟨rfl, ht₁⟩
  · rcases operatorFor_eq_ok h₂ with ⟨hn₂, rfl⟩ | ⟨rfl, ht₂⟩
    · exact .inl ⟨iff_of_false hn₁ hn₂, rfl⟩
    · refine .inr (.inl ⟨hn₁, rfl, ?_⟩)
      -- a test for null that was written is one in both runs, so this one comes of `=` or `!=`
      rcases ht₂ with ⟨rfl | rfl, rfl⟩ | ⟨rfl | rfl, rfl⟩
      · rfl
      · exact absurd (ho (.inl rfl)).1 hn₁
      · rfl
      · exact absurd (ho (.inr rfl)).1 hn₁
  · rcases operatorFor_eq_ok h₂ with ⟨hn₂, rfl⟩ | ⟨rfl, ht₂⟩
    · refine .inr (.inr ⟨rfl, hn₂, ?_⟩)
      rcases ht₁ with ⟨rfl | rfl, rfl⟩ | ⟨rfl | rfl, rfl⟩
      · rfl
      · exact absurd (ho (.inl rfl)).2 hn₂
      · rfl
      · exact absurd (ho (.inr rfl)).2 hn₂
    · refine .inl ⟨Iff.rfl, ?_⟩
      rcases ht₁ with ⟨h, rfl⟩ | ⟨h, rfl⟩ <;> rcases ht₂ with ⟨h', rfl⟩ | ⟨h', rfl⟩
      · rfl
      · rcases h with rfl | rfl <;> rcases h' with h' | h' <;> cases h'
      · rcases h with rfl | rfl <;> rcases h' with h' | h' <;> cases h'
      · rfl

theorem fills_of_parts {lone : Bool} {os : List Operand} {parts : List (List Scalar)}
    (h : List.Forall₂ (fun o part => listValues context expression lone o = .ok part) os parts)
    (ho : ∀ o ∈ os, o.IsBasic context expression) : List.Forall₂ FillsIn os parts.flatten := by
  induction h with
  | nil => exact .nil
  | @cons o part os parts hp _ ih =>
    obtain ⟨s, hs, -⟩ := ho o (by simp)
    have : listValues context expression lone o = .ok [s] := by simp [listValues, hs, scalarOf]
    rw [this, Except.ok.injEq] at hp
    subst hp
    exact .cons (fillsIn_of_value hs) (ih fun x hx => ho x (by simp [hx]))

theorem Condition.Sound.sameShape {c : Condition} {b₁ b₂ : BoundCondition} (hs : c.Sound) (hq : c.column.table = none)
    (h₁ : c.bind c₁ expression = .ok b₁) (h₂ : c.bind c₂ expression = .ok b₂)
    (ho₁ : ∀ o ∈ c.operands, o.IsBasic c₁ expression) (ho₂ : ∀ o ∈ c.operands, o.IsBasic c₂ expression) :
    c.SameShape b₁.condition b₂.condition := by
  cases c with
  | comparison c op o =>
    obtain ⟨s₁, op₁, hv₁, hop₁, rfl⟩ := bind_comparison_eq_ok h₁
    obtain ⟨s₂, op₂, hv₂, hop₂, rfl⟩ := bind_comparison_eq_ok h₂
    obtain ⟨table, name⟩ := c
    cases hq
    refine .comparison (operatorsAgree hop₁ hop₂ fun hop => ?_) (fillsIn_of_value hv₁) (fillsIn_of_value hv₂)
    have := hs.nullTest _ _ _ rfl hop
    exact ⟨fillsIn_of_value hv₁ _ this, fillsIn_of_value hv₂ _ this⟩
  | membership c negated os =>
    obtain ⟨parts₁, hp₁, -, rfl⟩ := bind_membership_eq_ok h₁
    obtain ⟨parts₂, hp₂, -, rfl⟩ := bind_membership_eq_ok h₂
    obtain ⟨table, name⟩ := c
    cases hq
    exact .membership (fills_of_parts (mapM_eq_ok.mp hp₁) ho₁) (fills_of_parts (mapM_eq_ok.mp hp₂) ho₂)

/-! ## Clauses -/

theorem basic_of_operands {c : Condition} {b : BoundCondition} (h : c.bind context expression = .ok b)
    (ho : ∀ o ∈ c.operands, o.IsBasic context expression) : ∀ s ∈ b.values, s.IsBasic := by
  refine values_of_bind h fun o hm v hv => ?_
  obtain ⟨s, hs, hb⟩ := ho o hm
  rw [hs, Except.ok.injEq] at hv
  subst hv
  exact hb

theorem basic_of_bind {p : Predicate} {bs : List BoundCondition} (ho : ∀ o ∈ p.operands, o.IsBasic context expression)
    (hb : p.bind context expression = .ok bs) : ∀ b ∈ bs, ∀ s ∈ b.values, s.IsBasic := by
  intro b hm
  obtain ⟨c, hc, hcb⟩ := exists_argument hb b hm
  exact basic_of_operands hcb fun o hm => ho o (List.mem_flatMap.mpr ⟨c, hc, hm⟩)

theorem parseClause_of_compileClause {p : Predicate} {bs : List BoundCondition} (hp : parse expression = .ok p)
    (hq : ∀ c ∈ p.columns, c.table = none) (ho : ∀ o ∈ p.operands, o.IsBasic context expression)
    (hb : p.bind context expression = .ok bs) (hw : ∀ b ∈ bs, ∀ s ∈ b.values, s.isWritable = true) :
    ∃ w, compileClause expression context = .ok w ∧ parseClause w = .ok ⟨none, bs.map BoundCondition.condition⟩ := by
  have hr := (renderClause_eq_ok (regular_of_bind hp hb)).mpr ⟨hw, rfl⟩
  refine ⟨_, ?_, parseClause_of_unqualified hp hq hb (basic_of_bind ho hb) hr⟩
  rw [compileClause_of_bind hp hb, hr]
  rfl

theorem compileClause_unwritten {p : Predicate} {bs : List BoundCondition} (hp : parse expression = .ok p)
    (hb : p.bind context expression = .ok bs) (hw : ∃ b ∈ bs, ∃ s ∈ b.values, s.isWritable = false) :
    compileClause expression context = .error (.breakdown .unwritten) := by
  rw [compileClause_of_bind hp hb, (renderClause_eq_error (regular_of_bind hp hb)).mpr ⟨hw, rfl⟩]
  rfl

/-- **Values do not change the shape of a clause.** The clauses of two runs read back with the conditions of the predicate
one by one: on the same column, of the same kind, with as many operands, its literals among them, and with operators that
agree. Both runs have clauses if their integers can be written; a run with one that cannot breaks down. -/
theorem compileClause_same_shape {p : Predicate} {bs₁ bs₂ : List BoundCondition} (hp : parse expression = .ok p)
    (hq : ∀ c ∈ p.columns, c.table = none) (ho₁ : ∀ o ∈ p.operands, o.IsBasic c₁ expression)
    (ho₂ : ∀ o ∈ p.operands, o.IsBasic c₂ expression) (hb₁ : p.bind c₁ expression = .ok bs₁)
    (hb₂ : p.bind c₂ expression = .ok bs₂) :
    ((∀ b ∈ bs₁ ++ bs₂, ∀ s ∈ b.values, s.isWritable = true) → ∃ w₁ w₂ p₁ p₂,
      compileClause expression c₁ = .ok w₁ ∧ compileClause expression c₂ = .ok w₂ ∧
      parseClause w₁ = .ok p₁ ∧ parseClause w₂ = .ok p₂ ∧ p₁.table = none ∧ p₂.table = none ∧
      p₁.conditions.length = p.conditions.length ∧ p₂.conditions.length = p.conditions.length ∧
      ∀ (i : Nat) (c a b : Condition), p.conditions[i]? = some c → p₁.conditions[i]? = some a →
        p₂.conditions[i]? = some b → c.SameShape a b) ∧
    ((∃ b ∈ bs₁, ∃ s ∈ b.values, s.isWritable = false) → compileClause expression c₁ = .error (.breakdown .unwritten)) ∧
    ((∃ b ∈ bs₂, ∃ s ∈ b.values, s.isWritable = false) → compileClause expression c₂ = .error (.breakdown .unwritten)) := by
  refine ⟨fun hw => ?_, compileClause_unwritten hp hb₁, compileClause_unwritten hp hb₂⟩
  obtain ⟨w₁, h₁, hw₁⟩ := parseClause_of_compileClause hp hq ho₁ hb₁ fun b hm => hw b (by simp [hm])
  obtain ⟨w₂, h₂, hw₂⟩ := parseClause_of_compileClause hp hq ho₂ hb₂ fun b hm => hw b (by simp [hm])
  rw [Predicate.bind, mapM_eq_ok] at hb₁ hb₂
  refine ⟨w₁, w₂, _, _, h₁, h₂, hw₁, hw₂, rfl, rfl, ?_, ?_, ?_⟩
  · simpa using hb₁.length_eq.symm
  · simpa using hb₂.length_eq.symm
  · intro i c a b hc ha hb
    obtain ⟨hi, rfl⟩ := List.getElem?_eq_some_iff.mp hc
    simp only [List.getElem?_map, Option.map_eq_some_iff] at ha hb
    obtain ⟨b₁, hb₁i, rfl⟩ := ha
    obtain ⟨b₂, hb₂i, rfl⟩ := hb
    obtain ⟨hi₁, rfl⟩ := List.getElem?_eq_some_iff.mp hb₁i
    obtain ⟨hi₂, rfl⟩ := List.getElem?_eq_some_iff.mp hb₂i
    have hm : p.conditions[i] ∈ p.conditions := List.getElem_mem hi
    have hops : ∀ o ∈ p.conditions[i].operands, o ∈ p.operands := fun o ho => List.mem_flatMap.mpr ⟨_, hm, ho⟩
    exact (sound_of_parseWith hp _ hm).sameShape (hq _ (List.mem_map_of_mem hm)) ((List.forall₂_iff_get.mp hb₁).2 i hi hi₁)
      ((List.forall₂_iff_get.mp hb₂).2 i hi hi₂) (fun o ho => ho₁ o (hops o ho)) fun o ho => ho₂ o (hops o ho)

end

/-- A value that would end its condition and start another, against none. -/
def shapeExpression : String := "owner != :who AND kind IN ('a', \x7b\x7b kind \x7d\x7d)"

def injected : Members := [(.text "who", .text "x' AND kind IN ('"), (.text "kind", .text "a', 'b') OR ('"), (.text "n", .int 1)]

def absent : Members := [(.text "who", .null), (.text "kind", .int 7)]

theorem compileClause_same_shape_injected : ∃ p bs₁ bs₂ w₁ w₂ p₁ p₂,
    parse shapeExpression = .ok p ∧ (∀ c ∈ p.columns, c.table = none) ∧
      (∀ o ∈ p.operands, o.IsBasic injected shapeExpression) ∧ (∀ o ∈ p.operands, o.IsBasic absent shapeExpression) ∧
      p.bind injected shapeExpression = .ok bs₁ ∧ p.bind absent shapeExpression = .ok bs₂ ∧
      (∀ b ∈ bs₁ ++ bs₂, ∀ s ∈ b.values, s.isWritable = true) ∧
      compileClause shapeExpression injected = .ok w₁ ∧ compileClause shapeExpression absent = .ok w₂ ∧
      parseClause w₁ = .ok p₁ ∧ parseClause w₂ = .ok p₂ ∧ p₁.table = none ∧ p₂.table = none ∧
      p₁.conditions.length = p.conditions.length ∧ p₂.conditions.length = p.conditions.length ∧
      ∀ (i : Nat) (c a b : Condition), p.conditions[i]? = some c → p₁.conditions[i]? = some a →
        p₂.conditions[i]? = some b → c.SameShape a b := by
  have hc : (parse shapeExpression).toOption.any (fun p => decide ((∀ c ∈ p.columns, c.table = none) ∧
      (∀ o ∈ p.operands, o.IsBasic injected shapeExpression) ∧ ∀ o ∈ p.operands, o.IsBasic absent shapeExpression) &&
      (p.bind injected shapeExpression).toOption.any fun bs₁ => (p.bind absent shapeExpression).toOption.any fun bs₂ =>
        decide (∀ b ∈ bs₁ ++ bs₂, ∀ s ∈ b.values, s.isWritable = true)) = true := by
    decide +kernel
  obtain ⟨p, hp, hc⟩ := any_toOption.mp hc
  obtain ⟨hbasic, hc⟩ := (Bool.and_eq_true ..).mp hc
  obtain ⟨bs₁, hb₁, hc⟩ := any_toOption.mp hc
  obtain ⟨bs₂, hb₂, hc⟩ := any_toOption.mp hc
  rw [decide_eq_true_eq] at hbasic hc
  obtain ⟨hq, ho₁, ho₂⟩ := hbasic
  obtain ⟨w₁, w₂, p₁, p₂, h⟩ := (compileClause_same_shape hp hq ho₁ ho₂ hb₁ hb₂).1 hc
  exact ⟨p, bs₁, bs₂, w₁, w₂, p₁, p₂, hp, hq, ho₁, ho₂, hb₁, hb₂, hc, h⟩

/-- Two runs that are both bound, and only the first of which has a clause. -/
theorem compileClause_huge : ∃ p bs₁ bs₂ w, parse plainExpression = .ok p ∧ (∀ c ∈ p.columns, c.table = none) ∧
    p.bind [(.text "x", .int 1)] plainExpression = .ok bs₁ ∧ p.bind [(.text "x", .int hugeNumber)] plainExpression = .ok bs₂ ∧
    (∀ b ∈ bs₁ ++ bs₂, ∀ s ∈ b.values, s.IsBasic) ∧ compileClause plainExpression [(.text "x", .int 1)] = .ok w ∧
    ∀ w', compileClause plainExpression [(.text "x", .int hugeNumber)] ≠ .ok w' := by
  refine ⟨_, _, _, "a = 1", parse_plainExpression, List.forall_mem_singleton.mpr rfl, bind_plainPredicate 1,
    bind_plainPredicate hugeNumber, ?_, rfl, fun w' hw => ?_⟩
  · exact List.forall_mem_cons.mpr ⟨List.forall_mem_singleton.mpr trivial,
      List.forall_mem_singleton.mpr (List.forall_mem_singleton.mpr trivial)⟩
  · rw [compileClause_of_bind parse_plainExpression (bind_plainPredicate hugeNumber), mapError_eq_ok] at hw
    exact renderClause_unwritable hugeNumber_unwritable hw

end Predicate

end Workflow
