import Workflow.Proofs.Predicate.Faults
import Workflow.Proofs.Predicate.Numerals

/-!
# Bound conditions

A predicate that was read names columns that are names, tests for null only with null, and has literals that a clause can
hold. Binding keeps the columns, and turns `=` and `!=` into tests for null where the operand is null, so what it leaves has
the form of a clause.
-/

namespace Workflow

/-! ## Scalars of a clause -/

/-- Scalars that a clause holds as what they are. Dates and bytes it holds as texts. -/
def Scalar.Plain : Scalar → Prop
  | null => True
  | bool _ => True
  | int _ => True
  | text _ => True
  | float x => x.WellFormed ∧ x ≠ .nan
  | date _ => False
  | dateTime _ => False
  | bytes _ => False

/-- The scalars that are no floating-point numbers, dates or bytes. -/
def Scalar.IsBasic : Scalar → Prop
  | null => True
  | bool _ => True
  | int _ => True
  | text _ => True
  | _ => False

instance : DecidablePred Scalar.IsBasic
  | .null => .isTrue trivial
  | .bool _ => .isTrue trivial
  | .int _ => .isTrue trivial
  | .text _ => .isTrue trivial
  | .float _ => .isFalse id
  | .date _ => .isFalse id
  | .dateTime _ => .isFalse id
  | .bytes _ => .isFalse id

def Scalar.IsInfinite (s : Scalar) : Prop := ∃ negative, s = .float (.infinite negative)

theorem Scalar.IsBasic.plain {s : Scalar} (h : s.IsBasic) : s.Plain := by
  cases s with
  | float x => exact absurd h id
  | date d => exact h
  | dateTime t => exact h
  | bytes bs => exact h
  | _ => trivial

theorem Scalar.IsBasic.finite {s : Scalar} (h : s.IsBasic) : ¬ s.IsInfinite := by
  rintro ⟨negative, rfl⟩
  exact h

namespace BoundCondition

def values : BoundCondition → List Scalar
  | comparison _ _ s => [s]
  | membership _ _ ss => ss

def condition : BoundCondition → Predicate.Condition
  | comparison c op s => .comparison ⟨none, c⟩ op (.literal s)
  | membership c negated ss => .membership ⟨none, c⟩ negated (ss.map .literal)

/-- A condition that has the form of a clause: null is tested for, and nothing else is. -/
inductive Regular : BoundCondition → Prop
  | nullTest {c : String} {op : Predicate.Operator} : Predicate.IsName c.toList → op = .isNull ∨ op = .notNull →
      Regular (.comparison c op .null)
  | comparison {c : String} {op : Predicate.Operator} {s : Scalar} : Predicate.IsName c.toList →
      op ≠ .isNull ∧ op ≠ .notNull → s ≠ .null → Regular (.comparison c op s)
  | membership {c : String} {negated : Bool} {ss : List Scalar} : Predicate.IsName c.toList → ss ≠ [] →
      Regular (.membership c negated ss)

/-- A condition whose clause holds its operands as what they are, up to infinite ones. -/
structure Formed (b : BoundCondition) : Prop where
  regular : b.Regular
  plain : ∀ s ∈ b.values, s.Plain

end BoundCondition

namespace Predicate

/-! ## Conditions that were read -/

/-- Whether a name is a keyword, in any letter case. -/
def IsKeyword (name : String) : Prop := keywords.lookup (String.ofList (name.toList.map Char.toUpper)) ≠ none

instance (name : String) : Decidable (IsKeyword name) := inferInstanceAs (Decidable (_ ≠ _))

theorem keyword_iff {t : Token} {name : String} (hk : t.kind = .word) (hc : t.chars = name.toList) :
    t.keyword? = none ↔ ¬ IsKeyword name := by
  rw [Token.keyword?, if_pos hk, hc, IsKeyword, ne_eq, Decidable.not_not]

structure Condition.Sound (c : Condition) : Prop where
  name : IsName c.column.name.toList
  plain : c.column.table = none → ¬ IsKeyword c.column.name
  nullTest : ∀ column op o, c = .comparison column op o → op = .isNull ∨ op = .notNull → o = .literal .null
  literals : ∀ s, .literal s ∈ c.operands → s.Plain

section
variable {templates : Bool}

theorem ValueOf.plain {t : Token} {s : Scalar} (h : ValueOf templates t (.literal s)) : s.Plain := by
  cases h with
  | number _ hr =>
    rcases readNumber_eq_ok hr with rfl | ⟨n, rfl⟩
    · exact readFloat_wellFormed t.chars
    · trivial
  | _ => trivial

theorem plain_of_values {ps : List (Token × Token)} {os : List Operand}
    (h : List.Forall₂ (fun q o => q.1.kind = .comma ∧ ValueOf templates q.2 o) ps os) :
    ∀ s, .literal s ∈ os → s.Plain := by
  induction h with
  | nil => simp
  | cons hq _ ih =>
    intro s hs
    rcases List.mem_cons.mp hs with rfl | hs
    · exact hq.2.plain
    · exact ih s hs

theorem ColumnOf.sound {t : Token} {c : Column} (h : ColumnOf t c) (hs : t.Shaped) :
    IsName c.name.toList ∧ (c.table = none → ¬ IsKeyword c.name) := by
  cases h with
  | plain hk hw hd =>
    simp only [Token.Shaped, hk] at hs
    have ht : t.chars = t.text.toList := (String.toList_ofList).symm
    refine ⟨?_, fun _ => (keyword_iff hk ht).mp hw⟩
    rw [← ht]
    exact hs.name_of_no_dot hd
  | @qualified a b hk hw hc ha hb =>
    simp only [Token.Shaped, hk, hc] at hs
    refine ⟨?_, fun h => absurd h (by simp)⟩
    rw [String.toList_ofList]
    exact (hs.after_dot ha).name_of_no_dot hb

theorem ClauseTree.Means.sound {c : ClauseTree} {cond : Condition} (h : c.Means templates cond)
    (hs : ∀ t ∈ c.tokens, t.Shaped) : cond.Sound := by
  obtain ⟨t, us, ht, hc⟩ := h.head
  obtain ⟨hn, hk⟩ := hc.sound (hs t (by simp [ht]))
  refine ⟨hn, hk, fun column op o he ho => ?_, fun s hl => ?_⟩
  · cases h with
    | comparison _ _ hop =>
      cases he
      rcases ho with rfl | rfl <;> simp [operatorTexts] at hop
    | nullTest =>
      cases he
      rfl
    | membership => cases he
  · cases h with
    | comparison _ _ _ hv =>
      cases List.mem_singleton.mp hl
      exact hv.plain
    | nullTest =>
      cases List.mem_singleton.mp hl
      trivial
    | membership _ _ _ _ hv hvs =>
      rcases List.mem_cons.mp hl with rfl | hl
      · exact hv.plain
      · exact plain_of_values hvs s hl

theorem MoreMeans.sound {more : List (Token × ClauseTree)} {cs : List Condition} (h : MoreMeans templates more cs)
    (hs : ∀ t ∈ moreTokens more, t.Shaped) : ∀ c ∈ cs, c.Sound := by
  induction h with
  | nil => simp
  | cons hq hm ih =>
    simp only [moreTokens, List.flatMap_cons, List.cons_append, List.mem_cons, List.mem_append] at hs
    refine List.forall_mem_cons.mpr ⟨hq.2.sound fun t ht => hs t (.inr (.inl ht)), ih fun t ht => hs t (.inr (.inr ?_))⟩
    exact ht

theorem sound_of_parseWith {expression : String} {p : Predicate} (h : parseWith templates expression = .ok p) :
    ∀ c ∈ p.conditions, c.Sound := by
  obtain ⟨ts, ht, hp⟩ := parseWith_eq_ok.mp h
  have hs := tokens_shaped ht
  obtain ⟨d, rfl, hd⟩ := means_of_ofTokens hs hp
  obtain ⟨-, c, cs, he, hf, hm⟩ := hd
  simp only [Tree.tokens, List.mem_append] at hs
  rw [he]
  exact List.forall_mem_cons.mpr
    ⟨hf.sound fun t ht => hs t (.inl (.inr ht)), hm.sound fun t ht => hs t (.inr ht)⟩

end

/-! ## Binding -/

section
variable {context : Members} {expression : String}

theorem operatorFor_eq_ok {c : Column} {op op' : Operator} {s : Scalar}
    (h : operatorFor expression c op s = .ok op') :
    (s ≠ .null ∧ op' = op) ∨ (s = .null ∧ ((op = .eq ∨ op = .isNull) ∧ op' = .isNull ∨
      (op = .ne ∨ op = .notNull) ∧ op' = .notNull)) := by
  unfold operatorFor at h
  split at h
  · rename_i hs
    split at h <;> cases h <;> simp [hs]
  · rename_i hs
    cases h
    exact .inl ⟨hs, rfl⟩

theorem bind_comparison_eq_ok {c : Column} {op : Operator} {o : Operand} {b : BoundCondition}
    (h : (Condition.comparison c op o).bind context expression = .ok b) :
    ∃ s op', o.value context expression = .ok (.scalar s) ∧ operatorFor expression c op s = .ok op' ∧
      b = .comparison c.name op' s := by
  obtain ⟨v, hv, hr⟩ := bind_eq_ok.mp h
  obtain ⟨s, hs, hr'⟩ := bind_eq_ok.mp hr
  obtain ⟨op', ho, hb⟩ := bind_eq_ok.mp hr'
  cases hb
  cases v with
  | scalar s' =>
    cases hs
    exact ⟨s, op', hv, ho, rfl⟩
  | _ => cases hs

theorem bind_membership_eq_ok {c : Column} {negated : Bool} {os : List Operand} {b : BoundCondition}
    (h : (Condition.membership c negated os).bind context expression = .ok b) :
    ∃ parts, os.mapM (listValues context expression (os.length == 1)) = .ok parts ∧ parts.flatten ≠ [] ∧
      b = .membership c.name negated parts.flatten := by
  obtain ⟨parts, hp, hr⟩ := bind_eq_ok.mp h
  split at hr
  · cases hr
  · rename_i hne
    cases hr
    exact ⟨parts, hp, hne, rfl⟩

theorem bind_column {c : Condition} {b : BoundCondition} (h : c.bind context expression = .ok b) :
    b.column = c.column.name := by
  cases c with
  | comparison c op o =>
    obtain ⟨s, op', -, -, rfl⟩ := bind_comparison_eq_ok h
    rfl
  | membership c negated os =>
    obtain ⟨parts, -, -, rfl⟩ := bind_membership_eq_ok h
    rfl

theorem Condition.Sound.regular {c : Condition} {b : BoundCondition} (hc : c.Sound)
    (h : c.bind context expression = .ok b) : b.Regular := by
  have hn := hc.name
  cases c with
  | comparison c op o =>
    obtain ⟨s, op', ho, hop, rfl⟩ := bind_comparison_eq_ok h
    rcases operatorFor_eq_ok hop with ⟨hs, rfl⟩ | ⟨rfl, ⟨-, rfl⟩ | ⟨-, rfl⟩⟩
    · refine .comparison hn ?_ hs
      -- a test for null has null for its operand, and the value of this one is not null
      by_contra hnull
      have := hc.nullTest c op' o rfl (by tauto)
      subst this
      cases ho
      exact hs rfl
    · exact .nullTest hn (.inl rfl)
    · exact .nullTest hn (.inr rfl)
  | membership c negated os =>
    obtain ⟨parts, -, hne, rfl⟩ := bind_membership_eq_ok h
    exact .membership hn hne

theorem Condition.Sound.formed {c : Condition} {b : BoundCondition} (hc : c.Sound) (h : c.bind context expression = .ok b)
    (hv : ∀ s ∈ b.values, s.Plain) : b.Formed := ⟨hc.regular h, hv⟩

theorem regular_of_bind {templates : Bool} {text : String} {p : Predicate} {bs : List BoundCondition}
    (hp : parseWith templates text = .ok p) (hb : p.bind context expression = .ok bs) : ∀ b ∈ bs, b.Regular := by
  intro b hm
  obtain ⟨c, hc, h⟩ := exists_argument hb b hm
  exact (sound_of_parseWith hp c hc).regular h

/-- A property of the scalar that a value is, or of the scalars that a sequence offers to a list. -/
def Offers (P : Scalar → Prop) : Value → Prop
  | .scalar s => P s
  | .list items => ∀ s, .scalar s ∈ items → P s
  | .tuple items => ∀ s, .scalar s ∈ items → P s
  | _ => True

theorem scalarOf_eq_ok {v : Value} {s : Scalar} (h : scalarOf expression v = .ok s) : v = .scalar s := by
  cases v with
  | scalar s' =>
    cases h
    rfl
  | _ => cases h

theorem scalars_of_items {items : List Value} {ss : List Scalar} (h : items.mapM (scalarOf expression) = .ok ss) :
    items = ss.map .scalar := by
  rw [mapM_eq_ok] at h
  induction h with
  | nil => rfl
  | cons hs _ ih => rw [List.map_cons, ← ih, scalarOf_eq_ok hs]

theorem listValues_offers {P : Scalar → Prop} {lone : Bool} {o : Operand} {ss : List Scalar}
    (h : listValues context expression lone o = .ok ss) (ho : ∀ v, o.value context expression = .ok v → Offers P v) :
    ∀ s ∈ ss, P s := by
  obtain ⟨v, hv, hr⟩ := bind_eq_ok.mp h
  have hp := ho v hv
  split at hr
  · rw [scalars_of_items hr] at hp
    exact fun s hs => hp s (List.mem_map_of_mem hs)
  · rw [scalars_of_items hr] at hp
    exact fun s hs => hp s (List.mem_map_of_mem hs)
  · obtain ⟨s, hs, he⟩ := bind_eq_ok.mp hr
    cases he
    rw [scalarOf_eq_ok hs] at hp
    intro x hx
    rw [List.mem_singleton.mp hx]
    exact hp

theorem values_of_bind {P : Scalar → Prop} {c : Condition} {b : BoundCondition} (h : c.bind context expression = .ok b)
    (ho : ∀ o ∈ c.operands, ∀ v, o.value context expression = .ok v → Offers P v) : ∀ s ∈ b.values, P s := by
  cases c with
  | comparison c op o =>
    obtain ⟨s, op', hs, -, rfl⟩ := bind_comparison_eq_ok h
    intro x hx
    rw [List.mem_singleton.mp hx]
    exact ho o (List.mem_singleton.mpr rfl) _ hs
  | membership c negated os =>
    obtain ⟨parts, hp, -, rfl⟩ := bind_membership_eq_ok h
    intro s hs
    obtain ⟨part, hm, hs⟩ := List.mem_flatten.mp hs
    obtain ⟨o, hmo, hl⟩ := exists_argument hp part hm
    exact listValues_offers hl (ho o hmo) s hs

theorem literal_mem_values {c : Condition} {b : BoundCondition} (h : c.bind context expression = .ok b) {s : Scalar}
    (hs : .literal s ∈ c.operands) : s ∈ b.values := by
  cases c with
  | comparison c op o =>
    obtain ⟨s', op', hv, -, rfl⟩ := bind_comparison_eq_ok h
    cases List.mem_singleton.mp hs
    cases hv
    exact List.mem_singleton.mpr rfl
  | membership c negated os =>
    obtain ⟨parts, hp, -, rfl⟩ := bind_membership_eq_ok h
    obtain ⟨part, hm, hl⟩ := exists_result hp _ hs
    cases hl
    exact List.mem_flatten.mpr ⟨_, hm, List.mem_singleton.mpr rfl⟩

theorem bind_condition {b : BoundCondition} (h : b.Regular) : b.condition.bind context expression = .ok b := by
  cases h with
  | nullTest _ ho =>
    rcases ho with rfl | rfl
    · rfl
    · rfl
  | comparison _ _ hs =>
    simp [BoundCondition.condition, Condition.bind, Operand.value, scalarOf, operatorFor, hs]
  | @membership c negated ss _ hne =>
    have hm : (ss.map Operand.literal).mapM (listValues context expression ((ss.map Operand.literal).length == 1)) =
        .ok (ss.map fun s => [s]) := by
      rw [mapM_eq_ok, List.forall₂_map_left_iff, List.forall₂_map_right_iff, List.forall₂_same]
      intro s _
      simp [listValues, Operand.value, scalarOf]
    have hf : (ss.map fun s => [s]).flatten = ss := by
      rw [← List.flatMap_def]
      exact List.flatMap_singleton' ss
    cases ss with
    | nil => exact absurd rfl hne
    | cons s ss =>
      simp only [BoundCondition.condition, Condition.bind, hm, ok_bind, hf]
      rfl

end

end Predicate

end Workflow
