import Workflow.Proofs.Existence
import Workflow.Proofs.Predicate.Qualified

/-!
# The ways of naming a table

The table of a predicate may be named after `EXISTS`, before some of its columns or by a default. It is the same question in
each of them, and the same answer.
-/

namespace Workflow

/-! ## Faults of one class -/

def OneClass {α : Type} (x y : Except ExpressionFault α) : Prop :=
  x.mapError ExpressionFault.kind = y.mapError ExpressionFault.kind

namespace OneClass

section
variable {α β γ : Type}

theorem bind {x y : Except ExpressionFault α} {f g : α → Except ExpressionFault β} (h : OneClass x y)
    (hf : ∀ a, OneClass (f a) (g a)) : OneClass (x >>= f) (y >>= g) := by
  cases x with
  | error e =>
    cases y with
    | error e' => exact congrArg Except.error (Except.error.inj h)
    | ok b => cases h
  | ok a =>
    cases y with
    | error e' => cases h
    | ok b =>
      obtain rfl := Except.ok.inj h
      exact hf a

theorem mapM {R : α → β → Prop} {f : α → Except ExpressionFault γ} {g : β → Except ExpressionFault γ} {as : List α}
    {bs : List β} (h : List.Forall₂ R as bs) (hf : ∀ a b, R a b → OneClass (f a) (g b)) : OneClass (as.mapM f) (bs.mapM g) := by
  induction h with
  | nil => rfl
  | cons hab _ ih =>
    rw [List.mapM_cons, List.mapM_cons]
    exact bind (hf _ _ hab) fun _ => bind ih fun _ => rfl

theorem mapM_same {f g : α → Except ExpressionFault γ} (as : List α) (hf : ∀ a, OneClass (f a) (g a)) :
    OneClass (as.mapM f) (as.mapM g) :=
  mapM (List.forall₂_same.mpr fun _ _ => rfl) fun a _ hab => hab ▸ hf a

end

end OneClass

namespace Predicate

section
variable (context : Members) (e e' : String)

theorem value_oneClass (o : Operand) : OneClass (o.value context e) (o.value context e') := by
  cases o with
  | literal s => rfl
  | template t => rfl
  | param name =>
    simp only [Operand.value]
    cases Members.get? context name <;> rfl

theorem structuredFault_kind (v : Value) : (structuredFault e v).kind = (structuredFault e' v).kind := by
  unfold structuredFault
  split <;> rfl

theorem scalarOf_oneClass (v : Value) : OneClass (scalarOf e v) (scalarOf e' v) := by
  cases v with
  | scalar s => rfl
  | _ => exact congrArg Except.error (structuredFault_kind e e' _)

theorem operatorFor_oneClass (c c' : Column) (op : Operator) (s : Scalar) :
    OneClass (operatorFor e c op s) (operatorFor e' c' op s) := by
  unfold operatorFor
  split
  · cases op <;> rfl
  · rfl

theorem listValues_oneClass (lone : Bool) (o : Operand) :
    OneClass (listValues context e lone o) (listValues context e' lone o) := by
  refine .bind (value_oneClass context e e' o) fun v => ?_
  have hone : OneClass (do return [← scalarOf e v]) (do return [← scalarOf e' v]) :=
    .bind (scalarOf_oneClass e e' v) fun _ => rfl
  cases lone with
  | false => cases v <;> exact hone
  | true =>
    cases v with
    | list items => exact .mapM_same items (scalarOf_oneClass e e')
    | tuple items => exact .mapM_same items (scalarOf_oneClass e e')
    | _ => exact hone

/-- Binding looks at the name of a column only; its table occurs in faults. -/
theorem bind_oneClass (c : Condition) (table : Option String) :
    OneClass (c.bind context e) ((c.withTable table).bind context e') := by
  cases c with
  | comparison c op o =>
    refine .bind (value_oneClass context e e' o) fun v => .bind (scalarOf_oneClass e e' v) fun s => ?_
    exact .bind (operatorFor_oneClass e e' c ⟨table, c.name⟩ op s) fun _ => rfl
  | membership c negated os =>
    refine .bind (.mapM_same os (listValues_oneClass context e e' _)) fun parts => ?_
    cases parts.flatten <;> rfl

end

end Predicate

/-! ## Questions -/

section
variable {e e' table : String} {context : Members} {fallback fallback' : Option String} {p p' : Predicate}

theorem existenceQuery_of_isAbout (hp : Predicate.parse e = .ok p) (ht : p.IsAbout fallback table) :
    existenceQuery e context fallback = p.bind context e >>= fun bs =>
      (renderClause bs).mapError .breakdown >>= fun clause => .ok ⟨table, clause⟩ := by
  rw [existenceQuery, hp, ok_bind, Predicate.target_eq_ok_iff.mpr ht]
  rfl

theorem existenceQuery_oneClass (hp : Predicate.parse e = .ok p) (hp' : Predicate.parse e' = .ok p')
    (hc : List.Forall₂ (fun c c' => ∃ t, c' = c.withTable t) p.conditions p'.conditions) (ht : p.IsAbout fallback table)
    (ht' : p'.IsAbout fallback' table) : OneClass (existenceQuery e context fallback) (existenceQuery e' context fallback') := by
  rw [existenceQuery_of_isAbout hp ht, existenceQuery_of_isAbout hp' ht']
  refine .bind (.mapM hc fun c c' h => ?_) fun _ => rfl
  obtain ⟨t, rfl⟩ := h
  exact Predicate.bind_oneClass context e e' c t

/-- What is seen of an evaluation: the answer, a failure of the host, or the class of a fault. -/
inductive Sight where
  | answer (b : Bool)
  | failure (f : Failure)
  | fault (kind : String)

def sight : Except EvaluationFault Bool → Sight
  | .ok b => .answer b
  | .error (.host f) => .failure f
  | .error (.expression f) => .fault f.kind

/-- From a state of a host, an evaluation asks some requests and something is seen of it. -/
def Shows {σ : Type} (h : Host σ) (s : σ) (e : String) (context : Members) (fallback : Option String) (asked : List Request)
    (seen : Sight) : Prop :=
  ∃ x, Run.Ends h (evaluateExistence (recording h) e context fallback) s asked x ∧ sight x = seen

variable {σ : Type} {h : Host σ} {s : σ}

theorem exists_shows (h : Host σ) (s : σ) (e : String) (context : Members) (fallback : Option String) :
    ∃ asked seen, (asked = [] ∨ ∃ q, asked = [.count q] ∧ existenceQuery e context fallback = .ok q) ∧
      ∀ e' fallback', OneClass (existenceQuery e context fallback) (existenceQuery e' context fallback') →
        Shows h s e' context fallback' asked seen := by
  cases hq : existenceQuery e context fallback with
  | ok q =>
    refine ⟨_, _, .inr ⟨q, rfl, rfl⟩, fun e' fallback' ha => ⟨_, evaluateExistence_asks ?_, rfl⟩⟩
    cases hq' : existenceQuery e' context fallback' with
    | ok q' =>
      rw [hq'] at ha
      exact congrArg Except.ok (Except.ok.inj ha).symm
    | error f =>
      rw [hq'] at ha
      cases ha
  | error f =>
    refine ⟨_, .fault f.kind, .inl rfl, fun e' fallback' ha => ?_⟩
    cases hq' : existenceQuery e' context fallback' with
    | ok q' =>
      rw [hq'] at ha
      cases ha
    | error f' =>
      rw [hq'] at ha
      exact ⟨_, evaluateExistence_stops hq', congrArg Sight.fault (Except.error.inj ha).symm⟩

end

/-! ## Three ways -/

namespace Predicate

section
variable {text table : String} {d : Tree} {p : Predicate} {chosen : List Token}

theorem isAbout_default (hn : p.table = none) (hu : ∀ c ∈ p.columns, c.table = none) : p.IsAbout (some table) table where
  named t ht := by simp [hn] at ht
  qualified c hc t ht := by simp [hu c hc] at ht
  unnamed _ _ := rfl

theorem isAbout_exists {cs : List Condition} (hu : ∀ c ∈ cs, c.column.table = none) (fallback : Option String) :
    (⟨some table, cs⟩ : Predicate).IsAbout fallback table where
  named t ht := (Option.some.inj ht).symm
  qualified c hc t ht := by
    obtain ⟨d, hd, rfl⟩ := List.mem_map.mp hc
    simp [hu d hd] at ht
  unnamed ht := nomatch ht

theorem isAbout_qualified (hd : d.Means true p) (hc : chosen ⊆ d.columnTokens) (hne : chosen ≠ []) (fallback : Option String) :
    (⟨none, d.recolumned (tableFor table chosen) p.conditions⟩ : Predicate).IsAbout fallback table where
  named t ht := nomatch ht
  qualified c hm t ht := by
    obtain ⟨c, hcm, rfl⟩ := List.mem_map.mp hm
    obtain ⟨k, -, hk⟩ := (exists_of_forall₂ (recolumned_columns hd (tableFor table chosen))).2 c hcm
    rw [hk, tableFor] at ht
    split at ht
    · exact (Option.some.inj ht).symm
    · cases ht
  unnamed _ hu := by
    obtain ⟨k, hk⟩ := List.exists_mem_of_ne_nil chosen hne
    obtain ⟨c, hm, hkc⟩ := (exists_of_forall₂ (recolumned_columns hd (tableFor table chosen))).1 k (hc hk)
    rw [tableFor, if_pos hk] at hkc
    have := hu _ (List.mem_map_of_mem hm)
    rw [hkc] at this
    cases this

end

end Predicate

section
open Predicate

/-- **The ways of naming a table agree.** A predicate that names no table is evaluated with a default, after `EXISTS` with the
table, or with the table before some of its columns: the host is asked the same, at most once, and the answer or the class of
the fault is the same. -/
theorem evaluateExistence_names {σ : Type} (h : Host σ) (s : σ) (context : Members) {text table : String} {d : Tree}
    {p : Predicate} {chosen : List Token} (hts : tokens text.toList = .ok d.tokens) (hd : d.Means true p)
    (hn : p.table = none) (hu : ∀ c ∈ p.columns, c.table = none) (ht : IsName table.toList) (hk : ¬ IsKeyword table)
    (hc : chosen ⊆ d.columnTokens) (hne : chosen ≠ []) (fallback fallback' : Option String) :
    ∃ asked seen, (asked = [] ∨ ∃ clause, asked = [.count ⟨table, clause⟩]) ∧
      Shows h s text context (some table) asked seen ∧
      Shows h s ("EXISTS " ++ table ++ " WHERE " ++ text) context fallback asked seen ∧
      Shows h s (String.ofList (rewriteTokens (qualified table chosen) 0 text.toList d.tokens)) context fallback' asked seen := by
  have hp : parse text = .ok p := parse_eq_ok_iff.mpr ⟨d, hts, hd⟩
  have hus := List.forall_mem_map.mp hu
  have hself : List.Forall₂ (fun c c' => ∃ t, c' = Condition.withTable t c) p.conditions p.conditions :=
    List.forall₂_same.mpr fun c hc => ⟨none, (Condition.withTable_none (hus c hc)).symm⟩
  have hmoved : List.Forall₂ (fun c c' => ∃ t, c' = Condition.withTable t c) p.conditions
      (d.recolumned (tableFor table chosen) p.conditions) :=
    (recolumned_conditions hd _).imp fun c c' h => by
      obtain ⟨k, -, hk⟩ := h
      exact ⟨_, hk⟩
  have hdefault : p.IsAbout (some table) table := isAbout_default hn hu
  obtain ⟨asked, seen, hasked, hshows⟩ := exists_shows h s text context (some table)
  refine ⟨asked, seen, ?_, hshows text (some table) rfl, hshows _ fallback ?_, hshows _ fallback' ?_⟩
  · refine hasked.imp_right fun hcount => ?_
    obtain ⟨q, hq, hquery⟩ := hcount
    obtain ⟨⟨p', hp', habout⟩, -⟩ := existenceQuery_eq_ok_iff.mp hquery
    obtain rfl := Except.ok.inj (hp.symm.trans (parse_eq_ok_iff.mpr hp'))
    exact ⟨q.clause, by rw [hq, ← habout.unique hdefault]⟩
  · exact existenceQuery_oneClass hp (parse_exists hts hd hn hu ht hk) hself hdefault (isAbout_exists hus fallback)
  · exact existenceQuery_oneClass hp (parse_qualified hts hd hn hu ht hc) hmoved hdefault (isAbout_qualified hd hc hne fallback')

/-- Orders over an amount that are paid. -/
def paidOrders : Tree where
  exist := none
  first := .comparison ⟨.word, "amount".toList, 0⟩ ⟨.operator, ['>'], 7⟩ ⟨.param, ":least".toList, 9⟩
  more := [(⟨.word, "AND".toList, 16⟩,
    .comparison ⟨.word, "state".toList, 20⟩ ⟨.operator, ['='], 26⟩ ⟨.string, quoteText "paid".toList, 28⟩)]

def paidPredicate : Predicate where
  table := none
  conditions := [.comparison ⟨none, "amount"⟩ .gt (.param "least"), .comparison ⟨none, "state"⟩ .eq (.literal (.text "paid"))]

/-- The text of `paidOrders` with a table before its second column. -/
theorem evaluateExistence_names_orders :
    tokens "amount > :least AND state = 'paid'".toList = .ok paidOrders.tokens ∧ paidOrders.Means true paidPredicate ∧
    paidPredicate.table = none ∧ (∀ c ∈ paidPredicate.columns, c.table = none) ∧ IsName "orders".toList ∧
    ¬ IsKeyword "orders" ∧ [⟨.word, "state".toList, 20⟩] ⊆ paidOrders.columnTokens ∧
    rewriteTokens (qualified "orders" [⟨.word, "state".toList, 20⟩]) 0 "amount > :least AND state = 'paid'".toList
      paidOrders.tokens = "amount > :least AND orders.state = 'paid'".toList ∧
    ∃ asked seen, (asked = [] ∨ ∃ clause, asked = [.count ⟨"orders", clause⟩]) ∧
      Shows obliging () "amount > :least AND state = 'paid'" [(.text "least", .int 5)] (some "orders") asked seen ∧
      Shows obliging () ("EXISTS " ++ "orders" ++ " WHERE " ++ "amount > :least AND state = 'paid'")
        [(.text "least", .int 5)] none asked seen ∧
      Shows obliging () (String.ofList (rewriteTokens (qualified "orders" [⟨.word, "state".toList, 20⟩]) 0
        "amount > :least AND state = 'paid'".toList paidOrders.tokens)) [(.text "least", .int 5)] none asked seen := by
  have hts : tokens "amount > :least AND state = 'paid'".toList = .ok paidOrders.tokens := by rfl
  have hd : paidOrders.Means true paidPredicate := by
    refine ⟨rfl, _, _, rfl, ?_, .cons ⟨by decide, ?_⟩ .nil⟩
    · exact .comparison (.plain rfl (by decide) (by decide)) rfl (by decide) (.param rfl rfl)
    · exact .comparison (.plain rfl (by decide) (by decide)) rfl (by decide) (.quoted rfl rfl (by decide))
  have hu : ∀ c ∈ paidPredicate.columns, c.table = none := by decide
  have hc : [⟨.word, "state".toList, 20⟩] ⊆ paidOrders.columnTokens := by decide
  refine ⟨hts, hd, rfl, hu, by decide, by decide, hc, by decide, ?_⟩
  exact evaluateExistence_names obliging () [(.text "least", .int 5)] hts hd rfl hu (by decide) (by decide) hc (by simp) none none

end

end Workflow
