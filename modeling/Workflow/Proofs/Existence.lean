import Workflow.Invocation
import Workflow.Proofs.Endings
import Workflow.Proofs.StoreClauses

/-!
# One question or none

An existence predicate names its table in up to three ways: after `EXISTS`, before its columns, and by a default. Where these
agree and the operands have values a host is asked once, about that table; otherwise it is not asked at all.
-/

namespace Workflow

namespace Predicate

/-! ## The table of a predicate -/

/-- A table that all which names one in a predicate names, or the default where nothing does. -/
structure IsAbout (p : Predicate) (fallback : Option String) (table : String) : Prop where
  named : ∀ t, p.table = some t → t = table
  qualified : ∀ c ∈ p.columns, ∀ t, c.table = some t → t = table
  unnamed : p.table = none → (∀ c ∈ p.columns, c.table = none) → fallback = some table

/-- What keeps a predicate from being about one table. -/
inductive Unplaced (p : Predicate) (fallback : Option String) : Prop
  | several {a b : Column} {t u : String} : a ∈ p.columns → b ∈ p.columns → a.table = some t → b.table = some u → t ≠ u →
      Unplaced p fallback
  | mismatch {c : Column} {t u : String} : c ∈ p.columns → c.table = some t → p.table = some u → t ≠ u →
      Unplaced p fallback
  | unnamed : p.table = none → (∀ c ∈ p.columns, c.table = none) → fallback = none → Unplaced p fallback

section
variable {p : Predicate} {fallback : Option String} {table : String}

theorem mem_qualifiers {q : String} : q ∈ p.qualifiers ↔ ∃ c ∈ p.columns, c.table = some q := by
  simp only [qualifiers, columns, List.mem_mergeSort, List.mem_eraseDups, List.mem_filterMap, List.mem_map,
    exists_exists_and_eq_and]

theorem nodup_eraseDups {α : Type} [DecidableEq α] : ∀ as : List α, as.eraseDups.Nodup
  | [] => List.nodup_nil
  | a :: as => by
    rw [List.eraseDups_cons, List.nodup_cons]
    refine ⟨fun ha => ?_, nodup_eraseDups _⟩
    have hf := List.mem_filter.mp (List.mem_eraseDups.mp ha)
    simp at hf
termination_by as => as.length
decreasing_by exact Nat.lt_succ_of_le (List.length_filter_le ..)

theorem qualifiers_nodup : p.qualifiers.Nodup :=
  (List.mergeSort_perm _ _).nodup_iff.mpr (nodup_eraseDups _)

theorem qualifiers_eq_nil : p.qualifiers = [] ↔ ∀ c ∈ p.columns, c.table = none := by
  simp only [List.eq_nil_iff_forall_not_mem, mem_qualifiers, Option.eq_none_iff_forall_ne_some]
  grind

theorem qualifiers_eq_singleton {q : String} (h : p.qualifiers = [q]) :
    (∃ c ∈ p.columns, c.table = some q) ∧ ∀ c ∈ p.columns, ∀ t, c.table = some t → t = q := by
  refine ⟨mem_qualifiers.mp (by rw [h]; exact List.mem_singleton.mpr rfl), fun c hc t ht => ?_⟩
  exact List.mem_singleton.mp (h ▸ mem_qualifiers.mpr ⟨c, hc, ht⟩)

def Decided (p : Predicate) (fallback : Option String) : Prop :=
  (∃ t, p.target fallback = .ok t ∧ p.IsAbout fallback t) ∨ (∃ c, p.target fallback = .error c) ∧ p.Unplaced fallback

theorem decided_of_unqualified (hq : p.qualifiers = []) : p.Decided fallback := by
  have hc := qualifiers_eq_nil.mp hq
  cases ht : p.table with
  | some t =>
    refine .inl ⟨t, by simp [target, hq, ht], ?_, ?_, ?_⟩
    · exact fun u hu => Option.some.inj (hu.symm.trans ht)
    · exact fun c hm u hu => by simp [hc c hm] at hu
    · exact fun hn => by simp [ht] at hn
  | none =>
    cases fallback with
    | some t =>
      refine .inl ⟨t, by simp [target, hq, ht], ?_, ?_, fun _ _ => rfl⟩
      · exact fun u hu => by simp [ht] at hu
      · exact fun c hm u hu => by simp [hc c hm] at hu
    | none => exact .inr ⟨⟨.noTable, by simp [target, hq, ht]⟩, .unnamed ht hc rfl⟩

theorem decided_of_qualifier {q : String} (hq : p.qualifiers = [q]) : p.Decided fallback := by
  obtain ⟨⟨c, hm, hcq⟩, hall⟩ := qualifiers_eq_singleton hq
  cases ht : p.table with
  | none =>
    refine .inl ⟨q, by simp [target, hq, ht], ?_, hall, fun _ hn => ?_⟩
    · exact fun u hu => by simp [ht] at hu
    · simp [hn c hm] at hcq
  | some t =>
    by_cases he : q = t
    · subst he
      refine .inl ⟨q, by simp [target, hq, ht], ?_, hall, fun hn => ?_⟩
      · exact fun u hu => Option.some.inj (hu.symm.trans ht)
      · simp [ht] at hn
    · exact .inr ⟨⟨_, by simp [target, hq, ht, he]; rfl⟩, .mismatch hm hcq ht he⟩

theorem decided_of_several {q r : String} {rs : List String} (hq : p.qualifiers = q :: r :: rs) : p.Decided fallback := by
  -- the qualifiers are without duplicates, so the first two differ
  have hne : q ≠ r := by
    have hn := hq ▸ qualifiers_nodup (p := p)
    exact fun h => (List.nodup_cons.mp hn).1 (h ▸ List.mem_cons_self ..)
  obtain ⟨a, ha, hat⟩ := mem_qualifiers.mp (show q ∈ p.qualifiers by rw [hq]; simp)
  obtain ⟨b, hb, hbt⟩ := mem_qualifiers.mp (show r ∈ p.qualifiers by rw [hq]; simp)
  exact .inr ⟨⟨_, by simp only [target, hq]; rfl⟩, .several ha hb hat hbt hne⟩

theorem decided (p : Predicate) (fallback : Option String) : p.Decided fallback := by
  cases hq : p.qualifiers with
  | nil => exact decided_of_unqualified hq
  | cons q qs =>
    cases qs with
    | nil => exact decided_of_qualifier hq
    | cons r rs => exact decided_of_several hq

theorem IsAbout.placed (h : p.IsAbout fallback table) : ¬ p.Unplaced fallback := by
  intro hu
  cases hu with
  | several ha hb hat hbt hne => exact hne ((h.qualified _ ha _ hat).trans (h.qualified _ hb _ hbt).symm)
  | mismatch hc hct ht hne => exact hne ((h.qualified _ hc _ hct).trans (h.named _ ht).symm)
  | unnamed ht hc hf => exact absurd (h.unnamed ht hc) (by simp [hf])

theorem IsAbout.unique {t : String} (h : p.IsAbout fallback table) (h' : p.IsAbout fallback t) : table = t := by
  cases ht : p.table with
  | some u => exact (h.named u ht).symm.trans (h'.named u ht)
  | none =>
    by_cases hc : ∀ c ∈ p.columns, c.table = none
    · exact Option.some.inj ((h.unnamed ht hc).symm.trans (h'.unnamed ht hc))
    · simp only [not_forall] at hc
      obtain ⟨c, hm, hc⟩ := hc
      obtain ⟨u, hu⟩ := Option.ne_none_iff_exists'.mp hc
      exact (h.qualified c hm u hu).symm.trans (h'.qualified c hm u hu)

theorem target_eq_ok_iff : p.target fallback = .ok table ↔ p.IsAbout fallback table := by
  rcases decided p fallback with ⟨t, ht, ha⟩ | ⟨⟨c, hc⟩, hu⟩
  · rw [ht, Except.ok.injEq]
    exact ⟨fun h => h ▸ ha, ha.unique⟩
  · rw [hc]
    exact ⟨nofun, fun h => absurd hu h.placed⟩

theorem target_eq_error_iff : (∃ c, p.target fallback = .error c) ↔ p.Unplaced fallback := by
  rcases decided p fallback with ⟨t, ht, ha⟩ | ⟨hc, hu⟩
  · rw [ht]
    exact ⟨nofun, fun h => absurd h ha.placed⟩
  · exact iff_of_true hc hu

end

/-! ## Reading -/

/-- A text is in the grammar, as a predicate, and what its numbers and templates stand for is read. -/
def Denotes (expression : String) (p : Predicate) : Prop := ∃ d : Tree, tokens expression.toList = .ok d.tokens ∧ d.Means true p

theorem parse_eq_ok_iff {expression : String} {p : Predicate} : parse expression = .ok p ↔ Denotes expression p := by
  rw [parse, parseWith_eq_ok]
  constructor
  · intro ⟨ts, ht, hp⟩
    obtain ⟨d, rfl, hd⟩ := means_of_ofTokens (tokens_shaped ht) hp
    exact ⟨d, ht, hd⟩
  · intro ⟨d, ht, hd⟩
    exact ⟨d.tokens, ht, ofTokens_of_means hd⟩

end Predicate

/-! ## The question -/

section
variable {expression : String} {context : Members} {fallback : Option String} {p : Predicate}

theorem existenceQuery_of_parse (hp : Predicate.parse expression = .ok p) :
    existenceQuery expression context fallback =
      match p.target fallback with
      | .error c => .error (.predicate expression c)
      | .ok table => (compileClause expression context).map fun clause => ⟨table, clause⟩ := by
  rw [existenceQuery, compileClause, hp, ok_bind, ok_bind]
  cases p.target fallback with
  | error c => rfl
  | ok table =>
    cases p.bind context expression with
    | error f => rfl
    | ok bs => cases renderClause bs <;> rfl

theorem existenceQuery_eq_ok_iff {q : CountQuery} : existenceQuery expression context fallback = .ok q ↔
    (∃ p, Predicate.Denotes expression p ∧ p.IsAbout fallback q.table) ∧ compileClause expression context = .ok q.clause := by
  simp only [← Predicate.parse_eq_ok_iff, ← Predicate.target_eq_ok_iff]
  cases hp : Predicate.parse expression with
  | error f => simp [existenceQuery, hp]
  | ok p =>
    obtain ⟨table, clause⟩ := q
    rw [existenceQuery_of_parse hp]
    cases ht : p.target fallback <;> cases compileClause expression context <;> simp [ht, Except.map]

/-- The conditions of a predicate are bound, and an integer among their values cannot be written. -/
def Predicate.Unwritten (p : Predicate) (context : Members) (expression : String) : Prop :=
  ∃ bs, p.bind context expression = .ok bs ∧ ∃ b ∈ bs, ∃ s ∈ b.values, s.isWritable = false

theorem compileClause_eq_error_iff (hp : Predicate.parse expression = .ok p) :
    (∃ f, compileClause expression context = .error f) ↔
      (∃ f, p.bind context expression = .error f) ∨ p.Unwritten context expression := by
  cases hb : p.bind context expression with
  | error f => simp [compileClause, hp, hb]
  | ok bs =>
    have hrender := fun b => renderClause_eq_error (Predicate.regular_of_bind hp hb) (e := b)
    rw [Predicate.compileClause_of_bind hp hb]
    simp [Predicate.Unwritten, hb, mapError_eq_error, hrender]

theorem existenceQuery_eq_error_iff : (∃ f, existenceQuery expression context fallback = .error f) ↔
    (¬ ∃ p, Predicate.Denotes expression p) ∨ ∃ p, Predicate.Denotes expression p ∧
      (p.Unplaced fallback ∨ (∃ f, p.bind context expression = .error f) ∨ p.Unwritten context expression) := by
  simp only [← Predicate.parse_eq_ok_iff, ← Predicate.target_eq_error_iff]
  cases hp : Predicate.parse expression with
  | error f => simp [existenceQuery, hp]
  | ok p =>
    simp only [Except.ok.injEq, exists_eq', not_true_eq_false, false_or, exists_eq_left']
    rw [← compileClause_eq_error_iff hp, existenceQuery_of_parse hp]
    cases p.target fallback <;> cases compileClause expression context <;> simp [Except.map]

end

/-! ## Runs -/

section
variable {σ : Type} {h : Host σ} {s : σ} {expression : String} {context : Members} {fallback : Option String}

theorem evaluateExistence_asks {q : CountQuery} (hq : existenceQuery expression context fallback = .ok q) :
    Run.Ends h (evaluateExistence (recording h) expression context fallback) s [.count q]
      (((h (.count q) s).1.mapError .host).map fun n => decide (0 < n)) := by
  rw [evaluateExistence, hq]
  exact .bind_quiet (.ask rfl) .pure

theorem evaluateExistence_stops {f : ExpressionFault} (hf : existenceQuery expression context fallback = .error f) :
    Run.Ends h (evaluateExistence (recording h) expression context fallback) s [] (.error (.expression f)) := by
  rw [evaluateExistence, hf]
  exact .pure

end

/-- **An evaluation asks one question or none.** It asks how many rows match the compiled clause in the table that all which names
one names, and tells whether there are any. It asks nothing and fails exactly if the text is outside the grammar or cannot be
read, if what names a table disagrees or nothing does, if an operand has no value that fits, or if such a value cannot be
written. -/
theorem evaluateExistence_asks_once {σ : Type} (h : Host σ) (s : σ) (expression : String) (context : Members)
    (fallback : Option String) :
    (∀ q x, Run.Ends h (evaluateExistence (recording h) expression context fallback) s [.count q] x ↔
      ((∃ p, Predicate.Denotes expression p ∧ p.IsAbout fallback q.table) ∧ compileClause expression context = .ok q.clause) ∧
        x = ((h (.count q) s).1.mapError .host).map fun n => decide (0 < n)) ∧
    ((∃ f, Run.Ends h (evaluateExistence (recording h) expression context fallback) s [] (.error (.expression f))) ↔
      (¬ ∃ p, Predicate.Denotes expression p) ∨ ∃ p, Predicate.Denotes expression p ∧
        (p.Unplaced fallback ∨ (∃ f, p.bind context expression = .error f) ∨ p.Unwritten context expression)) ∧
    ((∃ q x, Run.Ends h (evaluateExistence (recording h) expression context fallback) s [.count q] x) ∨
      ∃ f, Run.Ends h (evaluateExistence (recording h) expression context fallback) s [] (.error (.expression f))) := by
  rw [← existenceQuery_eq_error_iff]
  simp only [← existenceQuery_eq_ok_iff]
  cases hq : existenceQuery expression context fallback with
  | ok q =>
    have he := evaluateExistence_asks (h := h) (s := s) hq
    refine ⟨fun q' x => ⟨fun h' => ?_, fun ⟨hq', hx⟩ => ?_⟩, ⟨fun ⟨f, hf⟩ => ?_, nofun⟩, .inl ⟨q, _, he⟩⟩
    · obtain ⟨ht, rfl⟩ := h'.unique he
      cases ht
      exact ⟨rfl, rfl⟩
    · cases hq'
      exact hx ▸ he
    · cases (hf.unique he).1
  | error f =>
    have he := evaluateExistence_stops (h := h) (s := s) hq
    refine ⟨fun q' x => ⟨fun h' => ?_, fun ⟨hq', hx⟩ => ?_⟩, ⟨fun _ => ⟨f, rfl⟩, fun _ => ⟨f, he⟩⟩, .inr ⟨f, he⟩⟩
    · cases (h'.unique he).1
    · cases hq'

/-- The text is read, is about one table and is bound, and yet nothing is asked. -/
theorem evaluateExistence_huge : ∃ p bs f, Predicate.Denotes Predicate.plainExpression p ∧ p.IsAbout (some "t") "t" ∧
    p.bind [(.text "x", .int hugeNumber)] Predicate.plainExpression = .ok bs ∧
    Run.Ends obliging (evaluateExistence (recording obliging) Predicate.plainExpression [(.text "x", .int hugeNumber)] (some "t"))
      () [] (.error (.expression f)) := by
  have hp := Predicate.parse_plainExpression
  have hb := Predicate.bind_plainPredicate hugeNumber
  have hunwritten : Predicate.plainPredicate.Unwritten [(.text "x", .int hugeNumber)] Predicate.plainExpression :=
    ⟨_, hb, _, List.mem_singleton_self _, _, List.mem_singleton_self _, hugeNumber_unwritable⟩
  obtain ⟨f, hf⟩ : ∃ f, existenceQuery Predicate.plainExpression [(.text "x", .int hugeNumber)] (some "t") = .error f :=
    existenceQuery_eq_error_iff.mpr (.inr ⟨_, Predicate.parse_eq_ok_iff.mp hp, .inr (.inr hunwritten)⟩)
  have habout : Predicate.plainPredicate.IsAbout (some "t") "t" := by
    refine ⟨nofun, fun c hc t ht => ?_, fun _ _ => rfl⟩
    cases List.mem_singleton.mp hc
    cases ht
  exact ⟨_, _, f, Predicate.parse_eq_ok_iff.mp hp, habout, hb, evaluateExistence_stops hf⟩

end Workflow
