import Workflow.Proofs.Predicate.Reading

/-!
# What the reader refuses

A text that is no predicate is refused for a cause of the reader's own, or because one of its tokens holds a
template that is none, or is a number with too many digits.
-/

namespace Workflow.Predicate

/-- The source of a template within a token: the token itself, or a quoted text with two opening braces. -/
inductive Token.Embeds (t : Token) : String → Prop
  | plain : t.kind = .template → Embeds t t.text
  | quoted {s : List Char} : t.kind = .string → t.chars = quoteText s → openBraces <:+: s → Embeds t (String.ofList s)

/-- A fault that is the reader's own, or that of a number or a template within one of the tokens. -/
inductive Blames (templates : Bool) (ts : List Token) : ReadFault → Prop
  | cause {c : Cause} : Blames templates ts (.cause c)
  | number {t : Token} {b : Breakdown} : t ∈ ts → t.kind = .number → readNumber t.chars = .error b →
      Blames templates ts (.breakdown b)
  | template {t : Token} {source : String} {g : TemplateFault} : templates = true → t ∈ ts → t.Embeds source →
      Template.parse source = .error g → Blames templates ts (.template source g)

section
variable {templates : Bool} {f : ReadFault}

theorem Blames.mono {ts us : List Token} (h : Blames templates ts f) (hs : ts ⊆ us) : Blames templates us f := by
  cases h with
  | cause => exact .cause
  | number hm hk hn => exact .number (hs hm) hk hn
  | template ht hm he hp => exact .template ht (hs hm) he hp

theorem fail_eq_error {α : Type} {c : Cause} {ts : List Token} (h : (fail c : Except ReadFault α) = .error f) :
    Blames templates ts f := by
  cases h
  exact .cause

theorem templateOperand_fault {t : Token} {ts : List Token} {source : String} (ht : templates = true) (hm : t ∈ ts)
    (he : t.Embeds source) (h : templateOperand source = .error f) : Blames templates ts f := by
  unfold templateOperand at h
  split at h
  · cases h
  · rename_i g hg
    cases h
    exact .template ht hm he hg

theorem operandOf_fault {t : Token} {next : Option Token} {ts : List Token} (hs : t.Shaped) (hm : t ∈ ts)
    (h : operandOf templates t next = .error f) : Blames templates ts f := by
  unfold operandOf at h
  split at h
  · rename_i hk
    simp only [Token.Shaped, hk] at hs
    obtain ⟨content, hc⟩ := hs
    simp only [hc, stringContent_quoteText] at h
    split at h
    · rename_i hb
      simp only [Bool.and_eq_true, holdsBraces_iff] at hb
      exact templateOperand_fault hb.1 hm (.quoted hk hc hb.2) h
    · cases h
  · rename_i hk
    obtain ⟨b, hb, rfl⟩ := mapError_eq_error.mp h
    exact .number hm hk (map_eq_error.mp hb)
  · rename_i hk
    split at h
    · rename_i ht
      exact templateOperand_fault ht hm (.plain hk) h
    · exact fail_eq_error h
  · cases h
  · split at h
    · cases h
    · cases h
    · cases h
    · exact fail_eq_error h
    · unfold wordOperand at h
      split at h
      · exact fail_eq_error h
      · split at h
        · exact fail_eq_error h
        · cases h
  · exact fail_eq_error h

theorem columnOf_fault {t : Token} {ts : List Token} (h : columnOf t = .error f) : Blames templates ts f := by
  unfold columnOf at h
  split at h
  · exact fail_eq_error h
  · split at h
    · exact fail_eq_error h
    · split at h
      · cases h
      · cases h
      · exact fail_eq_error h

theorem expectKeyword_fault {k : Keyword} {name : String} {us ts : List Token} (h : expectKeyword k name us = .error f) :
    Blames templates ts f := by
  unfold expectKeyword at h
  split at h
  · exact fail_eq_error h
  · split at h
    · cases h
    · exact fail_eq_error h

theorem operandList_fault {ts : List Token} (hs : ∀ t ∈ ts, t.Shaped) (h : operandList templates ts = .error f) :
    Blames templates ts f := by
  fun_induction operandList templates ts with
  | case1 => exact fail_eq_error h
  | case2 t =>
    rcases bind_eq_error.mp h with h | ⟨o, -, h⟩
    · exact operandOf_fault (hs t (by simp)) (by simp) h
    · exact fail_eq_error h
  | case3 t s rest ih =>
    rcases bind_eq_error.mp h with h | ⟨o, -, h⟩
    · exact operandOf_fault (hs t (by simp)) (by simp) h
    · split at h
      · cases h
      · split at h
        · rcases bind_eq_error.mp h with h | ⟨os, -, h⟩
          · exact (ih (fun t ht => hs t (by simp [ht])) h).mono (by simp)
          · cases h
        · exact fail_eq_error h

theorem membership_fault {c : Column} {negated : Bool} {ts : List Token} (hs : ∀ t ∈ ts, t.Shaped)
    (h : membership templates c negated ts = .error f) : Blames templates ts f := by
  cases ts with
  | nil => exact fail_eq_error h
  | cons p us =>
    simp only [membership] at h
    split at h
    · rcases bind_eq_error.mp h with h | ⟨os, -, h⟩
      · exact (operandList_fault (fun t ht => hs t (by simp [ht])) h).mono (by simp)
      · cases h
    · exact fail_eq_error h

theorem nullTest_fault {c : Column} {us ts : List Token} (h : nullTest c us = .error f) : Blames templates ts f := by
  unfold nullTest at h
  split at h
  · exact fail_eq_error h
  · split at h
    · rcases bind_eq_error.mp h with h | ⟨rest, -, h⟩
      · exact expectKeyword_fault h
      · cases h
    · rcases bind_eq_error.mp h with h | ⟨rest, -, h⟩
      · exact expectKeyword_fault h
      · cases h

theorem noOperator_fault {α : Type} {c : Column} {t : Token} {ts : List Token}
    (h : (noOperator c t : Except ReadFault α) = .error f) : Blames templates ts f := by
  unfold noOperator at h
  split at h
  · exact fail_eq_error h
  · exact fail_eq_error h

theorem conditionOf_fault {c : Column} {ts : List Token} (hs : ∀ t ∈ ts, t.Shaped)
    (h : conditionOf templates c ts = .error f) : Blames templates ts f := by
  cases ts with
  | nil => exact fail_eq_error h
  | cons t us =>
    simp only [conditionOf] at h
    split at h
    · cases us with
      | nil => exact fail_eq_error h
      | cons v us =>
        rcases bind_eq_error.mp h with h | ⟨o, -, h⟩
        · exact operandOf_fault (hs v (by simp)) (by simp) h
        · cases h
    · split at h
      · exact nullTest_fault h
      · exact (membership_fault (fun t ht => hs t (by simp [ht])) h).mono (by simp)
      · cases us with
        | nil => exact fail_eq_error h
        | cons i us =>
          simp only at h
          split at h
          · exact (membership_fault (fun t ht => hs t (by simp [ht])) h).mono (fun t ht => by simp [ht])
          · exact noOperator_fault h
      · exact noOperator_fault h

theorem clause_fault {ts : List Token} (hs : ∀ t ∈ ts, t.Shaped) (h : clause templates ts = .error f) :
    Blames templates ts f := by
  cases ts with
  | nil => exact fail_eq_error h
  | cons c us =>
    rcases bind_eq_error.mp h with h | ⟨column, -, h⟩
    · exact columnOf_fault h
    · exact (conditionOf_fault (fun t ht => hs t (by simp [ht])) h).mono (by simp)

theorem clauses_fault {fuel : Nat} {ts : List Token} (hs : ∀ t ∈ ts, t.Shaped)
    (h : clauses templates fuel ts = .error f) : Blames templates ts f := by
  induction fuel generalizing ts with
  | zero => exact fail_eq_error h
  | succ fuel ih =>
    rcases bind_eq_error.mp h with h | ⟨⟨c, rest⟩, hc, hr⟩
    · exact clause_fault hs h
    · -- the rest consists of tokens of the whole
      obtain ⟨first, rfl, -⟩ := means_of_clause hs hc
      cases rest with
      | nil => cases hr
      | cons t rest =>
        simp only at hr
        split at hr
        · rcases bind_eq_error.mp hr with he | ⟨cs, -, he⟩
          · exact (ih (fun t ht => hs t (by simp [ht])) he).mono (fun t ht => by simp [ht])
          · cases he
        · exact fail_eq_error hr
        · exact fail_eq_error hr

theorem ofTokens_fault {ts : List Token} (hs : ∀ t ∈ ts, t.Shaped) (h : ofTokens templates ts = .error f) :
    Blames templates ts f := by
  cases ts with
  | nil => exact fail_eq_error h
  | cons t us =>
    simp only [ofTokens] at h
    split at h
    · cases us with
      | nil => exact fail_eq_error h
      | cons name us =>
        rcases bind_eq_error.mp h with h | ⟨table, -, h⟩
        · unfold tableOf at h
          split at h
          · exact fail_eq_error h
          · cases h
        · rcases bind_eq_error.mp h with h | ⟨rest, hr, hc⟩
          · exact expectKeyword_fault h
          · obtain ⟨w, rfl, -⟩ := expectKeyword_eq_ok.mp hr
            rcases bind_eq_error.mp hc with he | ⟨cs, -, he⟩
            · exact (clauses_fault (fun t ht => hs t (by simp [ht])) he).mono (fun t ht => by simp [ht])
            · cases he
    · rcases bind_eq_error.mp h with h | ⟨cs, -, h⟩
      · exact clauses_fault hs h
      · cases h

end

/-! ## Reading a text -/

theorem parseWith_eq_ok {templates : Bool} {expression : String} {p : Predicate} :
    parseWith templates expression = .ok p ↔ ∃ ts, tokens expression.toList = .ok ts ∧ ofTokens templates ts = .ok p := by
  unfold parseWith read
  cases tokens expression.toList with
  | error stop => simp [fail]
  | ok ts => cases h : ofTokens templates ts <;> simp [h]

theorem parseWith_eq_error {templates : Bool} {expression : String} {f : ExpressionFault}
    (h : parseWith templates expression = .error f) :
    (∃ stop, tokens expression.toList = .error stop ∧
      f = .predicate expression (.input stop.offset (String.ofList (stop.rest.take 10)))) ∨
    ∃ ts g, tokens expression.toList = .ok ts ∧ ofTokens templates ts = .error g ∧ f = g.within expression := by
  unfold parseWith read at h
  cases ht : tokens expression.toList with
  | error stop =>
    simp only [ht, fail, Except.error.injEq] at h
    exact .inl ⟨stop, rfl, h.symm⟩
  | ok ts =>
    cases hp : ofTokens templates ts with
    | error g =>
      simp only [ht, hp, Except.error.injEq] at h
      exact .inr ⟨ts, g, rfl, hp, h.symm⟩
    | ok p => simp [ht, hp] at h

/-- The faults that reading announces: a cause of its own, or a template outside the grammar of templates. -/
def announced : ExpressionFault → Bool
  | .predicate .. => true
  | .template _ f => f.breakdown?.isNone
  | .unresolved _ => false
  | .breakdown _ => false

/-- A token that breaks the reading of a predicate down: a number with too many digits, or a template with a number that
is not read. -/
inductive Token.BreaksDown (templates : Bool) (t : Token) : ExpressionFault → Prop
  | number {b : Breakdown} : t.kind = .number → readNumber t.chars = .error b → BreaksDown templates t (.breakdown b)
  | template {source : String} {b : Breakdown} : templates = true → t.Embeds source →
      Template.parse source = .error (.breakdown b) → BreaksDown templates t (.template source (.breakdown b))

/-- **Reading accepts exactly the grammar**, and no sequence of tokens has two trees. What it refuses, it refuses
with a fault that it announces, but for a token that breaks it down. -/
theorem parseWith_grammar (templates : Bool) (expression : String) :
    (∀ p, parseWith templates expression = .ok p ↔
      ∃ ts, tokens expression.toList = .ok ts ∧ ∃ d : Tree, d.tokens = ts ∧ d.Means templates p) ∧
    (∀ (d d' : Tree) (p p' : Predicate), d.Means templates p → d'.Means templates p' → d.tokens = d'.tokens →
      d = d' ∧ p = p') ∧
    ∀ f, parseWith templates expression = .error f →
      announced f = true ∧ ((∃ c, f = .predicate expression c) ∨
        ∃ ts t source g, templates = true ∧ tokens expression.toList = .ok ts ∧ t ∈ ts ∧ t.Embeds source ∧
          Template.parse source = .error g ∧ f = .template source g) ∨
      ∃ ts t, tokens expression.toList = .ok ts ∧ t ∈ ts ∧ t.BreaksDown templates f := by
  refine ⟨fun p => ?_, fun d d' p p' h h' he => h.unique h' he, fun f h => ?_⟩
  · rw [parseWith_eq_ok]
    constructor
    · rintro ⟨ts, ht, hp⟩
      exact ⟨ts, ht, means_of_ofTokens (tokens_shaped ht) hp⟩
    · rintro ⟨_, ht, d, rfl, hd⟩
      exact ⟨d.tokens, ht, ofTokens_of_means hd⟩
  · rcases parseWith_eq_error h with ⟨stop, -, rfl⟩ | ⟨ts, r, ht, hp, rfl⟩
    · exact .inl ⟨rfl, .inl ⟨_, rfl⟩⟩
    · cases ofTokens_fault (tokens_shaped ht) hp with
      | cause => exact .inl ⟨rfl, .inl ⟨_, rfl⟩⟩
      | @number t b hm hk hn => exact .inr ⟨ts, t, ht, hm, .number hk hn⟩
      | @template t source g hb hm he hg =>
        cases g with
        | breakdown b => exact .inr ⟨ts, t, ht, hm, .template hb he hg⟩
        | _ => exact .inl ⟨rfl, .inr ⟨ts, t, source, _, hb, ht, hm, he, hg, rfl⟩⟩

/-- A template with a five in Arabic-Indic digits is refused with a fault that is not announced. -/
theorem parse_foreign_number : ∃ f, parse "a = \x7b\x7b 1.٥ \x7d\x7d" = .error f ∧ announced f = false := by
  have hc : (fault? (parse "a = \x7b\x7b 1.٥ \x7d\x7d")).any (fun f => !announced f) = true := by decide +kernel
  obtain ⟨f, hf, ha⟩ := any_fault?.mp hc
  rw [Bool.not_eq_true'] at ha
  exact ⟨f, hf, ha⟩

end Workflow.Predicate
