import Mathlib.Data.List.Chain
import Workflow.Proofs.Predicate.Faults

/-!
# Parameters

The parameters of a predicate are its parameter tokens. No token that can only be a value, as a parameter is, has another one
right behind it.
-/

namespace Workflow.Predicate

section
variable {templates : Bool}

/-! ## Tokens and operands -/

def Token.param? (t : Token) : Option String := if t.kind = .param then some (String.ofList (t.chars.drop 1)) else none

def Operand.param? : Operand → Option String
  | param name => some name
  | _ => none

theorem params_eq (p : Predicate) : p.params = p.conditions.flatMap fun c => c.operands.filterMap Operand.param? := by
  rw [params, operands, List.filterMap_flatMap]
  rfl

theorem Token.param?_of_kind {t : Token} (h : t.kind ≠ .param) : t.param? = none := if_neg h

theorem Token.param?_of_keyword {t : Token} {k : Keyword} (h : t.keyword? = some k) : t.param? = none :=
  param?_of_kind (by simp [kind_of_keyword h])

theorem param?_of_keywords {n : Option Token} {k : Keyword} (h : ∀ t ∈ n, t.keyword? = some k) :
    n.toList.filterMap Token.param? = [] := by
  cases n with
  | none => rfl
  | some t => simp [Token.param?_of_keyword (h t rfl)]

theorem ColumnOf.kind {t : Token} {c : Column} (h : ColumnOf t c) : t.kind = .word := by
  cases h <;> assumption

theorem ColumnOf.param? {t : Token} {c : Column} (h : ColumnOf t c) : t.param? = none :=
  Token.param?_of_kind (by simp [h.kind])

theorem ValueOf.param? {t : Token} {o : Operand} (h : ValueOf templates t o) : t.param? = o.param? := by
  cases h with
  | param hk hc => simp [Token.param?, hk, hc, Operand.param?]
  | true hk => exact Token.param?_of_keyword hk
  | false hk => exact Token.param?_of_keyword hk
  | null hk => exact Token.param?_of_keyword hk
  | quoted hk => exact Token.param?_of_kind (by simp [hk])
  | quotedTemplate _ hk => exact Token.param?_of_kind (by simp [hk])
  | template _ hk => exact Token.param?_of_kind (by simp [hk])
  | number hk => exact Token.param?_of_kind (by simp [hk])
  | word hk => exact Token.param?_of_kind (by simp [hk])

theorem ValueOf.params {t : Token} {o : Operand} (h : ValueOf templates t o) :
    [t].filterMap Token.param? = [o].filterMap Operand.param? := by
  simp only [List.filterMap_cons, h.param?, List.filterMap_nil]

theorem params_of_values {more : List (Token × Token)} {os : List Operand}
    (h : List.Forall₂ (fun q o => q.1.kind = .comma ∧ ValueOf templates q.2 o) more os) :
    (pairTokens more).filterMap Token.param? = os.filterMap Operand.param? := by
  induction h with
  | nil => rfl
  | @cons q o more os hq _ ih =>
    have hc : q.1.param? = none := Token.param?_of_kind (by simp [hq.1])
    have ht : pairTokens (q :: more) = [q.1, q.2] ++ pairTokens more := List.flatMap_cons
    have ho : o :: os = [o] ++ os := rfl
    rw [ht, ho, List.filterMap_append, List.filterMap_append, ih]
    simp [hc, hq.2.params]

theorem ClauseTree.Means.params {c : ClauseTree} {cond : Condition} (h : c.Means templates cond) :
    c.tokens.filterMap Token.param? = cond.operands.filterMap Operand.param? := by
  cases h with
  | @comparison c op v column operator o hc hk _ hv =>
    have ho : op.param? = none := Token.param?_of_kind (by simp [hk])
    simp [ClauseTree.tokens, Condition.operands, hc.param?, ho, hv.params]
  | nullTest hc hi hn hnull =>
    simp [ClauseTree.tokens, Condition.operands, hc.param?, Token.param?_of_keyword hi, param?_of_keywords hn,
      Token.param?_of_keyword hnull, Operand.param?]
  | @membership c i p v e n more column o os hc hn hi hp hv hvs he =>
    have hopen : p.param? = none := Token.param?_of_kind (by simp [hp])
    have hclose : e.param? = none := Token.param?_of_kind (by simp [he])
    have ho : (o :: os).filterMap Operand.param? = [o].filterMap Operand.param? ++ os.filterMap Operand.param? :=
      List.filterMap_append (l := [o])
    have ht : (v :: (pairTokens more ++ [e])).filterMap Token.param? =
        [o].filterMap Operand.param? ++ os.filterMap Operand.param? := by
      rw [← List.singleton_append, List.filterMap_append, List.filterMap_append, params_of_values hvs]
      simp [hclose, hv.params]
    simp only [ClauseTree.tokens, Condition.operands, ho, ← ht]
    simp [hc.param?, param?_of_keywords hn, Token.param?_of_keyword hi, hopen]

theorem MoreMeans.params {more : List (Token × ClauseTree)} {cs : List Condition} (h : MoreMeans templates more cs) :
    (moreTokens more).filterMap Token.param? = cs.flatMap fun c => c.operands.filterMap Operand.param? := by
  induction h with
  | nil => rfl
  | @cons q c more cs hq _ ih =>
    have ht : moreTokens (q :: more) = q.1 :: q.2.tokens ++ moreTokens more := List.flatMap_cons
    rw [ht, List.filterMap_append, ih, List.filterMap_cons_none (Token.param?_of_keyword hq.1), hq.2.params,
      List.flatMap_cons]

theorem Tree.Means.params {d : Tree} {p : Predicate} (h : d.Means templates p) :
    d.tokens.filterMap Token.param? = p.params := by
  obtain ⟨htable, c, cs, hc, hf, hm⟩ := h
  rw [params_eq, hc, List.flatMap_cons, ← hf.params, ← hm.params, Tree.tokens, List.filterMap_append,
    List.filterMap_append]
  cases he : d.exist with
  | none => rfl
  | some q =>
    obtain ⟨e, t, w⟩ := q
    rw [he] at htable
    obtain ⟨hek, ht, hw, -⟩ := htable
    have htn : t.param? = none := Token.param?_of_kind (by simp [ht.1])
    simp [Token.param?_of_keyword hek, htn, Token.param?_of_keyword hw]

/-! ## Values in a row -/

def TokenKind.isValue : TokenKind → Bool
  | template | string | number | param => true
  | _ => false

/-- No such value is right behind another one. -/
abbrev Spaced (ts : List Token) : Prop := ts.IsChain fun a b => a.kind.isValue = true → b.kind.isValue = false

theorem Spaced.cons_of_kind {t : Token} {ts : List Token} (h : Spaced ts) (hk : t.kind.isValue = false) : Spaced (t :: ts) :=
  h.cons fun _ _ ht => absurd (hk.symm.trans ht) nofun

theorem Spaced.cons_of_head {t : Token} {ts : List Token} (h : Spaced ts) (hn : ∀ u ∈ ts.head?, u.kind.isValue = false) :
    Spaced (t :: ts) :=
  h.cons fun u hu _ => hn u hu

theorem Spaced.keywords {n : Option Token} {k : Keyword} {ts : List Token} (h : Spaced ts)
    (hn : ∀ t ∈ n, t.keyword? = some k) : Spaced (n.toList ++ ts) := by
  cases n with
  | none => exact h
  | some t => exact h.cons_of_kind (by simp [kind_of_keyword (hn t rfl), TokenKind.isValue])

theorem spaced_pairs {more : List (Token × Token)} {os : List Operand} {e : Token} {rest : List Token}
    (h : List.Forall₂ (fun q o => q.1.kind = .comma ∧ ValueOf templates q.2 o) more os) (he : e.kind = .rightParen)
    (hr : Spaced rest) :
    Spaced (pairTokens more ++ e :: rest) ∧ ∀ u ∈ (pairTokens more ++ e :: rest).head?, u.kind.isValue = false := by
  induction h with
  | nil => exact ⟨hr.cons_of_kind (by simp [he, TokenKind.isValue]), by simp [pairTokens, he, TokenKind.isValue]⟩
  | cons hq _ ih =>
    obtain ⟨hs, hh⟩ := ih
    exact ⟨(hs.cons_of_head hh).cons_of_kind (by simp [hq.1, TokenKind.isValue]),
      by simp [pairTokens, hq.1, TokenKind.isValue]⟩

theorem ClauseTree.Means.spaced {c : ClauseTree} {cond : Condition} (h : c.Means templates cond) {rest : List Token}
    (hr : Spaced rest) (hh : ∀ u ∈ rest.head?, u.kind.isValue = false) : Spaced (c.tokens ++ rest) := by
  cases h with
  | @comparison c op v column operator o hc hk _ _ =>
    have hs := (hr.cons_of_head (t := v) hh).cons_of_kind (t := op) (by simp [hk, TokenKind.isValue])
    exact hs.cons_of_kind (t := c) (by simp [hc.kind, TokenKind.isValue])
  | @nullTest c is null n column hc hi hn hnull =>
    have hs := (hr.cons_of_kind (t := null) (by simp [kind_of_keyword hnull, TokenKind.isValue])).keywords hn
    have hs := hs.cons_of_kind (t := is) (by simp [kind_of_keyword hi, TokenKind.isValue])
    simpa [ClauseTree.tokens] using hs.cons_of_kind (t := c) (by simp [hc.kind, TokenKind.isValue])
  | @membership c i p v e n more column o os hc hn hi hpar hv hvs he =>
    obtain ⟨hs, hh⟩ := spaced_pairs hvs he hr
    have hs := (hs.cons_of_head (t := v) hh).cons_of_kind (t := p) (by simp [hpar, TokenKind.isValue])
    have hs := hs.cons_of_kind (t := i) (by simp [kind_of_keyword hi, TokenKind.isValue])
    simpa [ClauseTree.tokens] using (hs.keywords hn).cons_of_kind (by simp [hc.kind, TokenKind.isValue])

theorem MoreMeans.spaced {more : List (Token × ClauseTree)} {cs : List Condition} (h : MoreMeans templates more cs) :
    Spaced (moreTokens more) ∧ ∀ u ∈ (moreTokens more).head?, u.kind.isValue = false := by
  induction h with
  | nil => simp [moreTokens]
  | cons hq _ ih =>
    have hk := kind_of_keyword hq.1
    exact ⟨(hq.2.spaced ih.1 ih.2).cons_of_kind (by simp [hk, TokenKind.isValue]),
      by simp [moreTokens, hk, TokenKind.isValue]⟩

theorem Tree.Means.spaced {d : Tree} {p : Predicate} (h : d.Means templates p) : Spaced d.tokens := by
  obtain ⟨htable, c, cs, -, hf, hm⟩ := h
  have hs := hf.spaced hm.spaced.1 hm.spaced.2
  unfold Tree.tokens
  cases he : d.exist with
  | none => simpa using hs
  | some q =>
    obtain ⟨e, t, w⟩ := q
    rw [he] at htable
    obtain ⟨hek, ht, hw, -⟩ := htable
    have hs := hs.cons_of_kind (t := w) (by simp [kind_of_keyword hw, TokenKind.isValue])
    have hs := hs.cons_of_kind (t := t) (by simp [ht.1, TokenKind.isValue])
    simpa using hs.cons_of_kind (t := e) (by simp [kind_of_keyword hek, TokenKind.isValue])

/-- The parameters of a predicate that was read are its parameter tokens in order, and no values stand in a row. -/
theorem params_of_parseWith {expression : String} {p : Predicate} (h : parseWith templates expression = .ok p) :
    ∃ ts, tokens expression.toList = .ok ts ∧ Spaced ts ∧ ts.filterMap Token.param? = p.params := by
  obtain ⟨ts, ht, hp⟩ := parseWith_eq_ok.mp h
  obtain ⟨d, rfl, hd⟩ := means_of_ofTokens (tokens_shaped ht) hp
  exact ⟨d.tokens, ht, hd.spaced, hd.params⟩

end

end Workflow.Predicate
