import Workflow.Proofs.Predicate.Grammar

/-!
# Reading and the grammar

The reader accepts the tokens of a tree, with the predicate that the tree means; and what it accepts has a
tree. Both directions follow the functions of the reader one by one.
-/

namespace Workflow.Predicate

section
variable {templates : Bool}

/-! ## Values -/

/-- A token that is no opening parenthesis, or the end. -/
def NoCall (ts : List Token) : Prop := ∀ t ∈ ts.head?, t.kind ≠ .leftParen

theorem NoCall.cons {t : Token} {ts : List Token} (h : t.kind ≠ .leftParen) : NoCall (t :: ts) := by
  intro s hs
  simp only [List.head?_cons, Option.mem_some_iff] at hs
  exact hs ▸ h

theorem numberOperand_eq_ok {cs : List Char} {o : Operand} :
    numberOperand cs = .ok o ↔ ∃ s, readNumber cs = .ok s ∧ o = .literal s := by
  rw [numberOperand, mapError_eq_ok, map_eq_ok]
  exact exists_congr fun s => and_congr_right fun _ => eq_comm

theorem operandOf_of_value {t : Token} {o : Operand} (h : ValueOf templates t o) {rest : List Token} (hr : NoCall rest) :
    operandOf templates t rest.head? = .ok o := by
  unfold operandOf
  cases h with
  | quoted hk hc hb =>
    simp only [hk, hc, stringContent_quoteText]
    split
    · rename_i h
      simp only [Bool.and_eq_true, holdsBraces_iff] at h
      exact absurd h.2 (hb h.1)
    · rfl
  | quotedTemplate ht hk hc hb hp =>
    simp [hk, hc, stringContent_quoteText, ht, (holdsBraces_iff _).mpr hb, templateOperand, hp]
  | template ht hk hp => simp [hk, ht, templateOperand, hp]
  | number hk hr => exact hk ▸ numberOperand_eq_ok.mpr ⟨_, hr, rfl⟩
  | param hk hc => simp [hk, hc]
  | true hw => simp [kind_of_keyword hw, hw]
  | false hw => simp [kind_of_keyword hw, hw]
  | null hw => simp [kind_of_keyword hw, hw]
  | word hk hw hd =>
    have hn : rest.head?.map Token.kind ≠ some .leftParen := by
      intro he
      obtain ⟨s, hs, hk⟩ := Option.map_eq_some_iff.mp he
      exact hr s hs hk
    simp [hk, hw, wordOperand, hd, hn]

theorem templateOperand_eq_ok {source : String} {o : Operand} (h : templateOperand source = .ok o) :
    ∃ m, Template.parse source = .ok m ∧ o = .template m := by
  unfold templateOperand at h
  split at h
  · rename_i m hm
    cases h
    exact ⟨m, hm, rfl⟩
  · cases h

section
variable {t : Token} {o : Operand} {next : Option Token}

theorem value_of_string (hk : t.kind = .string) (hs : t.Shaped) (h : operandOf templates t next = .ok o) :
    ValueOf templates t o := by
  simp only [Token.Shaped, hk] at hs
  obtain ⟨content, hc⟩ := hs
  simp only [operandOf, hk, hc, stringContent_quoteText] at h
  split at h
  · rename_i hb
    simp only [Bool.and_eq_true, holdsBraces_iff] at hb
    obtain ⟨m, hm, rfl⟩ := templateOperand_eq_ok h
    exact .quotedTemplate hb.1 hk hc hb.2 hm
  · rename_i hb
    simp only [Bool.and_eq_true, holdsBraces_iff, not_and] at hb
    cases h
    exact .quoted hk hc hb

theorem value_of_word (hk : t.kind = .word) (hw : t.keyword? = none) (h : wordOperand t next = .ok o) :
    ValueOf templates t o := by
  unfold wordOperand at h
  split at h
  · cases h
  · rename_i hd
    split at h
    · cases h
    · cases h
      exact .word hk hw (by simpa using hd)

theorem value_of_operandOf (hs : t.Shaped) (h : operandOf templates t next = .ok o) : ValueOf templates t o := by
  cases hk : t.kind with
  | string => exact value_of_string hk hs h
  | number =>
    simp only [operandOf, hk] at h
    obtain ⟨s, hs, rfl⟩ := numberOperand_eq_ok.mp h
    exact .number hk hs
  | template =>
    simp only [operandOf, hk] at h
    split at h
    · rename_i ht
      obtain ⟨m, hm, rfl⟩ := templateOperand_eq_ok h
      exact .template ht hk hm
    · cases h
  | param =>
    simp only [Token.Shaped, hk] at hs
    obtain ⟨name, hc, -⟩ := hs
    simp only [operandOf, hk, hc, Except.ok.injEq] at h
    exact h ▸ .param hk hc
  | word =>
    simp only [operandOf, hk] at h
    split at h
    · rename_i hw
      cases h
      exact .true hw
    · rename_i hw
      cases h
      exact .false hw
    · rename_i hw
      cases h
      exact .null hw
    · cases h
    · rename_i hw
      exact value_of_word hk hw h
  | _ =>
    simp only [operandOf, hk] at h
    cases h

end

/-! ## Lists of values -/

theorem operandList_of_values {more : List (Token × Token)} {os : List Operand} {v e : Token} {o : Operand}
    (hv : ValueOf templates v o)
    (hm : List.Forall₂ (fun q o => q.1.kind = .comma ∧ ValueOf templates q.2 o) more os) (he : e.kind = .rightParen)
    (rest : List Token) :
    operandList templates (v :: (pairTokens more ++ e :: rest)) = .ok (o :: os, rest) := by
  induction hm generalizing v o with
  | nil =>
    have hc : NoCall (e :: rest) := .cons (by simp [he])
    have := operandOf_of_value hv hc
    simp only [List.head?_cons] at this
    simp [pairTokens, operandList, this, he]
  | @cons q o' more os hq hm ih =>
    obtain ⟨comma, w⟩ := q
    obtain ⟨hk, hw⟩ : comma.kind = .comma ∧ ValueOf templates w o' := hq
    have hc : NoCall (comma :: w :: (pairTokens more ++ e :: rest)) := .cons (by simp [hk])
    have := operandOf_of_value hv hc
    simp only [List.head?_cons] at this
    have hl := ih hw
    simp only [pairTokens] at hl
    simp [pairTokens, operandList, this, hk, hl]

theorem values_of_operandList {ts rest : List Token} {os : List Operand} (hs : ∀ t ∈ ts, t.Shaped)
    (h : operandList templates ts = .ok (os, rest)) :
    ∃ v more e o os', ts = v :: (pairTokens more ++ e :: rest) ∧ os = o :: os' ∧ ValueOf templates v o ∧
      List.Forall₂ (fun q o => q.1.kind = .comma ∧ ValueOf templates q.2 o) more os' ∧ e.kind = .rightParen := by
  fun_induction operandList templates ts generalizing os rest with
  | case1 => cases h
  | case2 t =>
    obtain ⟨o, -, h⟩ := bind_eq_ok.mp h
    cases h
  | case3 t s rest' ih =>
    obtain ⟨o, ho, h⟩ := bind_eq_ok.mp h
    have hv := value_of_operandOf (hs t (by simp)) ho
    split at h
    · rename_i he
      simp only [pure_eq_ok, Except.ok.injEq, Prod.mk.injEq] at h
      obtain ⟨rfl, rfl⟩ := h
      exact ⟨t, [], s, o, [], rfl, rfl, hv, .nil, he⟩
    · split at h
      · rename_i hc
        obtain ⟨⟨os', rest''⟩, hl, h⟩ := bind_eq_ok.mp h
        simp only [pure_eq_ok, Except.ok.injEq, Prod.mk.injEq] at h
        obtain ⟨rfl, rfl⟩ := h
        obtain ⟨w, more, e, o', os'', rfl, rfl, hw, hm, he⟩ := ih (fun t ht => hs t (by simp [ht])) hl
        exact ⟨t, (s, w) :: more, e, o, o' :: os'', rfl, rfl, hv, .cons ⟨hc, hw⟩ hm, he⟩
      · cases h

/-! ## Clauses -/

theorem expectKeyword_eq_ok {k : Keyword} {name : String} {ts rest : List Token} :
    expectKeyword k name ts = .ok rest ↔ ∃ t, ts = t :: rest ∧ t.keyword? = some k := by
  cases ts with
  | nil => simp [expectKeyword, fail]
  | cons t us =>
    simp only [expectKeyword, List.cons.injEq]
    constructor
    · intro h
      split at h
      · rename_i hk
        cases h
        exact ⟨t, ⟨rfl, rfl⟩, hk⟩
      · cases h
    · rintro ⟨_, ⟨rfl, rfl⟩, hk⟩
      rw [if_pos hk]

theorem nullTest_of_tokens {c : Column} {n : Option Token} {null : Token} (hn : ∀ t ∈ n, t.keyword? = some .not)
    (hw : null.keyword? = some .null) (rest : List Token) :
    nullTest c (n.toList ++ null :: rest) =
      .ok (.comparison c (if n.isSome then .notNull else .isNull) (.literal .null), rest) := by
  have he : expectKeyword .null "NULL" (null :: rest) = .ok rest := expectKeyword_eq_ok.mpr ⟨null, rfl, hw⟩
  cases n with
  | none => simp [nullTest, hw, he]
  | some t => simp [nullTest, hn t rfl, he]

theorem tokens_of_nullTest {c : Column} {ts rest : List Token} {cond : Condition} (h : nullTest c ts = .ok (cond, rest)) :
    ∃ (n : Option Token) (null : Token), ts = n.toList ++ null :: rest ∧ (∀ t ∈ n, t.keyword? = some .not) ∧ null.keyword? = some .null ∧
      cond = .comparison c (if n.isSome then .notNull else .isNull) (.literal .null) := by
  cases ts with
  | nil => cases h
  | cons t us =>
    simp only [nullTest] at h
    split at h
    · rename_i ht
      obtain ⟨rest', he, h⟩ := bind_eq_ok.mp h
      cases h
      obtain ⟨null, rfl, hw⟩ := expectKeyword_eq_ok.mp he
      exact ⟨some t, null, rfl, by simpa using ht, hw, rfl⟩
    · obtain ⟨rest', he, h⟩ := bind_eq_ok.mp h
      cases h
      obtain ⟨null, hus, hw⟩ := expectKeyword_eq_ok.mp he
      exact ⟨none, null, hus, by simp, hw, rfl⟩

/-- What follows a column in a membership condition, after the `NOT` if there is one. -/
theorem means_of_membership {c i : Token} {column : Column} {n : Option Token} {ts rest : List Token} {cond : Condition}
    (hs : ∀ t ∈ ts, t.Shaped) (hc : ColumnOf c column) (hn : ∀ t ∈ n, t.keyword? = some .not)
    (hi : i.keyword? = some .in) (h : membership templates column n.isSome ts = .ok (cond, rest)) :
    ∃ d : ClauseTree, c :: (n.toList ++ i :: ts) = d.tokens ++ rest ∧ d.Means templates cond := by
  cases ts with
  | nil => cases h
  | cons p us =>
    simp only [membership] at h
    split at h
    · rename_i hp
      obtain ⟨⟨os, rest'⟩, hl, h⟩ := bind_eq_ok.mp h
      cases h
      obtain ⟨v, more, e, o, os', rfl, rfl, hv, hm, he⟩ := values_of_operandList (fun t ht => hs t (by simp [ht])) hl
      exact ⟨.membership c n i p v more e, by simp [ClauseTree.tokens], .membership hc hn hi hp hv hm he⟩
    · cases h

theorem clause_of_means {c : ClauseTree} {cond : Condition} (h : c.Means templates cond) {rest : List Token}
    (hr : NoCall rest) : clause templates (c.tokens ++ rest) = .ok (cond, rest) := by
  cases h with
  | comparison hc hk ho hv =>
    simp [ClauseTree.tokens, clause, columnOf_eq_ok.mpr hc, conditionOf, hk, comparison, operandOf_of_value hv hr,
      operatorOf_eq ho]
  | @nullTest c is null n column hc hi hn hw =>
    have := nullTest_of_tokens (c := column) hn hw rest
    simp [ClauseTree.tokens, clause, columnOf_eq_ok.mpr hc, conditionOf, kind_of_keyword hi, hi, this]
  | @membership c i p v e n more column o os hc hn hi hp hv hm he =>
    have hl := operandList_of_values hv hm he rest
    have hb (negated : Bool) : membership templates column negated (p :: v :: (pairTokens more ++ e :: rest)) =
        .ok (.membership column negated (o :: os), rest) := by
      simp [membership, hp, hl]
    cases n with
    | none =>
      simp [ClauseTree.tokens, clause, columnOf_eq_ok.mpr hc, conditionOf, kind_of_keyword hi, hi, hb]
    | some t =>
      have ht : t.keyword? = some .not := hn t rfl
      simp [ClauseTree.tokens, clause, columnOf_eq_ok.mpr hc, conditionOf, kind_of_keyword ht, ht, hi, hb]

theorem means_of_clause {ts rest : List Token} {cond : Condition} (hs : ∀ t ∈ ts, t.Shaped)
    (h : clause templates ts = .ok (cond, rest)) : ∃ c : ClauseTree, ts = c.tokens ++ rest ∧ c.Means templates cond := by
  cases ts with
  | nil => cases h
  | cons c us =>
    obtain ⟨column, hc, h⟩ := bind_eq_ok.mp h
    have hc := columnOf_eq_ok.mp hc
    cases us with
    | nil => cases h
    | cons t us =>
      simp only [conditionOf] at h
      split at h
      · rename_i hk
        cases us with
        | nil => cases h
        | cons v us =>
          obtain ⟨o, ho, h⟩ := bind_eq_ok.mp h
          cases h
          have ht := hs t (by simp)
          simp only [Token.Shaped, hk] at ht
          obtain ⟨op, hop⟩ := ht
          refine ⟨.comparison c t v, rfl, ?_⟩
          rw [operatorOf_eq hop]
          exact .comparison hc hk hop (value_of_operandOf (hs v (by simp)) ho)
      · split at h
        · rename_i hi
          obtain ⟨n, null, rfl, hn, hw, rfl⟩ := tokens_of_nullTest h
          exact ⟨.nullTest c t n null, by simp [ClauseTree.tokens], .nullTest hc hi hn hw⟩
        · rename_i hi
          exact means_of_membership (n := none) (fun t ht => hs t (by simp [ht])) hc (by simp) hi h
        · rename_i hn
          cases us with
          | nil => cases h
          | cons i us =>
            simp only at h
            split at h
            · rename_i hi
              exact means_of_membership (n := some t) (fun t ht => hs t (by simp [ht])) hc (by simpa using hn) hi h
            · unfold noOperator at h
              split at h <;> cases h
        · unfold noOperator at h
          split at h <;> cases h

/-! ## Predicates -/

theorem MoreMeans.noCall {more : List (Token × ClauseTree)} {cs : List Condition} (h : MoreMeans templates more cs) :
    NoCall (moreTokens more) := by
  cases h with
  | nil => simp [NoCall, moreTokens]
  | cons hq _ => exact .cons (by simp [kind_of_keyword hq.1])

theorem clauses_of_means {more : List (Token × ClauseTree)} {cs : List Condition} {first : ClauseTree} {c : Condition}
    (hf : first.Means templates c) (hm : MoreMeans templates more cs) {fuel : Nat} (hn : more.length < fuel) :
    clauses templates fuel (first.tokens ++ moreTokens more) = .ok (c :: cs) := by
  have hc := clause_of_means hf hm.noCall
  induction hm generalizing first c fuel with
  | nil =>
    obtain ⟨fuel, rfl⟩ : ∃ k, fuel = k + 1 := ⟨fuel - 1, by simp at hn; omega⟩
    simp only [moreTokens, List.flatMap_nil, List.append_nil] at hc ⊢
    simp [clauses, hc]
  | @cons q c' more cs hq hm ih =>
    obtain ⟨fuel, rfl⟩ : ∃ k, fuel = k + 1 := ⟨fuel - 1, by simp at hn; omega⟩
    obtain ⟨conj, next⟩ := q
    obtain ⟨hk, hd⟩ : conj.keyword? = some .and ∧ next.Means templates c' := hq
    have hl : more.length < fuel := by simp at hn; omega
    have := ih hd hl (clause_of_means hd (MoreMeans.noCall hm))
    simp only [moreTokens, List.flatMap_cons, List.cons_append] at hc this ⊢
    simp [clauses, hc, hk, this]

theorem means_of_clauses {fuel : Nat} {ts : List Token} {cs : List Condition} (hs : ∀ t ∈ ts, t.Shaped)
    (h : clauses templates fuel ts = .ok cs) :
    ∃ (first : ClauseTree) (more : List (Token × ClauseTree)) (c : Condition) (cs' : List Condition),
      ts = first.tokens ++ moreTokens more ∧ cs = c :: cs' ∧ first.Means templates c ∧ MoreMeans templates more cs' := by
  induction fuel generalizing ts cs with
  | zero => cases h
  | succ fuel ih =>
    obtain ⟨⟨c, rest⟩, hc, hr⟩ := bind_eq_ok.mp h
    obtain ⟨first, rfl, hf⟩ := means_of_clause hs hc
    cases rest with
    | nil =>
      cases hr
      exact ⟨first, [], c, [], by simp [moreTokens], rfl, hf, .nil⟩
    | cons t rest =>
      simp only at hr
      split at hr
      · rename_i hk
        obtain ⟨cs', hcs, he⟩ := bind_eq_ok.mp hr
        cases he
        obtain ⟨next, more, c', cs'', rfl, rfl, hd, hm⟩ := ih (fun t ht => hs t (by simp [ht])) hcs
        exact ⟨first, (t, next) :: more, c, c' :: cs'', by simp [moreTokens], rfl, hf, .cons ⟨hk, hd⟩ hm⟩
      · cases hr
      · cases hr

theorem tableOf_eq_ok {t : Token} {name : String} : tableOf t = .ok name ↔ IsTable t ∧ name = t.text := by
  unfold tableOf IsTable
  constructor
  · intro h
    split at h
    · cases h
    · rename_i hn
      simp only [not_or, Decidable.not_not, Bool.not_eq_true, List.contains_eq_mem, decide_eq_false_iff_not] at hn
      cases h
      exact ⟨⟨hn.1, hn.2.1, hn.2.2⟩, rfl⟩
  · rintro ⟨⟨hk, hw, hd⟩, rfl⟩
    simp [hk, hw, hd]

theorem length_le_moreTokens (more : List (Token × ClauseTree)) : more.length ≤ (moreTokens more).length := by
  induction more with
  | nil => exact Nat.le_refl _
  | cons q more ih =>
    simp only [moreTokens, List.flatMap_cons, List.length_append, List.length_cons] at ih ⊢
    omega

theorem ofTokens_of_means {d : Tree} {p : Predicate} (h : d.Means templates p) : ofTokens templates d.tokens = .ok p := by
  obtain ⟨ht, c, cs, hp, hf, hm⟩ := h
  have hl : allClauses templates (d.first.tokens ++ moreTokens d.more) = .ok p.conditions := by
    rw [hp]
    refine clauses_of_means hf hm ?_
    -- every clause takes a token at least, so the fuel does not run out
    have := length_le_moreTokens d.more
    simp only [List.length_append]
    omega
  obtain ⟨exist, first, more⟩ := d
  obtain ⟨table, conditions⟩ := p
  simp only at ht hl hf hm
  cases exist with
  | none =>
    obtain ⟨t, us, hts, hc⟩ := hf.head
    simp only [Tree.tokens, List.nil_append, hts, List.cons_append] at hl ⊢
    simp only [TableOf] at ht
    simp [ofTokens, hc.no_keyword, hl, ht]
  | some etw =>
    obtain ⟨e, t, w⟩ := etw
    obtain ⟨he, ht, hw, rfl⟩ := ht
    simp only [Tree.tokens, List.cons_append, List.nil_append]
    simp [ofTokens, he, tableOf_eq_ok.mpr ⟨ht, rfl⟩, expectKeyword_eq_ok.mpr ⟨w, rfl, hw⟩, hl]

theorem means_of_ofTokens {ts : List Token} {p : Predicate} (hs : ∀ t ∈ ts, t.Shaped)
    (h : ofTokens templates ts = .ok p) : ∃ d : Tree, d.tokens = ts ∧ d.Means templates p := by
  cases ts with
  | nil => cases h
  | cons t us =>
    simp only [ofTokens] at h
    split at h
    · rename_i he
      cases us with
      | nil => cases h
      | cons name us =>
        obtain ⟨table, ht, h⟩ := bind_eq_ok.mp h
        obtain ⟨hn, rfl⟩ := tableOf_eq_ok.mp ht
        obtain ⟨rest, hr, h⟩ := bind_eq_ok.mp h
        obtain ⟨cs, hcs, h⟩ := bind_eq_ok.mp h
        cases h
        obtain ⟨w, rfl, hw⟩ := expectKeyword_eq_ok.mp hr
        obtain ⟨first, more, c, cs', rfl, rfl, hf, hm⟩ := means_of_clauses (fun t ht => hs t (by simp [ht])) hcs
        exact ⟨⟨some (t, name, w), first, more⟩, by simp [Tree.tokens], ⟨he, hn, hw, rfl⟩, c, cs', rfl, hf, hm⟩
    · obtain ⟨cs, hcs, h⟩ := bind_eq_ok.mp h
      cases h
      obtain ⟨first, more, c, cs', hts, rfl, hf, hm⟩ := means_of_clauses hs hcs
      exact ⟨⟨none, first, more⟩, by simp [Tree.tokens, hts], rfl, c, cs', rfl, hf, hm⟩

/-! ## A sequence of tokens has one tree -/

theorem pairTokens_injective : Function.Injective pairTokens := by
  intro more
  induction more with
  | nil => intro more' h; cases more' <;> simp_all [pairTokens]
  | cons q more ih =>
    intro more' h
    cases more' with
    | nil => simp [pairTokens] at h
    | cons q' more' =>
      simp only [pairTokens, List.flatMap_cons, List.cons_append, List.nil_append, List.cons.injEq] at h
      rw [Prod.ext h.1 h.2.1, ih h.2.2]

/-- The condition tells what kind of clause it is and whether it is negated; the rest are tokens. -/
theorem ClauseTree.Means.eq_of_tokens {c c' : ClauseTree} {cond : Condition} (h : c.Means templates cond)
    (h' : c'.Means templates cond) (ht : c.tokens = c'.tokens) : c = c' := by
  cases h with
  | comparison _ _ ho =>
    generalize hc : Condition.comparison _ _ _ = cond at h'
    cases h' with
    | comparison => simpa [ClauseTree.tokens] using ht
    | @nullTest _ _ _ n =>
      simp only [Condition.comparison.injEq] at hc
      obtain ⟨-, rfl, -⟩ := hc
      -- no operator is written as a test for null
      cases n <;> simp [operatorTexts] at ho
    | membership => cases hc
  | @nullTest c is null n =>
    generalize hc : Condition.comparison _ _ _ = cond at h'
    cases h' with
    | comparison _ _ ho =>
      simp only [Condition.comparison.injEq] at hc
      obtain ⟨-, rfl, -⟩ := hc
      cases n <;> simp [operatorTexts] at ho
    | @nullTest c' is' null' n' =>
      cases n <;> cases n' <;> simp_all [ClauseTree.tokens]
    | membership => cases hc
  | @membership c i p v e n more =>
    generalize hc : Condition.membership _ _ _ = cond at h'
    cases h' with
    | comparison => cases hc
    | nullTest => cases hc
    | @membership c' i' p' v' e' n' more' =>
      simp only [Condition.membership.injEq] at hc
      cases n <;> cases n' <;> simp [ClauseTree.tokens] at hc ht
      · obtain ⟨rfl, rfl, rfl, rfl, hp, rfl⟩ := ht
        rw [pairTokens_injective hp]
      · obtain ⟨rfl, rfl, rfl, rfl, rfl, hp, rfl⟩ := ht
        rw [pairTokens_injective hp]

theorem ClauseTree.Means.unique {c c' : ClauseTree} {cond cond' : Condition} {rest rest' : List Token}
    (h : c.Means templates cond) (h' : c'.Means templates cond') (hr : NoCall rest) (hr' : NoCall rest')
    (he : c.tokens ++ rest = c'.tokens ++ rest') : c = c' ∧ rest = rest' := by
  -- the reader is a function, so the two trees leave the same rest and mean the same condition
  have hc := clause_of_means h hr
  rw [he, clause_of_means h' hr'] at hc
  simp only [Except.ok.injEq, Prod.mk.injEq] at hc
  obtain ⟨rfl, rfl⟩ := hc
  exact ⟨h.eq_of_tokens h' (List.append_cancel_right he), rfl⟩

theorem MoreMeans.unique {more more' : List (Token × ClauseTree)} {cs cs' : List Condition}
    (h : MoreMeans templates more cs) (h' : MoreMeans templates more' cs') (he : moreTokens more = moreTokens more') :
    more = more' := by
  induction h generalizing more' cs' with
  | nil =>
    cases h' with
    | nil => rfl
    | cons => simp [moreTokens] at he
  | cons hq hm ih =>
    cases h' with
    | nil => simp [moreTokens] at he
    | cons hq' hm' =>
      simp only [moreTokens, List.flatMap_cons, List.cons_append, List.cons.injEq] at he
      obtain ⟨hc, hr⟩ := hq.2.unique hq'.2 (MoreMeans.noCall hm) (MoreMeans.noCall hm') he.2
      rw [Prod.ext he.1 hc, ih hm' hr]

/-- Two trees of the same tokens that mean something are one tree and mean the same. -/
theorem Tree.Means.unique {d d' : Tree} {p p' : Predicate} (h : d.Means templates p) (h' : d'.Means templates p')
    (he : d.tokens = d'.tokens) : d = d' ∧ p = p' := by
  have hp := ofTokens_of_means h
  rw [he, ofTokens_of_means h', Except.ok.injEq] at hp
  subst hp
  refine ⟨?_, rfl⟩
  obtain ⟨ht, c, cs, -, hf, hm⟩ := h
  obtain ⟨ht', c', cs', -, hf', hm'⟩ := h'
  obtain ⟨exist, first, more⟩ := d
  obtain ⟨exist', first', more'⟩ := d'
  -- both predicates name a table, or neither does
  have hc : exist = exist' ∧ first.tokens ++ moreTokens more = first'.tokens ++ moreTokens more' := by
    rcases exist with _ | ⟨e, t, w⟩ <;> rcases exist' with _ | ⟨e', t', w'⟩ <;> simp_all [Tree.tokens, TableOf]
  simp only at hf hm hf' hm'
  obtain ⟨rfl, hr⟩ := hf.unique hf' hm.noCall hm'.noCall hc.2
  rw [hc.1, hm.unique hm' hr]

end

end Workflow.Predicate
