import Workflow.Proofs.Predicate.Rendering

/-!
# Cutting rendered clauses

A rendered clause is cut into the tokens of its conditions, with an `AND` between two of them. An infinite number is
the exception: as a positive one it is a word, and as a negative one no token at all.
-/

namespace Workflow

/-- What the text of a scalar is read back as. A date and bytes stand between quotes; what is no finite number is a word,
or cannot be read at all. -/
def Scalar.reread : Scalar → Scalar
  | float (.finite negative m e) => float (Predicate.readFloat (Binary64.finite negative m e).text.toList)
  | float (.infinite false) => text "inf"
  | float .nan => text "nan"
  | date d => text (date d).plainText
  | dateTime t => text (dateTime t).plainText
  | bytes bs => text (bytes bs).plainText
  | s => s

def negativeInfinity : Scalar := .float (.infinite true)

def BoundCondition.reread : BoundCondition → BoundCondition
  | comparison c op s => comparison c op s.reread
  | membership c negated ss => membership c negated (ss.map Scalar.reread)

namespace Predicate

section
variable {P : Except Stop (List Token) → Prop} {cs : List Char}

/-! ## Scalars -/

theorem Cuts.keyword {s : String} {k : Keyword} (hn : IsName s.toList)
    (hl : keywords.lookup (String.ofList (s.toList.map Char.toUpper)) = some k) (he : Ended cs)
    (h : Cuts cs fun r => ∀ t : Token, t.keyword? = some k → P (r.map (t :: ·))) : Cuts (s.toList ++ cs) P := by
  refine .word hn he (h.mono fun r hr t hk hc => hr t ?_)
  rw [Token.keyword?, if_pos hk, hc, hl]

theorem Cuts.quotedText {text : String} (he : Ended cs)
    (h : Cuts cs fun r => ∀ t, ValueOf false t (.literal (.text text)) → P (r.map (t :: ·))) :
    Cuts ((sqlText text).toList ++ cs) P := by
  have hq : (sqlText text).toList = quoteText text.toList := by simp [sqlText, quoteText]
  rw [hq]
  refine .quoted he (h.mono fun r hr t hk hc => hr t ?_)
  have hv : ValueOf false t (.literal (.text (String.ofList text.toList))) := .quoted hk hc (by simp)
  rwa [String.ofList_toList] at hv

theorem Cuts.bareText (text : String) (hn : IsName text.toList)
    (hk : keywords.lookup (String.ofList (text.toList.map Char.toUpper)) = none) (ht : '.' ∉ text.toList)
    (he : Ended cs) (h : Cuts cs fun r => ∀ t, ValueOf false t (.literal (.text text)) → P (r.map (t :: ·))) :
    Cuts (text.toList ++ cs) P := by
  refine .word hn he (h.mono fun r hr t hw hc => hr t ?_)
  have hno : t.keyword? = none := by rw [Token.keyword?, if_pos hw, hc, hk]
  have hv : ValueOf false t (.literal (.text t.text)) := .word hw hno (by rwa [hc])
  rwa [Token.text, hc, String.ofList_toList] at hv

theorem Cuts.float {x : Binary64} (he : Ended cs) (hi : Scalar.float x = negativeInfinity → ∀ e, P (.error e))
    (h : Cuts cs fun r => ∀ t, Scalar.float x ≠ negativeInfinity → ValueOf false t (.literal (Scalar.float x).reread) →
      P (r.map (t :: ·))) :
    Cuts (x.text.toList ++ cs) P := by
  cases x with
  | finite negative m e =>
    obtain ⟨n, hn, hf, -, ht, -⟩ := Binary64.finiteText_form negative m e
    rw [ht]
    refine .number hn he (h.mono fun r hr t hk hc => hr t (by simp [negativeInfinity]) ?_)
    rw [Scalar.reread, ht, ← hc]
    exact .number hk (if_pos (hc ▸ isFloatText_text hf))
  | infinite negative =>
    cases negative with
    | true =>
      -- `-inf`: a sign with no digit behind it
      exact .stop (c := '-') (by decide) (scanToken?_minus (c := 'i') (by decide) _) (hi rfl)
    | false =>
      exact .bareText "inf" (by decide) (by decide) (by decide) he
        (h.mono fun r hr t => hr t (by simp [negativeInfinity]))
  | nan =>
    exact .bareText "nan" (by decide) (by decide) (by decide) he
      (h.mono fun r hr t => hr t (by simp [negativeInfinity]))

theorem Cuts.scalar {s : Scalar} (hw : s.isWritable = true) (he : Ended cs) (hi : s = negativeInfinity → ∀ e, P (.error e))
    (h : Cuts cs fun r => ∀ t, s ≠ negativeInfinity → ValueOf false t (.literal s.reread) → P (r.map (t :: ·))) :
    Cuts (s.literalText.toList ++ cs) P := by
  cases s with
  | null =>
    exact .keyword (k := .null) (s := "NULL") (by decide) (by decide) he
      (h.mono fun r hr t hk => hr t (by simp [negativeInfinity]) (.null hk))
  | bool b =>
    cases b with
    | true =>
      exact .keyword (k := .true) (s := "TRUE") (by decide) (by decide) he
        (h.mono fun r hr t hk => hr t (by simp [negativeInfinity]) (.true hk))
    | false =>
      exact .keyword (k := .false) (s := "FALSE") (by decide) (by decide) he
        (h.mono fun r hr t hk => hr t (by simp [negativeInfinity]) (.false hk))
  | int n =>
    rw [Scalar.literalText, toString_toList]
    refine .number (integerNumeral_wellFormed n) he (h.mono fun r hr t hk hc => hr t (by simp [negativeInfinity]) ?_)
    exact .number hk (hc ▸ readNumber_integer hw)
  | float x => exact .float he hi h
  | text s => exact .quotedText he (h.mono fun r hr t => hr t (by simp [negativeInfinity]))
  | date d => exact .quotedText he (h.mono fun r hr t => hr t (by simp [negativeInfinity]))
  | dateTime d => exact .quotedText he (h.mono fun r hr t => hr t (by simp [negativeInfinity]))
  | bytes bs => exact .quotedText he (h.mono fun r hr t => hr t (by simp [negativeInfinity]))

/-! ## Lists of scalars -/

theorem Ended.cons {c : Char} (hc : c ∈ [' ', ',', ')']) (cs : List Char) : Ended (c :: cs) := by
  intro d hd
  cases hd
  exact hc

theorem Cuts.scalars {s : Scalar} {ss : List Scalar} (hw : ∀ x ∈ s :: ss, x.isWritable = true) (he : Ended cs)
    (hi : negativeInfinity ∈ s :: ss → ∀ e, P (.error e))
    (h : Cuts cs fun r => ∀ (v : Token) (more : List (Token × Token)), negativeInfinity ∉ s :: ss →
      ValueOf false v (.literal s.reread) →
      List.Forall₂ (fun q o => q.1.kind = .comma ∧ ValueOf false q.2 o) more (ss.map fun s => .literal s.reread) →
      P (r.map (v :: pairTokens more ++ ·))) :
    Cuts ((joinWith ", " ((s :: ss).map Scalar.literalText)).toList ++ cs) P := by
  induction ss generalizing s P with
  | nil =>
    rw [List.map_cons, List.map_nil, joinWith_singleton]
    refine .scalar (hw s (by simp)) he (fun hs => hi (by simp [hs])) (h.mono fun r hr t hn ht => ?_)
    exact hr t [] (by simpa using Ne.symm hn) ht .nil
  | cons s' ss ih =>
    rw [List.map_cons, List.map_cons, joinWith_cons_cons, List.append_assoc, List.append_assoc]
    -- the property to be carried on is that of the tokens with this scalar and its comma in front
    change Cuts (s.literalText.toList ++ ',' :: ' ' :: _) P
    refine .scalar (hw s (by simp)) (.cons (by simp) _) (fun hs => hi (by simp [hs])) (.comma (.space ?_))
    refine ih (fun x hx => hw x (List.mem_cons_of_mem _ hx)) (fun hm e _ _ _ _ _ => hi (List.mem_cons_of_mem _ hm) e) (h.mono ?_)
    intro r hr v more hn hv hm comma hk t hne ht
    have := hr t ((comma, v) :: more) (by simp_all [Ne.symm hne]) ht (.cons ⟨hk, hv⟩ hm)
    cases r with
    | error e => exact this
    | ok ts => exact this

/-! ## Conditions -/

/-- The tokens of a rendered condition. A column whose name is a keyword gives tokens that are no clause. -/
inductive Written (b : BoundCondition) (ts : List Token) : Prop
  | means {c : ClauseTree} : ¬ IsKeyword b.column → c.tokens = ts → c.Means false b.reread.condition → Written b ts
  | keyword {t u : Token} {us : List Token} : IsKeyword b.column → ts = t :: u :: us → t.keyword? ≠ none → ¬ IsTable u →
      Written b ts

theorem columnOf_word {t : Token} {c : String} (hn : IsName c.toList) (hk : t.kind = .word) (hc : t.chars = c.toList)
    (hw : ¬ IsKeyword c) : ColumnOf t ⟨none, c⟩ := by
  have := ColumnOf.plain hk ((keyword_iff hk hc).mpr hw) (hc ▸ hn.no_dot)
  rwa [Token.text, hc, String.ofList_toList] at this

theorem not_isTable_of_keyword {t : Token} {k : Keyword} (h : t.keyword? = some k) : ¬ IsTable t := by
  rintro ⟨-, hw, -⟩
  rw [h] at hw
  cases hw

theorem not_isTable_of_kind {t : Token} {k : TokenKind} (h : t.kind = k) (hk : k ≠ .word) : ¬ IsTable t :=
  fun ht => hk (h ▸ ht.1)

theorem written_nullTest {c : String} {t is null : Token} {n : Option Token} (hn : IsName c.toList) (hk : t.kind = .word)
    (hc : t.chars = c.toList) (his : is.keyword? = some .is) (hneg : ∀ t ∈ n, t.keyword? = some .not)
    (hnull : null.keyword? = some .null) :
    Written (.comparison c (if n.isSome then .notNull else .isNull) .null) (t :: is :: (n.toList ++ [null])) := by
  by_cases hw : IsKeyword c
  · exact .keyword hw rfl (fun hno => (keyword_iff hk hc).mp hno hw) (not_isTable_of_keyword his)
  · exact .means (c := .nullTest t is n null) hw rfl (.nullTest (columnOf_word hn hk hc hw) his hneg hnull)

theorem Cuts.nullTest {c : String} {op : Operator} (hn : IsName c.toList) (ho : op = .isNull ∨ op = .notNull) (he : Ended cs)
    (h : Cuts cs fun r => ∀ ts, Written (.comparison c op .null) ts → P (r.map (ts ++ ·))) :
    Cuts ((BoundCondition.comparison c op .null).text.toList ++ cs) P := by
  rcases ho with rfl | rfl
  · have hr : (BoundCondition.comparison c .isNull .null).text.toList ++ cs =
        c.toList ++ ' ' :: ("IS".toList ++ ' ' :: ("NULL".toList ++ cs)) := by
      simp [BoundCondition.text]
    rw [hr]
    refine .word hn (.cons (by simp) _) (.space (.keyword (k := .is) (by decide) (by decide) (.cons (by simp) _)
      (.space (.keyword (k := .null) (by decide) (by decide) he (h.mono ?_)))))
    intro r hr null hnull is his t hk hc
    have := hr _ (written_nullTest (n := none) hn hk hc his (by simp) hnull)
    cases r <;> exact this
  · have hr : (BoundCondition.comparison c .notNull .null).text.toList ++ cs =
        c.toList ++ ' ' :: ("IS".toList ++ ' ' :: ("NOT".toList ++ ' ' :: ("NULL".toList ++ cs))) := by
      simp [BoundCondition.text]
    rw [hr]
    refine .word hn (.cons (by simp) _) (.space (.keyword (k := .is) (by decide) (by decide) (.cons (by simp) _)
      (.space (.keyword (k := .not) (by decide) (by decide) (.cons (by simp) _)
        (.space (.keyword (k := .null) (by decide) (by decide) he (h.mono ?_)))))))
    intro r hr null hnull neg hneg is his t hk hc
    have := hr _ (written_nullTest (n := some neg) hn hk hc his (by simpa using hneg) hnull)
    cases r <;> exact this

theorem Cuts.comparison {c : String} {op : Operator} {s : Scalar} (hn : IsName c.toList) (ho : op ≠ .isNull ∧ op ≠ .notNull)
    (hw : s.isWritable = true) (he : Ended cs) (hi : s = negativeInfinity → ∀ e, P (.error e))
    (h : Cuts cs fun r => ∀ ts, s ≠ negativeInfinity → Written (.comparison c op s) ts → P (r.map (ts ++ ·))) :
    Cuts ((BoundCondition.comparison c op s).text.toList ++ cs) P := by
  have hr : (BoundCondition.comparison c op s).text.toList ++ cs =
      c.toList ++ ' ' :: (op.text.toList ++ ' ' :: (s.literalText.toList ++ cs)) := by
    cases op with
    | isNull => exact absurd rfl ho.1
    | notNull => exact absurd rfl ho.2
    | _ => simp [BoundCondition.text]
  rw [hr]
  refine .word hn (.cons (by simp) _) (.space (.operator ho (.space
    (.scalar hw he (fun hs e _ _ _ _ _ _ => hi hs e) (h.mono ?_)))))
  intro r hr v hne hv op' hko hco t hk hc
  have hw : Written (.comparison c op s) [t, op', v] := by
    by_cases hw : IsKeyword c
    · exact .keyword hw rfl (fun hno => (keyword_iff hk hc).mp hno hw) (not_isTable_of_kind hko (by decide))
    · exact .means (c := .comparison t op' v) hw rfl (.comparison (columnOf_word hn hk hc hw) hko hco hv)
  have := hr _ hne hw
  cases r <;> exact this

structure ListTokens (s : Scalar) (ss : List Scalar) (within opening first : Token) (more : List (Token × Token))
    (closing : Token) : Prop where
  within : within.keyword? = some .in
  opening : opening.kind = .leftParen
  first : ValueOf false first (.literal s.reread)
  more : List.Forall₂ (fun q o => q.1.kind = .comma ∧ ValueOf false q.2 o) more (ss.map fun s => .literal s.reread)
  closing : closing.kind = .rightParen

theorem Cuts.within {s : Scalar} {ss : List Scalar} (hw : ∀ x ∈ s :: ss, x.isWritable = true)
    (hi : negativeInfinity ∈ s :: ss → ∀ e, P (.error e))
    (h : Cuts cs fun r => ∀ (within opening v : Token) (more : List (Token × Token)) (closing : Token),
      negativeInfinity ∉ s :: ss → ListTokens s ss within opening v more closing →
      P (r.map (within :: opening :: v :: (pairTokens more ++ [closing]) ++ ·))) :
    Cuts ("IN".toList ++ ' ' :: '(' :: ((joinWith ", " ((s :: ss).map Scalar.literalText)).toList ++ ')' :: cs)) P := by
  refine .keyword (k := .in) (by decide) (by decide) (.cons (by simp) _) (.space (.leftParen
    (.scalars hw (.cons (by simp) _) (fun hs e _ _ _ _ => hi hs e) (.rightParen (h.mono ?_)))))
  intro r hr closing hclose v more hne hv hm opening hopen within hin
  have := hr within opening v more closing hne ⟨hin, hopen, hv, hm, hclose⟩
  cases r with
  | error e => exact this
  | ok ts => simpa [Except.map] using this

theorem written_membership {c : String} {s : Scalar} {ss : List Scalar} {t within opening v closing : Token} {n : Option Token}
    {more : List (Token × Token)} (hn : IsName c.toList) (hk : t.kind = .word) (hc : t.chars = c.toList)
    (hneg : ∀ t ∈ n, t.keyword? = some .not) (hl : ListTokens s ss within opening v more closing) :
    Written (.membership c n.isSome (s :: ss))
      (t :: (n.toList ++ within :: opening :: v :: (pairTokens more ++ [closing]))) := by
  by_cases hw : IsKeyword c
  · have hno : t.keyword? ≠ none := fun hno => (keyword_iff hk hc).mp hno hw
    cases n with
    | none => exact .keyword hw rfl hno (not_isTable_of_keyword hl.within)
    | some neg => exact .keyword hw rfl hno (not_isTable_of_keyword (hneg neg rfl))
  · refine .means (c := .membership t n within opening v more closing) hw rfl ?_
    have := ClauseTree.Means.membership (columnOf_word hn hk hc hw) hneg hl.within hl.opening hl.first hl.more hl.closing
    simpa [BoundCondition.reread, BoundCondition.condition, Function.comp_def] using this

theorem Cuts.membership {c : String} {negated : Bool} {ss : List Scalar} (hn : IsName c.toList) (hne : ss ≠ [])
    (hw : ∀ s ∈ ss, s.isWritable = true) (hi : negativeInfinity ∈ ss → ∀ e, P (.error e))
    (h : Cuts cs fun r => ∀ ts, negativeInfinity ∉ ss → Written (.membership c negated ss) ts → P (r.map (ts ++ ·))) :
    Cuts ((BoundCondition.membership c negated ss).text.toList ++ cs) P := by
  obtain ⟨s, ss, rfl⟩ := List.exists_cons_of_ne_nil hne
  cases negated with
  | false =>
    have hr : (BoundCondition.membership c false (s :: ss)).text.toList ++ cs =
        c.toList ++ ' ' :: ("IN".toList ++ ' ' :: '(' :: ((joinWith ", " ((s :: ss).map Scalar.literalText)).toList ++ ')' :: cs)) := by
      simp [BoundCondition.text]
    rw [hr]
    refine .word hn (.cons (by simp) _) (.space (.within hw (fun hs e _ _ _ => hi hs e) (h.mono ?_)))
    intro r hr within opening v more closing hne hl t hk hc
    have := hr _ hne (written_membership (n := none) hn hk hc (by simp) hl)
    cases r <;> exact this
  | true =>
    have hr : (BoundCondition.membership c true (s :: ss)).text.toList ++ cs =
        c.toList ++ ' ' :: ("NOT".toList ++ ' ' ::
          ("IN".toList ++ ' ' :: '(' :: ((joinWith ", " ((s :: ss).map Scalar.literalText)).toList ++ ')' :: cs))) := by
      simp [BoundCondition.text]
    rw [hr]
    refine .word hn (.cons (by simp) _) (.space (.keyword (k := .not) (by decide) (by decide) (.cons (by simp) _)
      (.space (.within hw (fun hs e _ _ _ _ _ => hi hs e) (h.mono ?_)))))
    intro r hr within opening v more closing hne hl neg hneg t hk hc
    have := hr _ hne (written_membership (n := some neg) hn hk hc (by simpa using hneg) hl)
    cases r <;> exact this

theorem Cuts.condition {b : BoundCondition} (hb : b.Regular) (hw : ∀ s ∈ b.values, s.isWritable = true) (he : Ended cs)
    (hi : negativeInfinity ∈ b.values → ∀ e, P (.error e))
    (h : Cuts cs fun r => ∀ ts, negativeInfinity ∉ b.values → Written b ts → P (r.map (ts ++ ·))) :
    Cuts (b.text.toList ++ cs) P := by
  cases hb with
  | nullTest hn ho =>
    exact .nullTest hn ho he (h.mono fun r hr ts => hr ts (by simp [BoundCondition.values, negativeInfinity]))
  | @comparison _ _ s hn ho _ =>
    refine .comparison hn ho (hw s (by simp [BoundCondition.values])) he (fun hs => hi (by simp [BoundCondition.values, hs])) (h.mono fun r hr ts hne => hr ts ?_)
    simpa [BoundCondition.values] using Ne.symm hne
  | membership hn hne => exact .membership hn hne hw hi h

/-! ## Clauses -/

inductive WrittenAll : List BoundCondition → List Token → Prop
  | one {b : BoundCondition} {ts : List Token} : Written b ts → WrittenAll [b] ts
  | more {b : BoundCondition} {bs : List BoundCondition} {ts us : List Token} {t : Token} : Written b ts →
      t.keyword? = some .and → WrittenAll bs us → WrittenAll (b :: bs) (ts ++ t :: us)

theorem Cuts.conditions {b : BoundCondition} {bs : List BoundCondition} (hb : ∀ x ∈ b :: bs, x.Regular)
    (hw : ∀ x ∈ b :: bs, ∀ s ∈ x.values, s.isWritable = true)
    (hi : (∃ x ∈ b :: bs, negativeInfinity ∈ x.values) → ∀ e, P (.error e))
    (h : ∀ ts, (∀ x ∈ b :: bs, negativeInfinity ∉ x.values) → WrittenAll (b :: bs) ts → P (.ok ts)) :
    Cuts (clauseText (b :: bs)).toList P := by
  unfold clauseText
  induction bs generalizing b P with
  | nil =>
    rw [List.map_cons, List.map_nil, joinWith_singleton, ← List.append_nil b.text.toList]
    refine .condition (hb b (by simp)) (hw b (by simp)) (by simp [Ended]) (fun hm => hi ⟨b, by simp, hm⟩) (.nil ?_)
    intro ts hne hw
    simpa [Except.map] using h ts (by simpa using hne) (.one hw)
  | cons b' bs ih =>
    rw [List.map_cons, List.map_cons, joinWith_cons_cons, List.append_assoc]
    change Cuts (b.text.toList ++ ' ' :: ("AND".toList ++ ' ' :: _)) P
    refine .condition (hb b (by simp)) (hw b (by simp)) (.cons (by simp) _) (fun hm => hi ⟨b, by simp, hm⟩)
      (.space (.keyword (k := .and) (by decide) (by decide) (.cons (by simp) _) (.space ?_)))
    refine ih (fun x hx => hb x (by simp [hx])) (fun x hx => hw x (by simp [hx])) ?_ ?_
    · rintro ⟨x, hx, hm⟩ e _ _ _ _ _
      exact hi ⟨x, by simp [hx], hm⟩ e
    · intro us hne hus t hk ts hne' hts
      exact h (ts ++ t :: us) (List.forall_mem_cons.mpr ⟨hne', hne⟩) (.more hts hk hus)

end

/-- A rendered clause is cut into the tokens of its conditions, or holds a negative infinity and cannot be cut. -/
theorem tokens_renderClause {b : BoundCondition} {bs : List BoundCondition} (hb : ∀ x ∈ b :: bs, x.Regular) {text : String}
    (hr : renderClause (b :: bs) = .ok text) :
    ((∃ x ∈ b :: bs, negativeInfinity ∈ x.values) ∧ ∃ e, tokens text.toList = .error e) ∨
      (∀ x ∈ b :: bs, negativeInfinity ∉ x.values) ∧ ∃ ts, tokens text.toList = .ok ts ∧ WrittenAll (b :: bs) ts := by
  obtain ⟨hw, rfl⟩ := (renderClause_eq_ok hb).mp hr
  have hc : Cuts (clauseText (b :: bs)).toList fun r =>
      ((∃ x ∈ b :: bs, negativeInfinity ∈ x.values) ∧ ∃ e, r = .error e) ∨
        (∀ x ∈ b :: bs, negativeInfinity ∉ x.values) ∧ ∃ ts, r = .ok ts ∧ WrittenAll (b :: bs) ts :=
    .conditions hb hw (fun hx e => .inl ⟨hx, e, rfl⟩) fun ts hne hts => .inr ⟨hne, ts, rfl, hts⟩
  exact hc _ 0 (Nat.le_refl _)

end Predicate

end Workflow
