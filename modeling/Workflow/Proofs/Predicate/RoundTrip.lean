import Workflow.Proofs.Predicate.Clause

/-!
# Rendered clauses read back

A clause that was rendered is read back as the conditions it was rendered from, exactly if no column has the name of a
keyword and no operand is infinite. The predicates of manifests whose columns are unqualified meet the first condition
by themselves, because no column of theirs is a keyword; their conditions are rendered where every integer can be written.
-/

namespace Workflow

namespace Predicate

/-! ## Reading the tokens of a clause -/

theorem WrittenAll.head {bs : List BoundCondition} {ts : List Token} (h : WrittenAll bs ts) :
    ∃ b ∈ bs, ∃ us rest, Written b us ∧ ts = us ++ rest := by
  cases h with
  | @one b _ hw => exact ⟨b, by simp, ts, [], hw, by simp⟩
  | @more b _ us vs t hw _ _ => exact ⟨b, by simp, us, t :: vs, hw, rfl⟩

theorem WrittenAll.means {bs : List BoundCondition} {ts : List Token} (h : WrittenAll bs ts)
    (hk : ∀ b ∈ bs, ¬ IsKeyword b.column) :
    ∃ (first : ClauseTree) (more : List (Token × ClauseTree)) (c : Condition) (cs : List Condition),
      ts = first.tokens ++ moreTokens more ∧ bs.map (fun b => b.reread.condition) = c :: cs ∧ first.Means false c ∧
        MoreMeans false more cs := by
  induction h with
  | @one b ts hw =>
    cases hw with
    | @means c _ ht hc => exact ⟨c, [], _, [], by simp [moreTokens, ht], rfl, hc, .nil⟩
    | keyword hw => exact absurd hw (hk b (by simp))
  | @more b bs ts us t hw ht _ ih =>
    obtain ⟨first, more, c, cs, rfl, hbs, hf, hm⟩ := ih fun x hx => hk x (by simp [hx])
    cases hw with
    | @means c' _ ht' hc' =>
      refine ⟨c', (t, first) :: more, _, c :: cs, ?_, by rw [List.map_cons, hbs], hc', .cons ⟨ht, hf⟩ hm⟩
      simp [moreTokens, ht']
    | keyword hw => exact absurd hw (hk b (by simp))

theorem Written.no_keyword {b : BoundCondition} {us rest vs : List Token} {c : ClauseTree} {cond : Condition}
    (h : Written b us) (hc : c.Means false cond) (he : us ++ rest = c.tokens ++ vs) : ¬ IsKeyword b.column := by
  cases h with
  | means hk _ _ => exact hk
  | keyword _ hu hw _ =>
    obtain ⟨t, ts, ht, hcol⟩ := hc.head
    simp only [hu, ht, List.cons_append, List.cons.injEq] at he
    rw [he.1, hcol.no_keyword] at hw
    exact absurd rfl hw

theorem WrittenAll.no_keyword {bs : List BoundCondition} {ts : List Token} (h : WrittenAll bs ts) {first : ClauseTree}
    {more : List (Token × ClauseTree)} {c : Condition} {cs : List Condition} (he : ts = first.tokens ++ moreTokens more)
    (hf : first.Means false c) (hm : MoreMeans false more cs) : ∀ b ∈ bs, ¬ IsKeyword b.column := by
  induction h generalizing first more c cs with
  | @one b ts hw =>
    have he' : ts ++ [] = first.tokens ++ moreTokens more := by rw [List.append_nil, he]
    simpa using hw.no_keyword hf he'
  | @more b bs ts us t hw ht _ ih =>
    refine List.forall_mem_cons.mpr ⟨hw.no_keyword hf he, ?_⟩
    cases hw with
    | @means c' _ hc' hm' =>
      -- the first clause of the tree is the one that was written, so its rest is the rest
      have hr : NoCall (t :: us) := .cons (by simp [kind_of_keyword ht])
      rw [← hc'] at he
      obtain ⟨-, hu⟩ := hm'.unique hf hr hm.noCall he
      cases hm with
      | nil => simp [moreTokens] at hu
      | cons hq hm =>
        simp only [moreTokens, List.flatMap_cons, List.cons_append, List.cons.injEq] at hu
        exact ih hu.2 hq.2 hm
    | keyword hk hu hw' _ => exact absurd hk (Written.no_keyword (.keyword hk hu hw' ‹_›) hf he)

theorem no_keyword_of_ofTokens {bs : List BoundCondition} {ts : List Token} {p : Predicate} (h : WrittenAll bs ts)
    (hs : ∀ t ∈ ts, t.Shaped) (hp : ofTokens false ts = .ok p) : ∀ b ∈ bs, ¬ IsKeyword b.column := by
  obtain ⟨d, hd, hm⟩ := means_of_ofTokens hs hp
  obtain ⟨ht, c, cs, -, hf, hm⟩ := hm
  obtain ⟨exist, first, more⟩ := d
  cases exist with
  | none =>
    have he : ts = first.tokens ++ moreTokens more := hd.symm
    exact h.no_keyword he hf hm
  | some x =>
    -- the tokens of a clause do not start as an `EXISTS` clause does
    obtain ⟨e, table, w⟩ := x
    obtain ⟨he, htable, -, -⟩ := ht
    obtain ⟨b, -, us, rest, hw, hts⟩ := h.head
    rw [hts, Tree.tokens] at hd
    cases hw with
    | means _ hc hcm =>
      obtain ⟨t, vs, ht, hcol⟩ := hcm.head
      simp only [← hc, ht, List.cons_append, List.cons.injEq] at hd
      rw [hd.1, hcol.no_keyword] at he
      cases he
    | keyword _ hu _ hno =>
      simp only [hu, List.cons_append, List.cons.injEq] at hd
      exact absurd (hd.2.1 ▸ htable) hno

/-! ## Reading a clause -/

section
variable {bs : List BoundCondition} {text : String}

theorem reread_ne_null {s : Scalar} (h : s ≠ .null) : s.reread ≠ .null := by
  cases s with
  | null => exact absurd rfl h
  | float x =>
    cases x with
    | finite negative m e => simp [Scalar.reread]
    | infinite negative => cases negative <;> simp [Scalar.reread]
    | nan => simp [Scalar.reread]
  | _ => simp [Scalar.reread]

theorem BoundCondition.Regular.reread {b : BoundCondition} (h : b.Regular) : b.reread.Regular := by
  cases h with
  | nullTest hn ho => exact .nullTest hn ho
  | comparison hn ho hs => exact .comparison hn ho (reread_ne_null hs)
  | membership hn hne => exact .membership hn (by simpa using hne)

theorem parseClause_renderClause (hne : bs ≠ []) (hb : ∀ b ∈ bs, b.Regular) (hk : ∀ b ∈ bs, ¬ IsKeyword b.column)
    (hi : ∀ b ∈ bs, negativeInfinity ∉ b.values) (hr : renderClause bs = .ok text) :
    parseClause text = .ok ⟨none, bs.map fun b => b.reread.condition⟩ := by
  obtain ⟨b, bs, rfl⟩ := List.exists_cons_of_ne_nil hne
  rcases tokens_renderClause hb hr with ⟨⟨x, hx, hm⟩, -⟩ | ⟨-, ts, ht, hw⟩
  · exact absurd hm (hi x hx)
  · obtain ⟨first, more, c, cs, rfl, hbs, hf, hm⟩ := hw.means hk
    refine parseWith_eq_ok.mpr ⟨_, ht, ?_⟩
    exact ofTokens_of_means (d := ⟨none, first, more⟩) ⟨rfl, c, cs, hbs, hf, hm⟩

theorem readClause_renderClause (hne : bs ≠ []) (hb : ∀ b ∈ bs, b.Regular) (hk : ∀ b ∈ bs, ¬ IsKeyword b.column)
    (hi : ∀ b ∈ bs, negativeInfinity ∉ b.values) (hr : renderClause bs = .ok text) :
    readClause text = .ok (bs.map BoundCondition.reread) := by
  rw [readClause, parseClause_renderClause hne hb hk hi hr, ok_bind, Predicate.bind, mapM_eq_ok, List.forall₂_map_left_iff,
    List.forall₂_map_right_iff, List.forall₂_same]
  exact fun b hm => bind_condition (BoundCondition.Regular.reread (hb b hm))

theorem no_keyword_of_readClause (hne : bs ≠ []) (hb : ∀ b ∈ bs, b.Regular) (hr : renderClause bs = .ok text)
    {cs : List BoundCondition} (h : readClause text = .ok cs) :
    (∀ b ∈ bs, ¬ IsKeyword b.column) ∧ ∀ b ∈ bs, negativeInfinity ∉ b.values := by
  obtain ⟨b, bs, rfl⟩ := List.exists_cons_of_ne_nil hne
  obtain ⟨p, hp, -⟩ := bind_eq_ok.mp h
  obtain ⟨ts, ht, ho⟩ := parseWith_eq_ok.mp hp
  rcases tokens_renderClause hb hr with ⟨-, e, he⟩ | ⟨hi, us, hu, hw⟩
  · rw [he] at ht
    cases ht
  · rw [hu, Except.ok.injEq] at ht
    subst ht
    exact ⟨no_keyword_of_ofTokens hw (tokens_shaped hu) ho, hi⟩

theorem reread_eq_self {s : Scalar} (hp : s.Plain) (h : s ≠ negativeInfinity) : s.reread = s ↔ ¬ s.IsInfinite := by
  constructor
  · rintro hs ⟨negative, rfl⟩
    cases negative with
    | true => exact h rfl
    | false => cases hs
  · intro hs
    cases s with
    | float x =>
      cases x with
      | finite negative m e =>
        rw [Scalar.reread, readFloat_text (x := .finite negative m e) rfl hp.1]
      | infinite negative => exact absurd ⟨negative, rfl⟩ hs
      | nan => exact absurd rfl hp.2
    | date d => exact absurd hp id
    | dateTime t => exact absurd hp id
    | bytes bs => exact absurd hp id
    | _ => rfl

theorem map_eq_self {α : Type} {f : α → α} {l : List α} : l.map f = l ↔ ∀ a ∈ l, f a = a := by
  have := List.map_inj_left (f := f) (g := id) (l := l)
  simpa using this

theorem BoundCondition.reread_eq_self {b : BoundCondition} (hp : ∀ s ∈ b.values, s.Plain) (h : negativeInfinity ∉ b.values) :
    b.reread = b ↔ ∀ s ∈ b.values, ¬ s.IsInfinite := by
  cases b with
  | comparison c op s =>
    have hs : s ≠ negativeInfinity := by simpa [BoundCondition.values, eq_comm] using h
    have hr := Predicate.reread_eq_self (hp s (List.mem_singleton.mpr rfl)) hs
    simp [BoundCondition.reread, BoundCondition.values, hr]
  | membership c negated ss =>
    simp only [BoundCondition.reread, BoundCondition.values, BoundCondition.membership.injEq, true_and, map_eq_self] at h ⊢
    exact forall₂_congr fun s hs => Predicate.reread_eq_self (hp s hs) fun he => h (he ▸ hs)

/-- **A rendered clause is read back as what it was rendered from**, exactly if no column has the name of a keyword and no
operand is infinite. -/
theorem readClause_renderClause_iff (hne : bs ≠ []) (hb : ∀ b ∈ bs, b.Formed) (hr : renderClause bs = .ok text) :
    readClause text = .ok bs ↔ ∀ b ∈ bs, ¬ IsKeyword b.column ∧ ∀ s ∈ b.values, ¬ s.IsInfinite := by
  have hw : ∀ b ∈ bs, b.Regular := fun b hm => (hb b hm).regular
  constructor
  · intro h
    obtain ⟨hk, hi⟩ := no_keyword_of_readClause hne hw hr h
    rw [readClause_renderClause hne hw hk hi hr, Except.ok.injEq, map_eq_self] at h
    exact fun b hm => ⟨hk b hm, (BoundCondition.reread_eq_self (hb b hm).plain (hi b hm)).mp (h b hm)⟩
  · intro h
    have hi : ∀ b ∈ bs, negativeInfinity ∉ b.values := fun b hm hs => (h b hm).2 _ hs ⟨true, rfl⟩
    rw [readClause_renderClause hne hw (fun b hm => (h b hm).1) hi hr, Except.ok.injEq, map_eq_self]
    exact fun b hm => (BoundCondition.reread_eq_self (hb b hm).plain (hi b hm)).mpr (h b hm).2

theorem columns_of_readClause (hne : bs ≠ []) (hb : ∀ b ∈ bs, b.Regular) (hr : renderClause bs = .ok text)
    {cs : List BoundCondition} (h : readClause text = .ok cs) : cs.map BoundCondition.column = bs.map BoundCondition.column := by
  obtain ⟨hk, hi⟩ := no_keyword_of_readClause hne hb hr h
  rw [readClause_renderClause hne hb hk hi hr, Except.ok.injEq] at h
  rw [← h, List.map_map]
  refine List.map_congr_left fun b _ => ?_
  cases b <;> rfl

end

-- an infinite number is written as a word, and a word is read as a text
example : (renderClause [.comparison "a" .eq (.float (.infinite false))]).toOption.map (fun text => (readClause text).toOption) =
    some (some [.comparison "a" .eq (.text "inf")]) := by decide

/-! ## Unqualified columns -/

theorem bind_ne_nil {templates : Bool} {p : Predicate} {context : Members} {expression text : String}
    {bs : List BoundCondition} (hp : parseWith templates text = .ok p) (hb : p.bind context expression = .ok bs) :
    bs ≠ [] := by
  obtain ⟨ts, ht, ho⟩ := parseWith_eq_ok.mp hp
  obtain ⟨d, -, -, c, cs, hc, -, -⟩ := means_of_ofTokens (tokens_shaped ht) ho
  rw [Predicate.bind, mapM_eq_ok, hc, List.forall₂_cons_left_iff] at hb
  obtain ⟨b, bs', -, -, rfl⟩ := hb
  simp

theorem BoundCondition.reread_of_basic {b : BoundCondition} (h : ∀ s ∈ b.values, s.IsBasic) : b.reread = b :=
  (BoundCondition.reread_eq_self (fun s hs => (h s hs).plain) fun hn => (h _ hn).finite ⟨true, rfl⟩).mpr fun s hs => (h s hs).finite

section
variable {expression : String} {context : Members} {p : Predicate} {bs : List BoundCondition}

theorem compileClause_of_bind (hp : parse expression = .ok p) (hb : p.bind context expression = .ok bs) :
    compileClause expression context = (renderClause bs).mapError .breakdown := by
  rw [compileClause, hp, ok_bind, hb, ok_bind]

theorem formed_of_parse (hp : parse expression = .ok p) (hq : ∀ c ∈ p.columns, c.table = none)
    (hb : p.bind context expression = .ok bs) (hv : ∀ b ∈ bs, ∀ s ∈ b.values, s.IsBasic) :
    ∀ b ∈ bs, b.Formed ∧ ¬ IsKeyword b.column := by
  intro b hm
  obtain ⟨c, hc, hcb⟩ := exists_argument hb b hm
  have hs := sound_of_parseWith hp c hc
  refine ⟨hs.formed hcb fun s hs => (hv b hm s hs).plain, ?_⟩
  rw [bind_column hcb]
  exact hs.plain (hq _ (List.mem_map_of_mem hc))

/-- The clause of a predicate with unqualified columns is read as its conditions, with the values for literals. -/
theorem parseClause_of_unqualified (hp : parse expression = .ok p) (hq : ∀ c ∈ p.columns, c.table = none)
    (hb : p.bind context expression = .ok bs) (hv : ∀ b ∈ bs, ∀ s ∈ b.values, s.IsBasic) {text : String}
    (hr : renderClause bs = .ok text) : parseClause text = .ok ⟨none, bs.map BoundCondition.condition⟩ := by
  have hf := formed_of_parse hp hq hb hv
  have hi : ∀ b ∈ bs, negativeInfinity ∉ b.values := fun b hm hn => (hv b hm _ hn).finite ⟨true, rfl⟩
  rw [parseClause_renderClause (bind_ne_nil hp hb) (fun b hm => (hf b hm).1.regular) (fun b hm => (hf b hm).2) hi hr]
  congr 2
  exact List.map_congr_left fun b hm => by rw [BoundCondition.reread_of_basic (hv b hm)]

/-- The clause of a predicate with unqualified columns reads back, whatever its operands are bound to: the clause
names no table, and its literals are the values, so that it is bound to the same conditions in any context. There is a
clause exactly if every integer among the values can be written; else nothing but the rendering breaks down. -/
theorem renderClause_round_trip (hp : parse expression = .ok p) (hq : ∀ c ∈ p.columns, c.table = none)
    (hb : p.bind context expression = .ok bs) (hv : ∀ b ∈ bs, ∀ s ∈ b.values, s.IsBasic) :
    ((∀ b ∈ bs, ∀ s ∈ b.values, s.isWritable = true) ↔ ∃ text p', renderClause bs = .ok text ∧ parseClause text = .ok p' ∧
      p'.table = none ∧ p'.bind [] text = .ok bs) ∧
    ((∃ b ∈ bs, ∃ s ∈ b.values, s.isWritable = false) ↔ renderClause bs = .error .unwritten) := by
  have hf := formed_of_parse hp hq hb hv
  have hregular : ∀ b ∈ bs, b.Regular := fun b hm => (hf b hm).1.regular
  refine ⟨⟨fun hw => ?_, fun ⟨text, _, hr, _⟩ => ((renderClause_eq_ok hregular).mp hr).1⟩, ?_⟩
  · have hr := (renderClause_eq_ok hregular).mpr ⟨hw, rfl⟩
    refine ⟨_, _, hr, parseClause_of_unqualified hp hq hb hv hr, rfl, ?_⟩
    rw [Predicate.bind, mapM_eq_ok, List.forall₂_map_left_iff, List.forall₂_same]
    exact fun b hm => bind_condition (hregular b hm)
  · rw [renderClause_eq_error hregular, and_iff_left rfl]

end

/-- A value that would close its quotes, and a list that stands for its items. -/
def hostileContext : Members := [
  (.text "who", .text "x' OR 1 = 1 --\n\x7b\x7b a \x7d\x7d"), (.text "kinds", .list [.null, .int (-3), .bool true, .text "'"])]

def hostileExpression : String := "owner = \x7b\x7b who \x7d\x7d AND kind NOT IN (:kinds) AND done != NULL"

theorem renderClause_round_trip_hostile : ∃ p bs text p',
    parse hostileExpression = .ok p ∧ (∀ c ∈ p.columns, c.table = none) ∧ p.bind hostileContext hostileExpression = .ok bs ∧
      (∀ b ∈ bs, ∀ s ∈ b.values, s.IsBasic) ∧ bs.length = 3 ∧
      renderClause bs = .ok text ∧ parseClause text = .ok p' ∧ p'.table = none ∧ p'.bind [] text = .ok bs := by
  have hc : (parse hostileExpression).toOption.any (fun p => decide (∀ c ∈ p.columns, c.table = none) &&
      (p.bind hostileContext hostileExpression).toOption.any fun bs =>
        decide ((∀ b ∈ bs, ∀ s ∈ b.values, s.IsBasic) ∧ bs.length = 3 ∧ ∀ b ∈ bs, ∀ s ∈ b.values, s.isWritable = true)) = true := by
    decide +kernel
  obtain ⟨p, hp, hc⟩ := any_toOption.mp hc
  obtain ⟨hq, hc⟩ := (Bool.and_eq_true ..).mp hc
  obtain ⟨bs, hb, hc⟩ := any_toOption.mp hc
  rw [decide_eq_true_eq] at hq hc
  obtain ⟨hv, hl, hw⟩ := hc
  obtain ⟨text, p', h⟩ := (renderClause_round_trip hp hq hb hv).1.mp hw
  exact ⟨p, bs, text, p', hp, hq, hb, hv, hl, h⟩

def plainExpression : String := "a = :x"

def plainPredicate : Predicate := ⟨none, [.comparison ⟨none, "a"⟩ .eq (.param "x")]⟩

theorem parse_plainExpression : parse plainExpression = .ok plainPredicate := by
  rfl

theorem bind_plainPredicate (n : Int) :
    plainPredicate.bind [(.text "x", .int n)] plainExpression = .ok [.comparison "a" .eq (.int n)] := by
  have hx : Members.get? [(.text "x", .int n)] "x" = some (.int n) := rfl
  simp [plainPredicate, Predicate.bind, Condition.bind, Operand.value, hx, scalarOf, operatorFor]

theorem renderClause_unwritable {n : Int} (h : isWritable n = false) {c : String} {text : String} :
    renderClause [.comparison c .eq (.int n)] ≠ .ok text := by
  simp [renderClause, BoundCondition.render, Scalar.sql, integerText, h, Except.map]

/-- A number that is too long for a clause, although it is bound. -/
theorem renderClause_huge : ∃ p bs, parse plainExpression = .ok p ∧ (∀ c ∈ p.columns, c.table = none) ∧
    p.bind [(.text "x", .int hugeNumber)] plainExpression = .ok bs ∧ (∀ b ∈ bs, ∀ s ∈ b.values, s.IsBasic) ∧
    ∀ text, renderClause bs ≠ .ok text := by
  refine ⟨_, _, parse_plainExpression, ?_, bind_plainPredicate hugeNumber, ?_, fun text => renderClause_unwritable hugeNumber_unwritable⟩
  · exact List.forall_mem_singleton.mpr rfl
  · exact List.forall_mem_singleton.mpr (List.forall_mem_singleton.mpr trivial)

end Predicate

end Workflow
