import Workflow.Proofs.Predicate.Clause
import Workflow.Proofs.Predicate.Params
import Workflow.Proofs.Predicate.Recutting

/-!
# Predicates whose columns get a table

A predicate is its tokens, and where they lie does not matter. So what is read when some columns of a predicate are written
with a table before them is the same predicate over these columns.
-/

namespace Workflow.Predicate

/-! ## Tokens that are the same but for where they lie -/

def Same (t u : Token) : Prop := u.kind = t.kind ∧ u.chars = t.chars

section
variable {templates : Bool} {t u : Token}

theorem Same.keyword? (h : Same t u) : u.keyword? = t.keyword? := by rw [Token.keyword?, Token.keyword?, h.1, h.2]

theorem Same.text (h : Same t u) : u.text = t.text := congrArg String.ofList h.2

theorem Same.value {o : Operand} (h : Same t u) (hv : ValueOf templates t o) : ValueOf templates u o := by
  cases hv with
  | quoted hk hc hb => exact .quoted (h.1.trans hk) (h.2.trans hc) hb
  | quotedTemplate ht hk hc hb hm => exact .quotedTemplate ht (h.1.trans hk) (h.2.trans hc) hb hm
  | template ht hk hm => exact .template ht (h.1.trans hk) (h.text ▸ hm)
  | number hk hr => exact .number (h.1.trans hk) (h.2 ▸ hr)
  | param hk hc => exact .param (h.1.trans hk) (h.2.trans hc)
  | true hk => exact .true (h.keyword?.trans hk)
  | false hk => exact .false (h.keyword?.trans hk)
  | null hk => exact .null (h.keyword?.trans hk)
  | word hk hn hd => exact h.text ▸ .word (h.1.trans hk) (h.keyword?.trans hn) (h.2 ▸ hd)

theorem Same.column {c : Column} (h : Same t u) (hc : ColumnOf t c) : ColumnOf u c := by
  cases hc with
  | plain hk hn hd => exact h.text ▸ .plain (h.1.trans hk) (h.keyword?.trans hn) (h.2 ▸ hd)
  | qualified hk hn hc ha hb => exact .qualified (h.1.trans hk) (h.keyword?.trans hn) (h.2.trans hc) ha hb

/-- A token that stands for what another one stands for: the same, or the quoted text of a template. -/
inductive Likewise (t u : Token) : Prop
  | same : Same t u → Likewise t u
  | quoted : t.kind = .template → openBraces <:+: t.chars → u.kind = .string → u.chars = quoteText t.chars → Likewise t u

theorem Likewise.same_of (h : Likewise t u) (hk : t.kind ≠ .template) : Same t u := by
  cases h with
  | same h => exact h
  | quoted ht => exact absurd ht hk

theorem Likewise.kind {k : TokenKind} (h : Likewise t u) (hk : t.kind = k) (hne : k ≠ .template) : u.kind = k :=
  (h.same_of (hk ▸ hne)).1.trans hk

theorem Likewise.keyword {k : Keyword} (h : Likewise t u) (hk : t.keyword? = some k) : u.keyword? = some k :=
  (h.same_of (by rw [kind_of_keyword hk]; nofun)).keyword?.trans hk

theorem Likewise.value {o : Operand} (h : Likewise t u) (hv : ValueOf templates t o) : ValueOf templates u o := by
  cases h with
  | same h => exact h.value hv
  | quoted hk hb hu hc =>
    -- a template is no other kind of value
    cases hv with
    | template ht _ hm => exact .quotedTemplate ht hu hc hb hm
    | quoted hs => cases hk.symm.trans hs
    | quotedTemplate _ hs => cases hk.symm.trans hs
    | number hs => cases hk.symm.trans hs
    | param hs => cases hk.symm.trans hs
    | true hs => cases hk.symm.trans (kind_of_keyword hs)
    | false hs => cases hk.symm.trans (kind_of_keyword hs)
    | null hs => cases hk.symm.trans (kind_of_keyword hs)
    | word hs => cases hk.symm.trans hs

/-! ## Clauses -/

def ClauseTree.column : ClauseTree → Token
  | comparison c .. => c
  | nullTest c .. => c
  | membership c .. => c

def ClauseTree.rest (c : ClauseTree) : List Token := c.tokens.tail

theorem ClauseTree.tokens_eq (c : ClauseTree) : c.tokens = c.column :: c.rest := by cases c <;> rfl

theorem ClauseTree.Means.columnOf {c : ClauseTree} {cond : Condition} (h : c.Means templates cond) :
    ColumnOf c.column cond.column := by
  obtain ⟨t, us, ht, hc⟩ := h.head
  rw [c.tokens_eq] at ht
  cases ht
  exact hc

def Condition.withTable (table : Option String) : Condition → Condition
  | comparison c op o => comparison ⟨table, c.name⟩ op o
  | membership c negated os => membership ⟨table, c.name⟩ negated os

theorem Condition.withTable_self (c : Condition) : c.withTable c.column.table = c := by cases c <;> rfl

theorem Condition.withTable_none {c : Condition} (h : c.column.table = none) : c.withTable none = c := by
  rw [← h, c.withTable_self]

theorem Condition.withTable_column (c : Condition) (table : Option String) :
    (c.withTable table).column = ⟨table, c.column.name⟩ := by cases c <;> rfl

theorem likewise_keywords {n : Option Token} {k : Keyword} {ts us : List Token} (hn : ∀ t ∈ n, t.keyword? = some k)
    (h : List.Forall₂ Likewise (n.toList ++ ts) us) : ∃ (n' : Option Token) (vs : List Token), us = n'.toList ++ vs ∧
      n'.isSome = n.isSome ∧ (∀ t ∈ n', t.keyword? = some k) ∧ List.Forall₂ Likewise ts vs := by
  cases n with
  | none => exact ⟨none, us, rfl, rfl, nofun, h⟩
  | some t =>
    cases h with
    | @cons _ u _ vs hu h =>
      refine ⟨some u, vs, rfl, rfl, ?_, h⟩
      rintro _ ⟨⟩
      exact hu.keyword (hn t rfl)

theorem likewise_values {more : List (Token × Token)} {os : List Operand} {ts us : List Token}
    (hm : List.Forall₂ (fun q o => q.1.kind = .comma ∧ ValueOf templates q.2 o) more os)
    (h : List.Forall₂ Likewise (pairTokens more ++ ts) us) : ∃ (more' : List (Token × Token)) (vs : List Token),
      us = pairTokens more' ++ vs ∧ List.Forall₂ (fun q o => q.1.kind = .comma ∧ ValueOf templates q.2 o) more' os ∧
      List.Forall₂ Likewise ts vs := by
  induction hm generalizing us with
  | nil => exact ⟨[], us, rfl, .nil, h⟩
  | @cons q o more os hq hm ih =>
    obtain ⟨comma, value⟩ := q
    cases h with
    | @cons _ c _ _ hc h =>
      cases h with
      | @cons _ v _ _ hv h =>
        obtain ⟨more', vs, rfl, hm', hvs⟩ := ih h
        exact ⟨(c, v) :: more', vs, rfl, .cons ⟨hc.kind hq.1 nofun, hv.value hq.2⟩ hm', hvs⟩

theorem ClauseTree.Means.recolumn {c : ClauseTree} {cond : Condition} (h : c.Means templates cond) {table : Option String}
    {k : Token} {us : List Token} (hk : ColumnOf k ⟨table, cond.column.name⟩) (hs : List.Forall₂ Likewise c.rest us) :
    ∃ c' : ClauseTree, c'.tokens = k :: us ∧ c'.Means templates (cond.withTable table) := by
  cases h with
  | comparison hc hop ho hv =>
    cases hs with
    | @cons _ op' _ _ hop' hs =>
      cases hs with
      | @cons _ v' _ _ hv' hs =>
        cases hs
        have hop' := hop'.same_of (by rw [hop]; nofun)
        exact ⟨.comparison k op' v', rfl, .comparison hk (hop'.1.trans hop) (hop'.2 ▸ ho) (hv'.value hv)⟩
  | nullTest hc hi hn hnull =>
    cases hs with
    | @cons _ is' _ _ his htail =>
      obtain ⟨n', vs, rfl, hsome, hn', hlast⟩ := likewise_keywords hn htail
      clear htail
      cases hlast with
      | @cons _ null' _ _ hnull' hnil =>
        cases hnil
        refine ⟨.nullTest k is' n' null', rfl, ?_⟩
        rw [Condition.withTable, ← hsome]
        exact .nullTest hk (his.keyword hi) hn' (hnull'.keyword hnull)
  | membership hc hn hi hp hv hm he =>
    obtain ⟨n', vs, rfl, hsome, hn', htail⟩ := likewise_keywords hn hs
    clear hs
    cases htail with
    | @cons _ i' _ _ hi' htail =>
      cases htail with
      | @cons _ p' _ _ hp' htail =>
        cases htail with
        | @cons _ v' _ _ hv' htail =>
          obtain ⟨more', vs, rfl, hm', hlast⟩ := likewise_values hm htail
          clear htail
          cases hlast with
          | @cons _ e' _ _ he' hnil =>
            cases hnil
            refine ⟨.membership k n' i' p' v' more' e', rfl, ?_⟩
            rw [Condition.withTable, ← hsome]
            exact .membership hk hn' (hi'.keyword hi) (hp'.kind hp nofun) (hv'.value hv) hm' (he'.kind he nofun)

end

/-! ## Predicates -/

/-- The tokens of a predicate that name its columns. -/
def Tree.columnTokens (d : Tree) : List Token := d.first.column :: d.more.map fun q => q.2.column

def moreRest (more : List (Token × ClauseTree)) : List Token := more.flatMap fun q => q.1 :: q.2.rest

def Tree.restTokens (d : Tree) : List Token := d.first.rest ++ moreRest d.more

theorem Tree.tokens_eq {d : Tree} (hn : d.exist = none) : d.tokens = d.first.tokens ++ moreTokens d.more := by
  rw [Tree.tokens, hn, List.nil_append]

theorem Tree.tokens_perm {d : Tree} (hn : d.exist = none) : d.tokens.Perm (d.columnTokens ++ d.restTokens) := by
  have hmore (more : List (Token × ClauseTree)) :
      (moreTokens more).Perm ((more.map fun q => q.2.column) ++ moreRest more) := by
    refine List.perm_iff_count.mpr fun t => ?_
    induction more with
    | nil => rfl
    | cons q more ih =>
      simp only [moreTokens, moreRest, ClauseTree.tokens_eq, List.flatMap_cons, List.map_cons, List.count_append,
        List.count_cons] at ih ⊢
      omega
  refine List.perm_iff_count.mpr fun t => ?_
  have := (hmore d.more).count_eq t
  simp only [d.tokens_eq hn, ClauseTree.tokens_eq, columnTokens, restTokens, List.count_append, List.count_cons] at this ⊢
  omega

section
variable {templates : Bool} {f : Token → List Char} {table : Token → Option String}

def Rewritten (f : Token → List Char) (t u : Token) : Prop := u.kind = t.kind ∧ u.chars = f t

/-- A token that names a column without a table gets a text that names it in a table. -/
def Recolumns (f : Token → List Char) (table : Token → Option String) (k : Token) : Prop :=
  ∀ name u, ColumnOf k ⟨none, name⟩ → Rewritten f k u → ColumnOf u ⟨table k, name⟩

theorem forall₂_split {α β : Type} {R : α → β → Prop} {as bs : List α} {us : List β} (h : List.Forall₂ R (as ++ bs) us) :
    ∃ vs ws, us = vs ++ ws ∧ List.Forall₂ R as vs ∧ List.Forall₂ R bs ws := by
  induction as generalizing us with
  | nil => exact ⟨[], us, rfl, .nil, h⟩
  | cons a as ih =>
    cases h with
    | @cons _ u _ _ hu h =>
      obtain ⟨vs, ws, rfl, hvs, hws⟩ := ih h
      exact ⟨u :: vs, ws, rfl, .cons hu hvs, hws⟩

theorem likewise_of_rewritten {ts us : List Token} (hf : ∀ t ∈ ts, f t = t.chars) (h : List.Forall₂ (Rewritten f) ts us) :
    List.Forall₂ Likewise ts us := by
  induction h with
  | nil => exact .nil
  | cons hu _ ih =>
    obtain ⟨ht, hts⟩ := List.forall_mem_cons.mp hf
    exact .cons (.same ⟨hu.1, hu.2.trans ht⟩) (ih hts)

theorem ClauseTree.Means.rewritten {c : ClauseTree} {cond : Condition} (h : c.Means templates cond)
    (hn : cond.column.table = none) (hk : Recolumns f table c.column) (hf : ∀ t ∈ c.rest, f t = t.chars)
    {ts us : List Token} (hu : List.Forall₂ (Rewritten f) (c.tokens ++ ts) us) : ∃ (c' : ClauseTree) (vs : List Token),
      us = c'.tokens ++ vs ∧ c'.Means templates (cond.withTable (table c.column)) ∧ List.Forall₂ (Rewritten f) ts vs := by
  rw [c.tokens_eq, List.cons_append] at hu
  cases hu with
  | @cons _ k _ us hku hu =>
    obtain ⟨vs, ws, rfl, hvs, hws⟩ := forall₂_split hu
    obtain ⟨c', hc', hm⟩ := h.recolumn (hk _ k (hn ▸ h.columnOf) hku) (likewise_of_rewritten hf hvs)
    exact ⟨c', ws, by rw [hc']; rfl, hm, hws⟩

theorem MoreMeans.rewritten {more : List (Token × ClauseTree)} {cs : List Condition} (h : MoreMeans templates more cs)
    (hn : ∀ c ∈ cs, c.column.table = none) (hk : ∀ q ∈ more, Recolumns f table q.2.column)
    (hf : ∀ t ∈ moreRest more, f t = t.chars) {us : List Token} (hu : List.Forall₂ (Rewritten f) (moreTokens more) us) :
    ∃ more', us = moreTokens more' ∧
      MoreMeans templates more' (List.zipWith (fun q c => c.withTable (table q.2.column)) more cs) := by
  induction h generalizing us with
  | nil =>
    cases hu
    exact ⟨[], rfl, .nil⟩
  | @cons q c more cs hq hm ih =>
    obtain ⟨conj, next⟩ := q
    obtain ⟨hn, hns⟩ := List.forall_mem_cons.mp hn
    obtain ⟨hk, hks⟩ := List.forall_mem_cons.mp hk
    rw [moreRest, List.flatMap_cons, List.cons_append, List.forall_mem_cons] at hf
    obtain ⟨hconj, hf⟩ := hf
    rw [List.forall_mem_append] at hf
    rw [moreTokens, List.flatMap_cons, List.cons_append] at hu
    cases hu with
    | @cons _ conj' _ us hand hu =>
      obtain ⟨next', vs, rfl, hnext, hvs⟩ := hq.2.rewritten hn hk hf.1 hu
      obtain ⟨more', rfl, hmore⟩ := ih hns hks hf.2 hvs
      have hs : Same conj conj' := ⟨hand.1, hand.2.trans hconj⟩
      exact ⟨(conj', next') :: more', by simp [moreTokens], .cons ⟨hs.keyword?.trans hq.1, hnext⟩ hmore⟩

def Tree.recolumned (d : Tree) (table : Token → Option String) (cs : List Condition) : List Condition :=
  List.zipWith (fun k c => c.withTable (table k)) d.columnTokens cs

/-- **A predicate with other texts for its columns is read as its conditions over other tables.** -/
theorem Tree.Means.rewritten {d : Tree} {p : Predicate} (h : d.Means templates p) (he : d.exist = none)
    (hn : ∀ c ∈ p.columns, c.table = none) (hk : ∀ k ∈ d.columnTokens, Recolumns f table k)
    (hf : ∀ t ∈ d.restTokens, f t = t.chars) {us : List Token} (hu : List.Forall₂ (Rewritten f) d.tokens us) :
    ∃ first more, us = first.tokens ++ moreTokens more ∧
      ∀ e t, TableOf e t → (⟨e, first, more⟩ : Tree).Means templates ⟨t, d.recolumned table p.conditions⟩ := by
  obtain ⟨-, c, cs, hc, hfirst, hmore⟩ := h
  rw [d.tokens_eq he] at hu
  rw [columns, hc, List.map_cons, List.forall_mem_cons] at hn
  rw [Tree.columnTokens, List.forall_mem_cons] at hk
  rw [Tree.restTokens, List.forall_mem_append] at hf
  obtain ⟨first, vs, rfl, hfirst', hvs⟩ := hfirst.rewritten hn.1 hk.1 hf.1 hu
  obtain ⟨more, rfl, hmore'⟩ := hmore.rewritten (List.forall_mem_map.mp hn.2) (List.forall_mem_map.mp hk.2) hf.2 hvs
  refine ⟨first, more, rfl, fun e t ht => ⟨ht, _, _, ?_, hfirst', hmore'⟩⟩
  simp [Tree.recolumned, Tree.columnTokens, hc, List.zipWith_map_left]

/-! ## Words before columns -/

theorem Apart.kept {ts us : List Token} (hf : ∀ t ∈ ts, f t = t.chars) (h : Apart f us)
    (hh : ∀ u ∈ us.head?, f u = u.chars) : Apart f (ts ++ us) ∧ ∀ u ∈ (ts ++ us).head?, f u = u.chars := by
  induction ts with
  | nil => exact ⟨h, hh⟩
  | cons t ts ih =>
    obtain ⟨ht, hts⟩ := List.forall_mem_cons.mp hf
    obtain ⟨ha, hn⟩ := ih hts
    exact ⟨ha.cons fun u hu hne => absurd (hn u hu) hne, by rintro _ ⟨⟩; exact ht⟩

theorem Apart.word {t : Token} {ts : List Token} (hk : t.kind = .word) (h : Apart f ts) : Apart f (t :: ts) :=
  h.cons fun _ _ _ => hk

theorem ClauseTree.Means.apart {c : ClauseTree} {cond : Condition} (h : c.Means templates cond)
    (hf : ∀ t ∈ c.rest, f t = t.chars) {ts : List Token} (hts : Apart f ts) (hh : ∀ u ∈ ts.head?, f u = u.chars) :
    Apart f (c.tokens ++ ts) := by
  rw [c.tokens_eq]
  exact (Apart.kept hf hts hh).1.word h.columnOf.kind

theorem MoreMeans.apart {more : List (Token × ClauseTree)} {cs : List Condition} (h : MoreMeans templates more cs)
    (hf : ∀ t ∈ moreRest more, f t = t.chars) :
    Apart f (moreTokens more) ∧ ∀ u ∈ (moreTokens more).head?, f u = u.chars := by
  induction h with
  | nil => exact ⟨.nil, by simp [moreTokens]⟩
  | @cons q c more cs hq _ ih =>
    rw [moreRest, List.flatMap_cons, List.cons_append, List.forall_mem_cons, List.forall_mem_append] at hf
    obtain ⟨ha, hh⟩ := ih hf.2.2
    refine ⟨?_, by rw [moreTokens, List.flatMap_cons]; rintro _ ⟨⟩; exact hf.1⟩
    rw [moreTokens, List.flatMap_cons, List.cons_append]
    exact (hq.2.apart hf.2.1 ha hh).word (kind_of_keyword hq.1)

theorem Tree.Means.apart {d : Tree} {p : Predicate} (h : d.Means templates p) (he : d.exist = none)
    (hf : ∀ t ∈ d.restTokens, f t = t.chars) : Apart f d.tokens := by
  obtain ⟨-, c, cs, -, hfirst, hmore⟩ := h
  rw [Tree.restTokens, List.forall_mem_append] at hf
  obtain ⟨ha, hh⟩ := hmore.apart hf.2
  rw [d.tokens_eq he]
  exact hfirst.apart hf.1 ha hh

end

/-! ## Columns with a table -/

theorem keyword?_of_dot {t : Token} (h : '.' ∈ t.chars) : t.keyword? = none := by
  unfold Token.keyword?
  split
  · rw [List.lookup_eq_none_iff]
    intro q hq
    have hd : (keywords.all fun q => !q.1.toList.contains '.') = true := by decide
    have hn := List.all_eq_true.mp hd q hq
    rw [bne_iff_ne]
    intro he
    have hc : (t.chars.map Char.toUpper).contains '.' = true :=
      List.contains_iff_mem.mpr (List.mem_map.mpr ⟨'.', h, rfl⟩)
    rw [← he, String.toList_ofList, hc] at hn
    cases hn
  · rfl

/-- The text of a token, with a table before the columns that are chosen. -/
def qualified (table : String) (chosen : List Token) (t : Token) : List Char :=
  if t ∈ chosen then table.toList ++ '.' :: t.chars else t.chars

def tableFor (table : String) (chosen : List Token) (t : Token) : Option String :=
  if t ∈ chosen then some table else none

section
variable {table : String} {chosen : List Token}

theorem recolumns_qualified (ht : IsName table.toList) (k : Token) :
    Recolumns (qualified table chosen) (tableFor table chosen) k := by
  intro name u hk hu
  rw [Rewritten, qualified] at hu
  rw [tableFor]
  obtain ⟨hkind, hchars⟩ := hu
  by_cases hc : k ∈ chosen
  · rw [if_pos hc] at hchars ⊢
    cases hk with
    | plain hw _ hd =>
      have hu : ColumnOf u ⟨some (String.ofList table.toList), String.ofList k.chars⟩ :=
        .qualified (hkind.trans hw) (keyword?_of_dot (by simp [hchars])) hchars ht.no_dot hd
      rwa [String.ofList_toList] at hu
  · rw [if_neg hc] at hchars ⊢
    exact Same.column ⟨hkind, hchars⟩ hk

theorem keeps_qualified {t : Token} (ht : IsName table.toList) (hk : t ∈ chosen → t.kind = .word) :
    Keeps (qualified table chosen) t := by
  unfold Keeps qualified
  by_cases hc : t ∈ chosen
  · rw [if_pos hc]
    exact .inr ⟨hk hc, table.toList, ht, rfl⟩
  · rw [if_neg hc]
    exact .inl rfl

/-! ## Reading -/

theorem Laid.nodup {n : Nat} {cs : List Char} {ts : List Token} (h : Laid n cs ts) :
    (∀ t ∈ ts, n ≤ t.position) ∧ ts.Nodup := by
  induction h with
  | nil => simp
  | blank _ _ ih => exact ⟨fun t ht => Nat.le_of_succ_le (ih.1 t ht), ih.2⟩
  | @token n cs t ts ht _ ih =>
    obtain ⟨-, -, -, hp⟩ := scanToken?_scanner ht
    have hl : 0 < t.chars.length := List.length_pos_iff.mpr (scanToken?_ne_nil ht)
    refine ⟨List.forall_mem_cons.mpr ⟨hp.ge, fun u hu => by have := ih.1 u hu; omega⟩, List.nodup_cons.mpr ⟨fun hm => ?_, ih.2⟩⟩
    have := ih.1 t hm
    omega

variable {text : String} {d : Tree} {p : Predicate}

theorem Tree.Means.exist (h : d.Means true p) (hn : p.table = none) : d.exist = none := by
  have ht := h.table
  rw [hn] at ht
  cases he : d.exist with
  | none => rfl
  | some q =>
    rw [he] at ht
    cases ht.2.2.2

theorem kept_of_rest (table : String) (hts : tokens text.toList = .ok d.tokens) (he : d.exist = none)
    (hc : chosen ⊆ d.columnTokens) : ∀ t ∈ d.restTokens, qualified table chosen t = t.chars := by
  intro t ht
  have hn := (d.tokens_perm he).nodup_iff.mp (laid_of_tokens hts).nodup.2
  exact if_neg fun hm => List.disjoint_of_nodup_append hn (hc hm) ht

theorem Tree.Means.columnKind (h : d.Means true p) : ∀ k ∈ d.columnTokens, k.kind = .word := by
  obtain ⟨-, c, cs, -, hfirst, hmore⟩ := h
  refine List.forall_mem_cons.mpr ⟨hfirst.columnOf.kind, List.forall_mem_map.mpr fun q hq => ?_⟩
  obtain ⟨cond, -, -, hm⟩ := (exists_of_forall₂ hmore).1 q hq
  exact hm.columnOf.kind

theorem parse_qualified (hts : tokens text.toList = .ok d.tokens) (hd : d.Means true p) (hn : p.table = none)
    (hu : ∀ c ∈ p.columns, c.table = none) (ht : IsName table.toList) (hc : chosen ⊆ d.columnTokens) :
    parse (String.ofList (rewriteTokens (qualified table chosen) 0 text.toList d.tokens)) =
      .ok ⟨none, d.recolumned (tableFor table chosen) p.conditions⟩ := by
  have he := hd.exist hn
  have hf := kept_of_rest table hts he hc
  have hk : ∀ t ∈ d.tokens, Keeps (qualified table chosen) t := fun t _ =>
    keeps_qualified ht fun hm => hd.columnKind t (hc hm)
  obtain ⟨us, hus, hr⟩ := (laid_of_tokens hts).recut hk (hd.apart he hf) 0
  obtain ⟨first, more, rfl, hm⟩ := hd.rewritten he hu (fun k _ => recolumns_qualified ht k) hf hr
  have hcut := tokensFrom_of_laid hus (Nat.le_refl _)
  refine parseWith_eq_ok.mpr ⟨_, ?_, ofTokens_of_means (hm none none rfl)⟩
  rw [String.toList_ofList, tokens, hcut]
  rfl

theorem Tree.Means.length (h : d.Means true p) : d.columnTokens.length = p.conditions.length := by
  obtain ⟨-, c, cs, hc, -, hmore⟩ := h
  rw [hc, Tree.columnTokens, List.length_cons, List.length_map, List.length_cons, hmore.length_eq]

theorem forall₂_zipWith {α β γ : Type} {g : α → β → γ} {as : List α} {bs : List β} (hl : as.length = bs.length) :
    List.Forall₂ (fun a c => ∃ b, c = g a b) as (List.zipWith g as bs) ∧
      List.Forall₂ (fun b c => ∃ a ∈ as, c = g a b) bs (List.zipWith g as bs) := by
  induction as generalizing bs with
  | nil =>
    obtain rfl := List.length_eq_zero_iff.mp hl.symm
    exact ⟨.nil, .nil⟩
  | cons a as ih =>
    cases bs with
    | nil => cases hl
    | cons b bs =>
      obtain ⟨ha, hb⟩ := ih (Nat.succ.inj hl)
      refine ⟨.cons ⟨b, rfl⟩ ha, .cons ⟨a, List.mem_cons_self .., rfl⟩ (hb.imp fun _ _ h => ?_)⟩
      obtain ⟨a', ha', hc⟩ := h
      exact ⟨a', List.mem_cons_of_mem _ ha', hc⟩

theorem recolumned_conditions (h : d.Means true p) (f : Token → Option String) :
    List.Forall₂ (fun c c' => ∃ k ∈ d.columnTokens, c' = c.withTable (f k)) p.conditions (d.recolumned f p.conditions) :=
  (forall₂_zipWith h.length).2

theorem recolumned_columns (h : d.Means true p) (f : Token → Option String) :
    List.Forall₂ (fun k c => c.column.table = f k) d.columnTokens (d.recolumned f p.conditions) := by
  refine (forall₂_zipWith h.length).1.imp fun k c' hc => ?_
  obtain ⟨c, rfl⟩ := hc
  rw [c.withTable_column]

theorem recolumned_none (h : d.Means true p) (hu : ∀ c ∈ p.columns, c.table = none) :
    d.recolumned (fun _ => none) p.conditions = p.conditions := by
  have hconds := (List.forall₂_and_left _ _).mpr ⟨List.forall_mem_map.mp hu, recolumned_conditions h fun _ => none⟩
  have hsame : List.Forall₂ Eq p.conditions (d.recolumned (fun _ => none) p.conditions) := by
    refine hconds.imp fun c c' hc => ?_
    obtain ⟨hn, k, -, rfl⟩ := hc
    exact (Condition.withTable_none hn).symm
  rw [List.forall₂_eq_eq_eq] at hsame
  exact hsame.symm

theorem parse_exists (hts : tokens text.toList = .ok d.tokens) (hd : d.Means true p) (hn : p.table = none)
    (hu : ∀ c ∈ p.columns, c.table = none) (ht : IsName table.toList) (hk : ¬ IsKeyword table) :
    parse ("EXISTS " ++ table ++ " WHERE " ++ text) = .ok ⟨some table, p.conditions⟩ := by
  have he := hd.exist hn
  have hwhole : Cuts ("EXISTS " ++ table ++ " WHERE " ++ text).toList fun r => ∃ e t w us, r = .ok (e :: t :: w :: us) ∧
      TableOf (some (e, t, w)) (some table) ∧ List.Forall₂ (Rewritten Token.chars) d.tokens us := by
    have hs : ("EXISTS " ++ table ++ " WHERE " ++ text).toList =
        "EXISTS".toList ++ ' ' :: (table.toList ++ ' ' :: ("WHERE".toList ++ ' ' :: text.toList)) := by
      simp
    have hspace (cs : List Char) : Ended (' ' :: cs) := by simp [Ended]
    rw [hs]
    refine .keyword (k := .exists) (by decide) (by decide) (hspace _) (.space ?_)
    refine .word ht (hspace _) (.space ?_)
    refine .keyword (k := .where) (by decide) (by decide) (hspace _) (.space ((laid_of_tokens hts).cuts.mono ?_))
    rintro _ ⟨us, rfl, hr⟩ w hw t htk htc e he
    have hword : t.keyword? = none := (keyword_iff htk htc).mpr hk
    refine ⟨e, t, w, us, rfl, ⟨he, ⟨htk, hword, htc ▸ ht.no_dot⟩, hw, ?_⟩, hr⟩
    rw [Token.text, htc, String.ofList_toList]
  obtain ⟨e, t, w, us, hcut, htable, hr⟩ := hwhole _ 0 (Nat.le_refl _)
  have hkept : ∀ k ∈ d.columnTokens, Recolumns Token.chars (fun _ => none) k := by
    intro k _ name u hk hu
    exact Same.column hu hk
  obtain ⟨first, more, rfl, hm⟩ := hd.rewritten he hu hkept (fun _ _ => rfl) hr
  have hm := hm _ _ htable
  rw [recolumned_none hd hu] at hm
  exact parseWith_eq_ok.mpr ⟨_, hcut, ofTokens_of_means hm⟩

end

end Workflow.Predicate
