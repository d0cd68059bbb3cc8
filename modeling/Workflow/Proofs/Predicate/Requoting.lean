import Workflow.Proofs.Predicate.Binding
import Workflow.Proofs.Predicate.Qualified

/-!
# Templates in quotes

A template may stand in quotes, with its own quotes doubled. A quoted text with opening braces is read as the template that it
holds, and no token around it is cut in another way, so the predicate is the same. Where a value may stand no other one is
right behind it, which is why no blanks are needed around the quotes.
-/

namespace Workflow.Predicate

/-! ## Texts -/

/-- A token keeps its text, or is a template that gets quotes, and perhaps blanks around them. -/
def Quotes (f : Token → List Char) (t : Token) : Prop :=
  f t = t.chars ∨ t.kind = .template ∧
    ∃ w w', (∀ c ∈ w ++ w', isBlank c = true) ∧ f t = w ++ quoteText t.chars ++ w'

section
variable {n m : Nat} {cs w : List Char} {t : Token} {ts us : List Token} {f : Token → List Char}

theorem blank_ne_quote {c : Char} (h : isBlank c = true) : c ≠ singleQuote := by
  rintro rfl
  exact absurd h (by decide)

theorem scanTemplate?_open {s r : List Char} (h : scanTemplate? cs = some (s, r)) : openBraces <+: s := by
  unfold scanTemplate? at h
  split at h
  · obtain ⟨⟨s', r'⟩, -, he⟩ := Option.map_eq_some_iff.mp h
    cases he
    exact ⟨s', rfl⟩
  · cases h

theorem template_open {x : List Char} (ht : scanToken? n x = some (t, cs)) (hk : t.kind = .template) :
    openBraces <+: t.chars := by
  obtain ⟨scan, hm, hs, -⟩ := scanToken?_scanner ht
  obtain rfl : scan = scanTemplate? := by simpa [scanners, hk] using hm
  exact scanTemplate?_open hs

theorem Laid.blanks (hw : ∀ c ∈ w, isBlank c = true) (h : Laid (m + w.length) cs us) : Laid m (w ++ cs) us := by
  induction w generalizing m with
  | nil => exact h
  | cons c w ih =>
    obtain ⟨hc, hw⟩ := List.forall_mem_cons.mp hw
    refine .blank hc (ih hw ?_)
    rwa [Nat.add_assoc, Nat.add_comm 1]

theorem Laid.unquoted (h : Laid n cs ts) (hk : ∀ u ∈ ts.head?, u.kind ≠ .string) : ∀ c ∈ cs.head?, c ≠ singleQuote := by
  intro c hc
  rcases h.lead c hc with hb | ⟨u, hu, hl⟩
  · exact blank_ne_quote hb
  · rintro rfl
    have hn := (leads_only hl).2 .string (hk u hu).symm
    cases hn

theorem Laid.head?_rewriteTokens (h : Laid n cs ts) (hf : ∀ t ∈ ts.head?, f t = t.chars) :
    (rewriteTokens f n cs ts).head? = cs.head? := by
  cases h with
  | nil => rfl
  | blank _ hl =>
    rw [rewriteTokens_blank hl]
    rfl
  | token ht _ =>
    obtain ⟨-, -, -, hp⟩ := scanToken?_scanner ht
    obtain ⟨c, w, hw, -⟩ := scanToken?_head ht
    rw [rewriteTokens_token hp, hf _ rfl, hw]
    rfl

/-- The first template that gets quotes is where a text breaks off, and so is what it gets. -/
theorem Laid.quotedToBreak (h : Laid n cs ts) (hq : ∀ t ∈ ts, Quotes f t) : SameToBreak cs (rewriteTokens f n cs ts) := by
  induction h with
  | nil => exact .refl []
  | blank hb hl _ =>
    rw [rewriteTokens_blank hl]
    exact .broken [] _ _ (breaks_blank hb) (breaks_blank hb)
  | @token n cs t ts ht hl ih =>
    obtain ⟨-, -, -, hp⟩ := scanToken?_scanner ht
    obtain ⟨hqt, hqs⟩ := List.forall_mem_cons.mp hq
    rw [rewriteTokens_token hp]
    rcases hqt with hkeep | ⟨hk, w, w', hw, hf⟩
    · rw [hkeep]
      exact (ih hqs).append t.chars
    · obtain ⟨s, hs⟩ := template_open ht hk
      rw [hf, ← hs]
      cases w with
      | nil => exact .broken [] _ _ (by decide) (by decide)
      | cons b w => exact .broken [] _ _ (by decide) (breaks_blank (hw b (by simp)))

/-- **A text with some of its templates in quotes is cut into tokens that stand for the same.** -/
theorem Laid.requoted (h : Laid n cs ts) (hq : ∀ t ∈ ts, Quotes f t) (hs : Spaced ts) (m : Nat) :
    ∃ us, Laid m (rewriteTokens f n cs ts) us ∧ List.Forall₂ Likewise ts us := by
  induction h generalizing m with
  | nil => exact ⟨[], .nil m, .nil⟩
  | blank hb hl ih =>
    obtain ⟨us, hus, hr⟩ := ih hq hs (m + 1)
    rw [rewriteTokens_blank hl]
    exact ⟨us, .blank hb hus, hr⟩
  | @token n cs t ts ht hl ih =>
    obtain ⟨-, -, -, hp⟩ := scanToken?_scanner ht
    obtain ⟨hqt, hqs⟩ := List.forall_mem_cons.mp hq
    obtain ⟨hnext, htail⟩ := List.isChain_cons.mp hs
    -- behind a value there is no template, so what follows begins as before
    have hhead (hv : t.kind.isValue = true) : (rewriteTokens f (n + t.chars.length) cs ts).head? = cs.head? := by
      refine hl.head?_rewriteTokens fun u hu => ?_
      rcases hqs u (List.mem_of_mem_head? hu) with hkeep | ⟨hk, -⟩
      · exact hkeep
      · have hn := hnext u hu hv
        rw [hk] at hn
        cases hn
    have hrest := hl.quotedToBreak hqs
    rw [rewriteTokens_token hp]
    rcases hqt with hkeep | ⟨hk, w, w', hw, hf⟩
    · obtain ⟨us, hus, hr⟩ := ih hqs htail (m + t.chars.length)
      have hcut := scanToken?_recut ht hrest (fun hk => hhead (by rw [hk]; rfl) ▸ hl.no_quote ht hk) m
      rw [hkeep]
      exact ⟨_, .token (t := ⟨t.kind, t.chars, m⟩) hcut hus, .cons (.same ⟨rfl, rfl⟩) hr⟩
    · have hv : t.kind.isValue = true := by rw [hk]; rfl
      obtain ⟨us, hus, hr⟩ := ih hqs htail (m + w.length + (quoteText t.chars).length + w'.length)
      have hopen : openBraces <:+: t.chars := (template_open ht hk).isInfix
      have hbehind : ∀ c ∈ (w' ++ rewriteTokens f (n + t.chars.length) cs ts).head?, c ≠ singleQuote := by
        cases w' with
        | nil =>
          rw [List.nil_append, hhead hv]
          refine hl.unquoted fun u hu hk => ?_
          have hn := hnext u hu hv
          rw [hk] at hn
          cases hn
        | cons b w' =>
          rintro _ ⟨⟩
          exact blank_ne_quote (hw b (by simp))
      have hstring : (TokenKind.string, scanString?) ∈ scanners := by simp [scanners]
      have hcut := scanToken?_of_scanner hstring (scanString?_quoteText (s := t.chars) hbehind)
        (by rw [quoteText]; rintro _ ⟨⟩; decide) (by simp [quoteText]) (m + w.length)
      have hlaid := (Laid.token (t := ⟨.string, quoteText t.chars, m + w.length⟩) hcut
        (hus.blanks fun c hc => hw c (List.mem_append_right w hc))).blanks fun c hc => hw c (List.mem_append_left w' hc)
      rw [hf]
      simp only [List.append_assoc] at hlaid ⊢
      exact ⟨_, hlaid, .cons (.quoted hk hopen rfl rfl) hr⟩

end

/-! ## Predicates -/

section
variable {templates : Bool}

theorem ClauseTree.Means.likewise {c : ClauseTree} {cond : Condition} (h : c.Means templates cond) {ts us : List Token}
    (hu : List.Forall₂ Likewise (c.tokens ++ ts) us) : ∃ (c' : ClauseTree) (vs : List Token),
      us = c'.tokens ++ vs ∧ c'.Means templates cond ∧ List.Forall₂ Likewise ts vs := by
  rw [c.tokens_eq, List.cons_append] at hu
  cases hu with
  | @cons _ k _ us hk hu =>
    obtain ⟨vs, ws, rfl, hvs, hws⟩ := forall₂_split hu
    have hcolumn : ColumnOf k ⟨cond.column.table, cond.column.name⟩ :=
      (hk.same_of (by rw [h.columnOf.kind]; decide)).column h.columnOf
    obtain ⟨c', hc', hm⟩ := h.recolumn hcolumn hvs
    rw [cond.withTable_self] at hm
    exact ⟨c', ws, by rw [hc']; rfl, hm, hws⟩

theorem MoreMeans.likewise {more : List (Token × ClauseTree)} {cs : List Condition} (h : MoreMeans templates more cs)
    {us : List Token} (hu : List.Forall₂ Likewise (moreTokens more) us) :
    ∃ more', us = moreTokens more' ∧ MoreMeans templates more' cs := by
  induction h generalizing us with
  | nil =>
    cases hu
    exact ⟨[], rfl, .nil⟩
  | @cons q c more cs hq _ ih =>
    rw [moreTokens, List.flatMap_cons, List.cons_append] at hu
    cases hu with
    | @cons _ conj _ us hconj hu =>
      obtain ⟨next, vs, rfl, hnext, hvs⟩ := hq.2.likewise hu
      obtain ⟨more', rfl, hmore⟩ := ih hvs
      exact ⟨(conj, next) :: more', by simp [moreTokens], .cons ⟨hconj.keyword hq.1, hnext⟩ hmore⟩

theorem Tree.Means.likewise {d : Tree} {p : Predicate} (h : d.Means templates p) {us : List Token}
    (hu : List.Forall₂ Likewise d.tokens us) : ∃ d' : Tree, d'.tokens = us ∧ d'.Means templates p := by
  obtain ⟨htable, c, cs, hc, hfirst, hmore⟩ := h
  rw [Tree.tokens, List.append_assoc] at hu
  obtain ⟨es, us, rfl, hes, hu⟩ := forall₂_split hu
  obtain ⟨first, vs, rfl, hfirst', hvs⟩ := hfirst.likewise hu
  obtain ⟨more, rfl, hmore'⟩ := hmore.likewise hvs
  cases he : d.exist with
  | none =>
    rw [he] at hes htable
    cases hes
    exact ⟨⟨none, first, more⟩, rfl, htable, c, cs, hc, hfirst', hmore'⟩
  | some q =>
    obtain ⟨e, t, w⟩ := q
    rw [he] at hes htable
    obtain ⟨hek, ⟨htk, htn, htd⟩, hwk, hp⟩ := htable
    cases hes with
    | @cons _ e' _ _ he' hes =>
      cases hes with
      | @cons _ t' _ _ ht' hes =>
        cases hes with
        | @cons _ w' _ _ hw' hes =>
          cases hes
          have hs := ht'.same_of (by rw [htk]; decide)
          refine ⟨⟨some (e', t', w'), first, more⟩, by simp [Tree.tokens], ⟨he'.keyword hek, ?_, hw'.keyword hwk, ?_⟩, c, cs,
            hc, hfirst', hmore'⟩
          · exact ⟨hs.1.trans htk, hs.keyword?.trans htn, hs.2 ▸ htd⟩
          · rw [hp, hs.text]

theorem operand_of_values {more : List (Token × Token)} {os : List Operand}
    (h : List.Forall₂ (fun q o => q.1.kind = .comma ∧ ValueOf templates q.2 o) more os) {t : Token} (ht : t ∈ pairTokens more)
    (hk : t.kind = .template) : ∃ o ∈ os, ValueOf templates t o := by
  obtain ⟨q, hq, ht⟩ := List.mem_flatMap.mp ht
  obtain ⟨o, ho, hcomma, hv⟩ := (exists_of_forall₂ h).1 q hq
  rcases List.mem_pair.mp ht with rfl | rfl
  · cases hcomma.symm.trans hk
  · exact ⟨o, ho, hv⟩

theorem ClauseTree.Means.operand {c : ClauseTree} {cond : Condition} (h : c.Means templates cond) {t : Token}
    (ht : t ∈ c.tokens) (hk : t.kind = .template) : ∃ o ∈ cond.operands, ValueOf templates t o := by
  have hkeyword {k : Keyword} (h : t.keyword? = some k) : False := by cases (kind_of_keyword h).symm.trans hk
  have hnegation {n : Option Token} {k : Keyword} (hn : ∀ t ∈ n, t.keyword? = some k) (ht : t ∈ n.toList) : False :=
    hkeyword (hn t (Option.mem_toList.mp ht))
  cases h with
  | comparison hc hop _ hv =>
    simp only [ClauseTree.tokens, List.mem_cons, List.not_mem_nil, or_false] at ht
    rcases ht with rfl | rfl | rfl
    · cases hc.kind.symm.trans hk
    · cases hop.symm.trans hk
    · exact ⟨_, List.mem_singleton.mpr rfl, hv⟩
  | nullTest hc hi hn hnull =>
    simp only [ClauseTree.tokens, List.mem_cons, List.mem_append, List.not_mem_nil, or_false] at ht
    rcases ht with rfl | rfl | ht | rfl
    · cases hc.kind.symm.trans hk
    · exact (hkeyword hi).elim
    · exact (hnegation hn ht).elim
    · exact (hkeyword hnull).elim
  | membership hc hn hi hp hv hvs he =>
    simp only [ClauseTree.tokens, List.mem_cons, List.mem_append, List.not_mem_nil, or_false] at ht
    rcases ht with rfl | ht | rfl | rfl | rfl | ht | rfl
    · cases hc.kind.symm.trans hk
    · exact (hnegation hn ht).elim
    · exact (hkeyword hi).elim
    · cases hp.symm.trans hk
    · exact ⟨_, List.mem_cons_self .., hv⟩
    · obtain ⟨o, ho, hv⟩ := operand_of_values hvs ht hk
      exact ⟨o, List.mem_cons_of_mem _ ho, hv⟩
    · cases he.symm.trans hk

theorem Tree.Means.operand {d : Tree} {p : Predicate} (h : d.Means templates p) {t : Token} (ht : t ∈ d.tokens)
    (hk : t.kind = .template) : ∃ o ∈ p.operands, ValueOf templates t o := by
  obtain ⟨htable, c, cs, hc, hfirst, hmore⟩ := h
  rw [operands, hc, List.flatMap_cons]
  rw [Tree.tokens, List.mem_append, List.mem_append] at ht
  rcases ht with (ht | ht) | ht
  · cases he : d.exist with
    | none =>
      rw [he] at ht
      cases ht
    | some q =>
      obtain ⟨e, table, w⟩ := q
      rw [he] at ht htable
      obtain ⟨hek, htn, hwk, -⟩ := htable
      simp only [List.mem_cons, List.not_mem_nil, or_false] at ht
      rcases ht with rfl | rfl | rfl
      · cases (kind_of_keyword hek).symm.trans hk
      · cases htn.1.symm.trans hk
      · cases (kind_of_keyword hwk).symm.trans hk
  · obtain ⟨o, ho, hv⟩ := hfirst.operand ht hk
    exact ⟨o, List.mem_append_left _ ho, hv⟩
  · obtain ⟨q, hq, ht⟩ := List.mem_flatMap.mp ht
    obtain ⟨cond, hcond, hand, hm⟩ := (exists_of_forall₂ hmore).1 q hq
    rcases List.mem_cons.mp ht with rfl | ht
    · cases (kind_of_keyword hand).symm.trans hk
    · obtain ⟨o, ho, hv⟩ := hm.operand ht hk
      exact ⟨o, List.mem_append_right _ (List.mem_flatMap.mpr ⟨cond, hcond, ho⟩), hv⟩

/-- The text of a predicate matters to what is said about its faults only. -/
theorem bind_of_text {context : Members} {text text' : String} {c : Condition} {b : BoundCondition} :
    c.BindsTo context text b → c.BindsTo context text' b := by
  have hvalue {o : Operand} {v : Value} (h : o.value context text = .ok v) : o.value context text' = .ok v := by
    cases o with
    | literal => exact h
    | template => exact h
    | param name =>
      simp only [Operand.value] at h ⊢
      split at h
      · exact h
      · cases h
  intro h
  cases h with
  | comparison hv ho => exact .comparison (hvalue hv) ho
  | membership hvs hl hne => exact .membership (hvs.imp fun _ _ h => hvalue h) hl hne

end

/-! ## One template -/

/-- A text with a template of it in quotes, and with something around them. -/
def requoted (text : String) (t : Token) (before behind : List Char) : String :=
  String.ofList (text.toList.take t.position ++ (before ++ quoteText t.chars ++ behind) ++
    text.toList.drop (t.position + t.chars.length))

section
variable {n : Nat} {cs : List Char} {t : Token} {ts : List Token}

theorem rewriteTokens_congr {f g : Token → List Char} (h : ∀ t ∈ ts, f t = g t) :
    rewriteTokens f n cs ts = rewriteTokens g n cs ts := by
  induction ts generalizing n cs with
  | nil => rfl
  | cons t ts ih =>
    obtain ⟨ht, hts⟩ := List.forall_mem_cons.mp h
    rw [rewriteTokens, rewriteTokens, ht, ih hts]

def withText (t : Token) (s : List Char) (u : Token) : List Char := if u = t then s else u.chars

theorem Laid.rewriteTokens_withText (h : Laid n cs ts) (ht : t ∈ ts) (s : List Char) :
    rewriteTokens (withText t s) n cs ts = cs.take (t.position - n) ++ s ++ cs.drop (t.position - n + t.chars.length) := by
  induction h with
  | nil => cases ht
  | blank _ hl ih =>
    obtain ⟨k, hk⟩ := Nat.exists_eq_add_of_le (hl.nodup.1 t ht)
    rw [rewriteTokens_blank hl, ih ht]
    rename_i n c cs ts _
    have hn : t.position - n = k + 1 := by omega
    have hn' : t.position - (n + 1) = k := by omega
    simp only [hn, hn', Nat.succ_add, List.take_succ_cons, List.drop_succ_cons, List.cons_append]
  | @token n cs u ts hu hl ih =>
    obtain ⟨-, -, -, hp⟩ := scanToken?_scanner hu
    rw [rewriteTokens_token hp]
    by_cases hut : u = t
    · subst hut
      have hn : u ∉ ts := (List.nodup_cons.mp (Laid.token hu hl).nodup.2).1
      have hrest : ∀ v ∈ ts, withText u s v = v.chars := fun v hv => if_neg (by rintro rfl; exact hn hv)
      rw [rewriteTokens_congr hrest, hl.rewriteTokens_chars, hp, withText, if_pos rfl]
      simp
    · have ht := (List.mem_cons.mp ht).resolve_left (Ne.symm hut)
      obtain ⟨k, hk⟩ := Nat.exists_eq_add_of_le (hl.nodup.1 t ht)
      have hn : t.position - n = u.chars.length + k := by omega
      have hn' : t.position - (n + u.chars.length) = k := by omega
      rw [ih ht, withText, if_neg hut, hn, hn', Nat.add_assoc, List.take_length_add_append, List.drop_length_add_append]
      simp only [List.append_assoc]

/-- **A template may stand in quotes.** A predicate that is read is read the same with any of its templates in quotes, its own
quotes doubled. The template is an operand of both, not a text, and both are bound to the same. -/
theorem parse_requoted {text : String} {p : Predicate} {before behind : List Char} (hp : parse text = .ok p)
    (hts : tokens text.toList = .ok ts) (ht : t ∈ ts) (hk : t.kind = .template)
    (hb : ∀ c ∈ before ++ behind, isBlank c = true) : parse (requoted text t before behind) = .ok p ∧
      (∃ m, Template.parse t.text = .ok m ∧ .template m ∈ p.operands) ∧
      ∀ context bs, p.bind context (requoted text t before behind) = .ok bs ↔ p.bind context text = .ok bs := by
  obtain ⟨_, hts', hof⟩ := parseWith_eq_ok.mp hp
  cases hts.symm.trans hts'
  obtain ⟨d, rfl, hd⟩ := means_of_ofTokens (tokens_shaped hts) hof
  have hl := laid_of_tokens hts
  refine ⟨?_, ?_, fun context bs => ?_⟩
  · have hq : ∀ u ∈ d.tokens, Quotes (withText t (before ++ quoteText t.chars ++ behind)) u := by
      intro u _
      by_cases hut : u = t
      · subst hut
        exact .inr ⟨hk, before, behind, hb, if_pos rfl⟩
      · exact .inl (if_neg hut)
    obtain ⟨us, hus, hlike⟩ := hl.requoted hq hd.spaced 0
    obtain ⟨d', rfl, hd'⟩ := hd.likewise hlike
    refine parseWith_eq_ok.mpr ⟨_, ?_, ofTokens_of_means hd'⟩
    have htext : (requoted text t before behind).toList =
        rewriteTokens (withText t (before ++ quoteText t.chars ++ behind)) 0 text.toList d.tokens := by
      rw [hl.rewriteTokens_withText ht, requoted, String.toList_ofList, Nat.sub_zero]
    rw [htext, tokens, tokensFrom_of_laid hus (Nat.le_refl _)]
  · obtain ⟨o, ho, hv⟩ := hd.operand ht hk
    cases hv with
    | template _ _ hm => exact ⟨_, hm, ho⟩
    | quoted hs => cases hk.symm.trans hs
    | quotedTemplate _ hs => cases hk.symm.trans hs
    | number hs => cases hk.symm.trans hs
    | param hs => cases hk.symm.trans hs
    | true hs => cases hk.symm.trans (kind_of_keyword hs)
    | false hs => cases hk.symm.trans (kind_of_keyword hs)
    | null hs => cases hk.symm.trans (kind_of_keyword hs)
    | word hs => cases hk.symm.trans hs
  · simp only [Predicate.bind, mapM_eq_ok, bind_iff]
    exact ⟨fun h => h.imp fun _ _ => bind_of_text, fun h => h.imp fun _ _ => bind_of_text⟩

/-- A template with quotes of its own. -/
def wanted : String := "name = \x7b\x7b lead | default('x') \x7d\x7d AND id IN (:other, 1)"

def wantedLead : Token := ⟨.template, "\x7b\x7b lead | default('x') \x7d\x7d".toList, 7⟩

def wantedContext : Members := [(.text "lead", .scalar (.int 5)), (.text "other", .scalar (.int 7))]

def wantedBound : List BoundCondition := [.comparison "name" .eq (.int 5), .membership "id" false [.int 7, .int 1]]

theorem parse_requoted_default :
    requoted wanted wantedLead [' '] [] = "name =  '\x7b\x7b lead | default(''x'') \x7d\x7d' AND id IN (:other, 1)" ∧
      ∃ p, parse wanted = .ok p ∧ parse (requoted wanted wantedLead [' '] []) = .ok p ∧
        p.bind wantedContext (requoted wanted wantedLead [' '] []) = .ok wantedBound := by
  have hread : (parse wanted).toOption.any (fun p =>
      (p.bind wantedContext wanted).toOption.any fun bs => decide (bs = wantedBound)) = true := by
    decide +kernel
  have hcut : (tokens wanted.toList).toOption.any (fun ts => ts.contains wantedLead) = true := by decide
  obtain ⟨p, hp, hbound⟩ := any_toOption.mp hread
  obtain ⟨bs, hbs, heq⟩ := any_toOption.mp hbound
  obtain ⟨ts, hts, hmem⟩ := any_toOption.mp hcut
  have hblank : ∀ c ∈ [' '] ++ [], isBlank c = true := List.forall_mem_singleton.mpr rfl
  obtain ⟨hsame, -, hbind⟩ := parse_requoted hp hts (List.contains_iff_mem.mp hmem) rfl hblank
  rw [of_decide_eq_true heq] at hbs
  exact ⟨by decide, p, hp, hsame, (hbind _ _).mpr hbs⟩

end

end Workflow.Predicate
