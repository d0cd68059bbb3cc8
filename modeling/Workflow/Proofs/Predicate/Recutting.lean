import Workflow.Proofs.Predicate.Layout
import Workflow.Proofs.Text.Split
import Workflow.Proofs.Text.Digits

/-!
# Cutting a text that was written again

No token but a template and a quoted text holds a blank, a brace or a quote, so what is behind one of these does not matter
to what is in front of it. A text whose words get names with a point before them is therefore cut into its old tokens with
these words replaced.
-/

namespace Workflow.Predicate

/-! ## First characters -/

theorem isDecimal_blank {c : Char} (h : isBlank c = true) : isDecimal c = false := stops_of_blank (by decide) h

/-- The characters of tokens that are neither digits nor parts of words; templates and quoted texts have others too. -/
def marks : List Char := ['.', '-', '+', ':', '<', '>', '=', '!', '(', ')', ',']

/-- A character that stands in no token, unless it is a template or a quoted text. -/
def Breaks (c : Char) : Prop := isDecimal c = false ∧ isWordPart c = false ∧ c ∉ marks

instance : DecidablePred Breaks := fun _ => inferInstanceAs (Decidable (_ ∧ _ ∧ _))

theorem breaks_blank {c : Char} (h : isBlank c = true) : Breaks c := by
  refine ⟨isDecimal_blank h, stops_of_blank (by decide) h, fun hm => ?_⟩
  have hc : marks.contains c = false := stops_of_blank (by decide) h
  simp [hm] at hc

theorem Breaks.ne {c d : Char} (h : Breaks c) (hd : ¬ Breaks d) : c ≠ d := by
  rintro rfl
  exact hd h

theorem Breaks.no_start {c : Char} (h : Breaks c) : isWordStart c = false := by
  by_contra hs
  have hp := isWordPart_of_isWordStart (Bool.not_eq_false _ ▸ hs)
  rw [h.2.1] at hp
  cases hp

theorem leads_only {k : TokenKind} {c : Char} (h : leads k c = true) : LeadsOnly k c := by
  have hne : ∀ k, k ≠ .number → leads k c = true → LeadsOnly k c := by
    intro k hk h
    cases k with
    | number => exact absurd rfl hk
    | word => exact isWordStart_leads h
    | operator =>
      simp only [leads, Bool.or_eq_true, beq_iff_eq] at h
      rcases h with ((rfl | rfl) | rfl) | rfl <;> decide
    | _ =>
      obtain rfl := beq_iff_eq.mp h
      decide
  by_cases hk : k = .number
  · subst hk
    refine ⟨?_, fun k' hk' => ?_⟩
    · simp only [leads, Bool.or_eq_true, beq_iff_eq] at h
      rcases h with rfl | h
      · decide
      · by_contra hb
        simp [isDecimal_blank (Bool.not_eq_false _ ▸ hb)] at h
    · by_contra hl
      -- the character would start a number and a token of a kind that shares no first character
      have := (hne k' hk' (Bool.not_eq_false _ ▸ hl)).2 .number (Ne.symm hk')
      simp [h] at this
  · exact hne k hk h

/-! ## Scanners before a character that breaks off -/

section
variable {b : Char} {v x : List Char}

/-- What is matched and left, with a text behind it. -/
def before (v : List Char) (q : List Char × List Char) : List Char × List Char := (q.1, q.2 ++ v)

/-- A scanner that looks at nothing behind a character that breaks off. -/
def StopsAtBreaks (scan : List Char → Option (List Char × List Char)) : Prop :=
  ∀ (b : Char) (v x : List Char), Breaks b → scan (x ++ b :: v) = (scan x).map (before (b :: v))

theorem span_break {p : Char → Bool} (hp : p b = false) :
    (x ++ b :: v).takeWhile p = x.takeWhile p ∧ (x ++ b :: v).dropWhile p = x.dropWhile p ++ b :: v := by
  induction x with
  | nil => simp [hp]
  | cons c x ih =>
    by_cases hc : p c = true
    · simp [hc, ih]
    · simp [hc]

theorem scanDigits?_break : StopsAtBreaks scanDigits? := by
  intro b v x hb
  have hd := hb.1
  cases x with
  | nil => simp [scanDigits?, hd]
  | cons c x =>
    obtain ⟨ht, hr⟩ := span_break (v := v) (x := c :: x) hd
    rw [List.cons_append] at ht hr
    by_cases hc : isDecimal c = true
    · simp only [List.cons_append, scanDigits?, hc, if_true, ht, hr]
      rfl
    · simp [scanDigits?, hc]

theorem scanFraction_break (v x : List Char) (hb : Breaks b) :
    scanFraction (x ++ b :: v) = before (b :: v) (scanFraction x) := by
  have hp : b ≠ '.' := hb.ne (by decide)
  cases x with
  | nil =>
    rw [List.nil_append]
    unfold scanFraction
    split
    · rename_i h
      exact absurd (List.cons.inj h).1 hp
    · rfl
  | cons c x =>
    by_cases hc : c = '.'
    · subst hc
      rw [List.cons_append]
      simp only [scanFraction, scanDigits?_break b v x hb]
      cases scanDigits? x <;> rfl
    · have hn (y : List Char) : scanFraction (c :: y) = ([], c :: y) := by
        unfold scanFraction
        split
        · rename_i h
          exact absurd (List.cons.inj h).1 hc
        · rfl
      rw [List.cons_append, hn, hn]
      rfl

theorem scanExponent_break (v x : List Char) (hb : Breaks b) :
    scanExponent (x ++ b :: v) = before (b :: v) (scanExponent x) := by
  have he : ¬ (b = 'e' ∨ b = 'E') := not_or.mpr ⟨hb.ne (by decide), hb.ne (by decide)⟩
  have hs : ¬ (b = '-' ∨ b = '+') := not_or.mpr ⟨hb.ne (by decide), hb.ne (by decide)⟩
  cases x with
  | nil => simp [scanExponent, he, before]
  | cons c x =>
    by_cases hc : c = 'e' ∨ c = 'E'
    · cases x with
      | nil =>
        have hd := scanDigits?_break b v [] hb
        simp only [List.cons_append, List.nil_append, scanExponent, hc, hs, if_true, if_false] at hd ⊢
        rw [hd]
        rfl
      | cons s x =>
        by_cases hsign : s = '-' ∨ s = '+'
        · simp only [List.cons_append, scanExponent, hc, hsign, if_true, scanDigits?_break b v x hb]
          cases scanDigits? x <;> rfl
        · have hd := scanDigits?_break b v (s :: x) hb
          simp only [List.cons_append, scanExponent, hc, hsign, if_true, if_false] at hd ⊢
          rw [hd]
          cases scanDigits? (s :: x) <;> rfl
    · simp [scanExponent, hc, before]

theorem scanUnsigned?_break : StopsAtBreaks scanUnsigned? := by
  intro b v x hb
  rw [scanUnsigned?, scanUnsigned?, scanDigits?_break b v x hb]
  cases scanDigits? x with
  | none => rfl
  | some q => simp [before, scanFraction_break v _ hb, scanExponent_break v _ hb]

theorem scanNumber?_break : StopsAtBreaks scanNumber? := by
  intro b v x hb
  have hn {c : Char} (hc : c ≠ '-') (y : List Char) : scanNumber? (c :: y) = scanUnsigned? (c :: y) := by
    unfold scanNumber?
    split
    · rename_i h
      exact absurd (List.cons.inj h).1 hc
    · rfl
  cases x with
  | nil =>
    rw [List.nil_append, hn (hb.ne (by decide))]
    exact scanUnsigned?_break b v [] hb
  | cons c x =>
    by_cases hc : c = '-'
    · subst hc
      rw [List.cons_append]
      simp only [scanNumber?, scanUnsigned?_break b v x hb, Option.map_map]
      rfl
    · rw [List.cons_append, hn hc, hn hc, ← List.cons_append, scanUnsigned?_break b v _ hb]

theorem scanName?_break : StopsAtBreaks scanName? := by
  intro b v x hb
  have hs : isWordStart b = false := hb.no_start
  cases x with
  | nil => simp [scanName?, hs]
  | cons c x =>
    obtain ⟨ht, hr⟩ := span_break (v := v) (x := x) (hb.2.1)
    by_cases hc : isWordStart c = true
    · simp only [List.cons_append, scanName?, hc, if_true, ht, hr]
      rfl
    · simp [scanName?, hc]

theorem scanParam?_break : StopsAtBreaks scanParam? := by
  intro b v x hb
  have hm : (TokenKind.param, scanParam?) ∈ scanners := by simp [scanners]
  cases x with
  | nil =>
    rw [List.nil_append, scan_eq_none hm (beq_false_of_ne (hb.ne (by decide)))]
    rfl
  | cons c x =>
    by_cases hc : c = ':'
    · subst hc
      rw [List.cons_append]
      simp only [scanParam?, scanName?_break b v x hb, Option.map_map]
      rfl
    · rw [List.cons_append, scan_eq_none hm (beq_false_of_ne hc), scan_eq_none hm (beq_false_of_ne hc)]
      rfl

theorem scanOperator?_cons (c : Char) (r : List Char) : scanOperator? (c :: r) =
    if (c = '<' ∨ c = '>' ∨ c = '!') ∧ r.head? = some '=' ∨ c = '<' ∧ r.head? = some '>' then some (c :: r.take 1, r.drop 1)
    else if c = '=' ∨ c = '<' ∨ c = '>' then some ([c], r) else none := by
  unfold scanOperator?
  cases r with
  | nil => split <;> simp_all
  | cons d r => split <;> simp_all <;> grind

theorem scanOperator?_break : StopsAtBreaks scanOperator? := by
  intro b v x hb
  have he := hb.ne (d := '=') (by decide)
  have hl := hb.ne (d := '<') (by decide)
  have hg := hb.ne (d := '>') (by decide)
  have hx := hb.ne (d := '!') (by decide)
  cases x with
  | nil => simp [scanOperator?, he, hl, hg, hx]
  | cons c x =>
    rw [List.cons_append, scanOperator?_cons, scanOperator?_cons]
    cases x with
    | nil =>
      simp only [List.nil_append, List.head?_cons, List.head?_nil, Option.some.injEq, he, hg, reduceCtorEq, and_false,
        or_self, if_false]
      split <;> rfl
    | cons d x =>
      simp only [List.cons_append, List.head?_cons, List.take_succ_cons, List.drop_succ_cons]
      split
      · rfl
      · split <;> rfl

theorem scanChar?_break {c : Char} (hc : ¬ Breaks c) : StopsAtBreaks (scanChar? c) := by
  intro b v x hb
  cases x with
  | nil => simp [scanChar?, hb.ne hc]
  | cons d x => by_cases hd : d = c <;> simp [scanChar?, hd, before]

theorem scanDotted?_break (fuel : Nat) : StopsAtBreaks (scanDotted? fuel) := by
  intro b v x hb
  induction fuel generalizing x with
  | zero => rfl
  | succ fuel ih =>
    rw [scanDotted?, scanDotted?, scanName?_break b v x hb]
    cases scanName? x with
    | none => rfl
    | some q =>
      obtain ⟨s, r⟩ := q
      cases r with
      | nil =>
        have hp : b ≠ '.' := hb.ne (by decide)
        simp [before, hp]
      | cons c r =>
        by_cases hc : c = '.'
        · subst hc
          simp only [Option.map_some, before, List.cons_append, ih r]
          cases scanDotted? fuel r <;> rfl
        · simp [before, hc]

/-! ## Words -/

/-- Every name takes a character, so fuel beyond the length of a text is not used. -/
theorem scanDotted?_fuel {fuel more : Nat} (hf : x.length ≤ fuel) (hm : x.length ≤ more) :
    scanDotted? fuel x = scanDotted? more x := by
  have hnil (n : Nat) : scanDotted? n [] = none := by cases n <;> rfl
  induction fuel generalizing more x with
  | zero => rw [List.length_eq_zero_iff.mp (Nat.le_zero.mp hf), hnil, hnil]
  | succ fuel ih =>
    cases more with
    | zero => rw [List.length_eq_zero_iff.mp (Nat.le_zero.mp hm), hnil, hnil]
    | succ more =>
      rw [scanDotted?, scanDotted?]
      split
      · rfl
      · rename_i s rest hn
        have hl : x.length = (s ++ '.' :: rest).length := congrArg List.length (scanName?_split hn).1
        simp only [List.length_append, List.length_cons] at hl
        have hrest : scanDotted? fuel rest = scanDotted? more rest := ih (by omega) (by omega)
        rw [hrest]
      · rfl

theorem scanWord?_break : StopsAtBreaks scanWord? := by
  intro b v x hb
  have hl : x.length ≤ (x ++ b :: v).length := by simp
  rw [scanWord?, scanWord?, scanDotted?_break _ b v x hb, scanDotted?_fuel hl (Nat.le_refl _)]

theorem scanDotted?_end {fuel : Nat} {s r : List Char} (h : scanDotted? fuel x = some (s, r)) :
    ∀ c ∈ r.head?, isWordPart c = false := by
  induction fuel generalizing x s r with
  | zero => cases h
  | succ fuel ih =>
    simp only [scanDotted?] at h
    split at h
    · cases h
    · split at h
      · rename_i ht
        cases h
        exact ih ht
      · cases h
        simp [isWordPart]
    · rename_i hn
      cases h
      exact (scanName?_split hn).2

theorem scanWord?_qualified {q s r : List Char} (hq : IsName q) (h : scanWord? (s ++ r) = some (s, r)) :
    scanWord? (q ++ '.' :: s ++ r) = some (q ++ '.' :: s, r) := by
  cases hq with
  | @mk c q hc hq =>
    have hpoint : ∀ c ∈ ('.' :: (s ++ r)).head?, isWordPart c = false := by simp [isWordPart]
    obtain ⟨ht, hd⟩ := span_append hq hpoint
    have hn : scanName? (c :: (q ++ '.' :: (s ++ r))) = some (c :: q, '.' :: (s ++ r)) := by simp [scanName?, hc, ht, hd]
    have hl : (s ++ r).length ≤ (q ++ '.' :: (s ++ r)).length := by simp; omega
    rw [scanWord?, scanDotted?_fuel (Nat.le_refl _) hl] at h
    rw [scanWord?, List.append_assoc, List.cons_append, List.cons_append, List.length_cons, scanDotted?, hn]
    simp only [h]

/-! ## Templates and quoted texts -/

theorem closeTemplate_prefix {s r w : List Char} (h : closeTemplate x = some (s, r)) :
    closeTemplate (s ++ w) = some (s, w) := by
  fun_induction closeTemplate x generalizing s r with
  | case1 rest =>
    cases h
    rfl
  | case2 c rest hc ih =>
    obtain ⟨⟨s', r'⟩, hr, he⟩ := Option.map_eq_some_iff.mp h
    cases he
    obtain ⟨hs, u, hu⟩ := closeTemplate_split hr
    rw [List.cons_append, closeTemplate, ih hr]
    · rfl
    · -- the second brace would be the first character of what is matched behind
      rintro y rfl hy
      cases s' with
      | nil => simp at hu
      | cons d s' =>
        rw [List.cons_append, List.cons.injEq] at hy
        refine hc (s' ++ r) rfl ?_
        rw [hs, List.cons_append, hy.1]
  | case3 => cases h

theorem scanTemplate?_prefix {s r w : List Char} (h : scanTemplate? x = some (s, r)) :
    scanTemplate? (s ++ w) = some (s, w) := by
  unfold scanTemplate? at h
  split at h
  · obtain ⟨⟨s', r'⟩, hr, he⟩ := Option.map_eq_some_iff.mp h
    cases he
    simp [scanTemplate?, closeTemplate_prefix hr]
  · cases h

theorem closeQuote_rest {s r : List Char} (h : closeQuote x = some (s, singleQuote :: r)) : closeQuote r = none := by
  fun_induction closeQuote x generalizing s with
  | case1 => cases h
  | case2 => cases h
  | case3 => cases h
  | case4 rest s' r' hr ih =>
    cases h
    exact ih hr
  | case5 rest hr =>
    cases h
    exact hr
  | case6 d rest hd =>
    cases h
    exact absurd rfl hd
  | case7 c d rest _ ih =>
    obtain ⟨⟨s', r'⟩, hr, he⟩ := Option.map_eq_some_iff.mp h
    cases he
    exact ih hr

theorem scanString?_rest {s r : List Char} (h : scanString? x = some (s, singleQuote :: r)) :
    scanString? (singleQuote :: r) = none := by
  cases x with
  | nil => cases h
  | cons c x =>
    simp only [scanString?] at h
    split at h
    · obtain ⟨⟨s', r'⟩, hr, he⟩ := Option.map_eq_some_iff.mp h
      cases he
      simp [scanString?, closeQuote_rest hr]
    · cases h

end

/-! ## Tokens -/

/-- Texts that are the same, or the same up to characters that break off. -/
inductive SameToBreak : List Char → List Char → Prop
  | refl (cs : List Char) : SameToBreak cs cs
  | broken {b b' : Char} (u v w : List Char) : Breaks b → Breaks b' → SameToBreak (u ++ b :: v) (u ++ b' :: w)

section
variable {n m : Nat} {cs cs' : List Char} {t : Token} {ts : List Token}

theorem SameToBreak.append (h : SameToBreak cs cs') (s : List Char) : SameToBreak (s ++ cs) (s ++ cs') := by
  cases h with
  | refl => exact .refl _
  | broken u v w hb hb' =>
    rw [← List.append_assoc, ← List.append_assoc]
    exact .broken _ v w hb hb'

theorem StopsAtBreaks.recut {scan : List Char → Option (List Char × List Char)} (hscan : StopsAtBreaks scan) {s : List Char}
    (hs : scan (s ++ cs) = some (s, cs)) (h : SameToBreak cs cs') : scan (s ++ cs') = some (s, cs') := by
  cases h with
  | refl => exact hs
  | broken u v w hb hb' =>
    rw [← List.append_assoc] at hs ⊢
    rw [hscan _ v _ hb] at hs
    obtain ⟨⟨s', r⟩, hr, he⟩ := Option.map_eq_some_iff.mp hs
    rw [before, Prod.mk.injEq] at he
    obtain ⟨rfl, hu⟩ := he
    rw [hscan _ w _ hb', hr, Option.map_some, before, List.append_cancel_right hu]

theorem scanString?_of_token {x : List Char} (ht : scanToken? n x = some (t, cs)) (hk : t.kind = .string) :
    scanString? x = some (t.chars, cs) := by
  obtain ⟨scan, hm, hs, -⟩ := scanToken?_scanner ht
  obtain rfl : scan = scanString? := by simpa [scanners, hk] using hm
  exact hs

theorem Laid.no_quote {m : Nat} (h : Laid n cs ts) {x : List Char} (ht : scanToken? m x = some (t, cs)) (hk : t.kind = .string) :
    ∀ c ∈ cs.head?, c ≠ singleQuote := by
  have hs := scanString?_of_token ht hk
  rintro c hc rfl
  cases cs with
  | nil => cases hc
  | cons d r =>
    cases hc
    generalize hq : singleQuote :: r = cs at h
    cases h with
    | nil => cases hq
    | blank hb =>
      cases hq
      exact absurd hb (by decide)
    | @token _ _ u _ hu =>
      rw [← hq] at hu
      -- a quote starts nothing but a quoted text
      have hk' : u.kind = .string := by
        by_contra hne
        have hl := (leads_only (scanToken?_leads hu)).2 .string (Ne.symm hne)
        cases hl
      have hscan := scanString?_of_token hu hk'
      rw [scanString?_rest hs] at hscan
      cases hscan

theorem scanUnsigned?_ne_nil {s r : List Char} (h : scanUnsigned? cs = some (s, r)) : s ≠ [] := by
  obtain ⟨⟨ds, rest⟩, hd, he⟩ := Option.map_eq_some_iff.mp h
  obtain ⟨rfl, -⟩ := Prod.mk.inj he
  cases cs with
  | nil => cases hd
  | cons c cs =>
    simp only [scanDigits?] at hd
    split at hd
    · rename_i hc
      cases hd
      simp [hc]
    · cases hd

theorem IsWord.ne_nil {s : List Char} (h : IsWord s) : s ≠ [] := by
  cases h with
  | name h =>
    cases h
    nofun
  | dotted _ _ => simp

theorem scanner_ne_nil {q : TokenKind × (List Char → Option (List Char × List Char))} (hm : q ∈ scanners) {x s r : List Char}
    (hs : q.2 x = some (s, r)) : s ≠ [] := by
  simp only [scanners, List.mem_cons, List.not_mem_nil, or_false] at hm
  rcases hm with rfl | rfl | rfl | rfl | rfl | rfl | rfl | rfl | rfl <;> dsimp only at hs
  · obtain ⟨-, w, hw⟩ := scanTemplate?_split hs
    simp [hw]
  · obtain ⟨w, hw⟩ := scanString?_shape hs
    simp [hw, quoteText]
  · unfold scanNumber? at hs
    split at hs
    · obtain ⟨q, -, hq⟩ := Option.map_eq_some_iff.mp hs
      simp [← (Prod.mk.inj hq).1]
    · exact scanUnsigned?_ne_nil hs
  · obtain ⟨w, hw, -⟩ := scanParam?_shape hs
    simp [hw]
  · obtain ⟨op, hop⟩ := scanOperator?_shape hs
    rintro hn
    simp [hn, operatorTexts] at hop
  · simp [(scanChar?_split hs).2]
  · simp [(scanChar?_split hs).2]
  · simp [(scanChar?_split hs).2]
  · exact (scanDotted?_shape hs).ne_nil

theorem scanToken?_ne_nil (ht : scanToken? n cs' = some (t, cs)) : t.chars ≠ [] := by
  obtain ⟨scan, hm, hs, -⟩ := scanToken?_scanner ht
  exact scanner_ne_nil hm hs

theorem scanToken?_head (ht : scanToken? n (t.chars ++ cs) = some (t, cs)) :
    ∃ c w, t.chars = c :: w ∧ LeadsOnly t.kind c := by
  obtain ⟨c, w, hw⟩ := List.exists_cons_of_ne_nil (scanToken?_ne_nil ht)
  rw [hw] at ht
  exact ⟨c, w, hw, leads_only (scanToken?_leads ht)⟩

theorem scanToken?_of_scanner {scan : List Char → Option (List Char × List Char)} {kind : TokenKind} {s : List Char}
    (hm : (kind, scan) ∈ scanners) (hs : scan (s ++ cs) = some (s, cs)) (hc : ∀ c ∈ s.head?, LeadsOnly kind c)
    (hne : s ≠ []) (m : Nat) : scanToken? m (s ++ cs) = some (⟨kind, s, m⟩, cs) := by
  obtain ⟨c, w, rfl⟩ := List.exists_cons_of_ne_nil hne
  exact scanToken?_eq hm (hc c rfl) hs m

theorem stopsAtBreaks {kind : TokenKind} {scan : List Char → Option (List Char × List Char)} (hm : (kind, scan) ∈ scanners)
    (ht : kind ≠ .template) (hs : kind ≠ .string) : StopsAtBreaks scan := by
  simp only [scanners, List.mem_cons, Prod.mk.injEq, List.not_mem_nil, or_false] at hm
  rcases hm with hm | hm | hm | hm | hm | hm | hm | hm | hm <;> obtain ⟨hk, rfl⟩ := hm
  · exact absurd hk ht
  · exact absurd hk hs
  · exact scanNumber?_break
  · exact scanParam?_break
  · exact scanOperator?_break
  · exact scanChar?_break (by decide)
  · exact scanChar?_break (by decide)
  · exact scanChar?_break (by decide)
  · exact scanWord?_break

/-- A token stays what it is where the rest stays the same up to where it breaks off, and no quote gets behind a quoted text. -/
theorem scanToken?_recut (ht : scanToken? n (t.chars ++ cs) = some (t, cs)) (h : SameToBreak cs cs')
    (hq : t.kind = .string → ∀ c ∈ cs'.head?, c ≠ singleQuote) (m : Nat) :
    scanToken? m (t.chars ++ cs') = some (⟨t.kind, t.chars, m⟩, cs') := by
  obtain ⟨scan, hm, hs, -⟩ := scanToken?_scanner ht
  obtain ⟨c, w, hw, hc⟩ := scanToken?_head ht
  refine scanToken?_of_scanner hm ?_ (by rw [hw]; rintro _ ⟨⟩; exact hc) (scanToken?_ne_nil ht) m
  by_cases hk : t.kind = .template
  · obtain rfl : scan = scanTemplate? := by simpa [scanners, hk] using hm
    exact scanTemplate?_prefix hs
  by_cases hk' : t.kind = .string
  · obtain rfl : scan = scanString? := by simpa [scanners, hk'] using hm
    obtain ⟨content, hc⟩ := scanString?_shape hs
    rw [hc]
    exact scanString?_quoteText (hq hk')
  exact (stopsAtBreaks hm hk hk').recut hs h

end

/-! ## Texts -/

section
variable {n : Nat} {cs : List Char} {t : Token} {ts : List Token} {f : Token → List Char}

theorem tokensFrom_of_laid (h : Laid n cs ts) {fuel : Nat} (hf : cs.length ≤ fuel) : tokensFrom fuel n cs = .ok ts := by
  induction h generalizing fuel with
  | nil => cases fuel <;> rfl
  | blank hb _ ih =>
    cases fuel with
    | zero => simp at hf
    | succ fuel =>
      rw [tokensFrom, if_pos hb]
      exact ih (by simpa using hf)
  | @token n cs t ts ht _ ih =>
    obtain ⟨c, w, hw, hc⟩ := scanToken?_head ht
    rw [hw, List.cons_append] at ht hf ⊢
    cases fuel with
    | zero => simp at hf
    | succ fuel =>
      simp only [List.length_cons, List.length_append] at hf
      rw [tokensFrom, if_neg (by simp [hc.1])]
      simp only [ht]
      rw [ih (by omega)]
      rfl

/-- A token keeps its text, or is a word that gets a name and a point. -/
def Keeps (f : Token → List Char) (t : Token) : Prop :=
  f t = t.chars ∨ t.kind = .word ∧ ∃ q, IsName q ∧ f t = q ++ '.' :: t.chars

/-- Only a word stands right before a word that gets a name. -/
abbrev Apart (f : Token → List Char) (ts : List Token) : Prop := ts.IsChain fun a b => f b ≠ b.chars → a.kind = .word

theorem blank_of_words {u : Token} {us : List Token} {m : Nat} (ht : scanToken? n (t.chars ++ cs) = some (t, cs))
    (hk : t.kind = .word) (hl : Laid m cs (u :: us)) (hu : u.kind = .word) : ∀ c ∈ cs.head?, isBlank c = true := by
  intro c hc
  rcases hl.lead c hc with hb | ⟨_, ⟨⟩, hlead⟩
  · exact hb
  · obtain ⟨scan, hm, hs, -⟩ := scanToken?_scanner ht
    obtain rfl : scan = scanWord? := by simpa [scanners, hk] using hm
    rw [hu] at hlead
    have := scanDotted?_end hs c hc
    rw [isWordPart_of_isWordStart hlead] at this
    cases this

theorem Apart.blank {m : Nat} (ha : Apart f (t :: ts)) (ht : scanToken? n (t.chars ++ cs) = some (t, cs)) (hl : Laid m cs ts)
    (hk : ∀ u ∈ ts, Keeps f u) : ∀ u ∈ ts.head?, f u ≠ u.chars → ∀ c ∈ cs.head?, isBlank c = true := by
  intro u hu hne
  cases ts with
  | nil => cases hu
  | cons u' us =>
    cases hu
    have hw := ((hk u (List.mem_cons_self ..)).resolve_left hne).1
    exact blank_of_words ht ((List.isChain_cons.mp ha).1 u rfl hne) hl hw

/-- Where no name is put before the first token, the first difference is behind a blank. -/
theorem Laid.sameToBreak (h : Laid n cs ts) (hk : ∀ t ∈ ts, Keeps f t) (ha : Apart f ts)
    (hh : ∀ t ∈ ts.head?, f t ≠ t.chars → ∀ c ∈ cs.head?, isBlank c = true) :
    SameToBreak cs (rewriteTokens f n cs ts) ∧ (rewriteTokens f n cs ts).head? = cs.head? := by
  induction h with
  | nil => exact ⟨.refl [], rfl⟩
  | blank hb hl _ =>
    rw [rewriteTokens_blank hl]
    exact ⟨.broken [] _ _ (breaks_blank hb) (breaks_blank hb), rfl⟩
  | @token n cs t ts ht hl ih =>
    obtain ⟨-, -, -, hp⟩ := scanToken?_scanner ht
    obtain ⟨c, w, hw, hc⟩ := scanToken?_head ht
    have hkeep : f t = t.chars := by
      by_contra hne
      have hb := hh t rfl hne c (by rw [hw]; rfl)
      simp [hc.1] at hb
    have hks : ∀ u ∈ ts, Keeps f u := fun u hu => hk u (List.mem_cons_of_mem _ hu)
    rw [rewriteTokens_token hp, hkeep]
    refine ⟨(ih hks (List.isChain_cons.mp ha).2 (ha.blank ht hl hks)).1.append t.chars, ?_⟩
    rw [hw]
    rfl

/-- **A text with names before some of its words is cut into its tokens with these words replaced.** -/
theorem Laid.recut (h : Laid n cs ts) (hk : ∀ t ∈ ts, Keeps f t) (ha : Apart f ts) (m : Nat) :
    ∃ us, Laid m (rewriteTokens f n cs ts) us ∧ List.Forall₂ (fun t u => u.kind = t.kind ∧ u.chars = f t) ts us := by
  induction h generalizing m with
  | nil => exact ⟨[], .nil m, .nil⟩
  | blank hb hl ih =>
    obtain ⟨us, hus, hr⟩ := ih hk ha (m + 1)
    rw [rewriteTokens_blank hl]
    exact ⟨us, .blank hb hus, hr⟩
  | @token n cs t ts ht hl ih =>
    have hks : ∀ u ∈ ts, Keeps f u := fun u hu => hk u (List.mem_cons_of_mem _ hu)
    have htail := (List.isChain_cons.mp ha).2
    obtain ⟨us, hus, hr⟩ := ih hks htail (m + (f t).length)
    obtain ⟨hrest, hhead⟩ := hl.sameToBreak hks htail (ha.blank ht hl hks)
    obtain ⟨scan, hm, hs, hp⟩ := scanToken?_scanner ht
    rw [rewriteTokens_token hp]
    generalize rewriteTokens f (n + t.chars.length) cs ts = cs' at hus hrest hhead ⊢
    have hcut : scanToken? m (f t ++ cs') = some (⟨t.kind, f t, m⟩, cs') := by
      rcases hk t (List.mem_cons_self ..) with hkeep | ⟨hw, q, hq, hf⟩
      · rw [hkeep]
        exact scanToken?_recut ht hrest (fun hstring => hhead ▸ hl.no_quote ht hstring) m
      · obtain rfl : scan = scanWord? := by simpa [scanners, hw] using hm
        rw [hf, hw]
        refine scanToken?_of_scanner (by simp [scanners]) (scanWord?_qualified hq (scanWord?_break.recut hs hrest)) ?_ (by simp) m
        cases hq with
        | mk hc _ =>
          rintro _ ⟨⟩
          exact isWordStart_leads hc
    exact ⟨⟨t.kind, f t, m⟩ :: us, .token (t := ⟨t.kind, f t, m⟩) hcut hus, .cons ⟨rfl, rfl⟩ hr⟩

theorem Laid.cuts (h : Laid n cs ts) :
    Cuts cs fun r => ∃ us, r = .ok us ∧ List.Forall₂ (fun t u => u.kind = t.kind ∧ u.chars = t.chars) ts us := by
  intro fuel m hf
  have ha : Apart Token.chars ts := (List.pairwise_of_forall fun _ _ hne => absurd rfl hne).isChain
  obtain ⟨us, hus, hr⟩ := h.recut (fun _ _ => .inl rfl) ha m
  rw [h.rewriteTokens_chars] at hus
  exact ⟨us, tokensFrom_of_laid hus hf, hr⟩

end

end Workflow.Predicate
