import Workflow.Proofs.Predicate.Lexing

/-!
# Where tokens lie

The tokens of a text are pieces of it, in order, with nothing but blanks between them. So a text can be written again with
each of its tokens replaced and the rest as it is.
-/

namespace Workflow.Predicate

/-! ## Names -/

theorem isWordPart_of_isWordStart {c : Char} (h : isWordStart c = true) : isWordPart c = true := by
  simp only [isWordStart, Bool.or_eq_true] at h
  rcases h with h | h
  · simp [isWordPart, Char.isAlphanum, h]
  · simp [isWordPart, h]

theorem IsName.parts {s : List Char} (h : IsName s) : ∀ c ∈ s, isWordPart c = true := by
  cases h with
  | mk hc hcs => exact List.forall_mem_cons.mpr ⟨isWordPart_of_isWordStart hc, hcs⟩

theorem IsName.no_colon {s : List Char} (h : IsName s) : ':' ∉ s := fun hm => absurd (h.parts ':' hm) (by decide)

theorem IsWord.no_colon {s : List Char} (h : IsWord s) : ':' ∉ s := by
  induction h with
  | name hn => exact hn.no_colon
  | dotted hn _ ih => simp [hn.no_colon, ih]

/-! ## Scanners split a text -/

section
variable {cs s r : List Char}

theorem closeTemplate_split (h : closeTemplate cs = some (s, r)) : cs = s ++ r ∧ ∃ w, s = w ++ ['\x7d'] := by
  fun_induction closeTemplate cs generalizing s r with
  | case1 rest =>
    cases h
    exact ⟨rfl, ['\x7d'], rfl⟩
  | case2 c rest _ ih =>
    obtain ⟨⟨s', r'⟩, hr, he⟩ := Option.map_eq_some_iff.mp h
    cases he
    obtain ⟨rfl, w, rfl⟩ := ih hr
    exact ⟨rfl, c :: w, rfl⟩
  | case3 => cases h

theorem scanTemplate?_split (h : scanTemplate? cs = some (s, r)) : cs = s ++ r ∧ ∃ w, s = w ++ ['\x7d'] := by
  unfold scanTemplate? at h
  split at h
  · obtain ⟨⟨s', r'⟩, hr, he⟩ := Option.map_eq_some_iff.mp h
    cases he
    obtain ⟨rfl, w, rfl⟩ := closeTemplate_split hr
    exact ⟨rfl, '\x7b' :: '\x7b' :: w, rfl⟩
  · cases h

theorem closeQuote_split (h : closeQuote cs = some (s, r)) : cs = s ++ r := by
  fun_induction closeQuote cs generalizing s r with
  | case1 => cases h
  | case2 =>
    cases h
    rfl
  | case3 => cases h
  | case4 rest s' r' hr ih =>
    cases h
    rw [ih hr]
    rfl
  | case5 =>
    cases h
    rfl
  | case6 =>
    cases h
    rfl
  | case7 c d rest _ ih =>
    obtain ⟨⟨s', r'⟩, hr, he⟩ := Option.map_eq_some_iff.mp h
    cases he
    rw [ih hr]
    rfl

theorem scanString?_split (h : scanString? cs = some (s, r)) : cs = s ++ r := by
  cases cs with
  | nil => cases h
  | cons c rest =>
    simp only [scanString?] at h
    split at h
    · obtain ⟨⟨s', r'⟩, hr, he⟩ := Option.map_eq_some_iff.mp h
      cases he
      rw [closeQuote_split hr]
      rfl
    · cases h

def isNumberPart (c : Char) : Bool := isDecimal c || ['-', '+', '.', 'e', 'E'].contains c

theorem scanDigits?_split (h : scanDigits? cs = some (s, r)) : cs = s ++ r ∧ s.all isNumberPart = true := by
  unfold scanDigits? at h
  split at h
  · split at h
    · cases h
      refine ⟨List.takeWhile_append_dropWhile.symm, List.all_eq_true.mpr fun c hc => ?_⟩
      rw [isNumberPart, List.all_eq_true.mp (List.all_takeWhile ..) c hc, Bool.true_or]
    · cases h
  · cases h

theorem scanFraction_split (h : scanFraction cs = (s, r)) : cs = s ++ r ∧ s.all isNumberPart = true := by
  unfold scanFraction at h
  split at h
  · split at h
    · rename_i hd
      cases h
      obtain ⟨rfl, hn⟩ := scanDigits?_split hd
      exact ⟨rfl, by simpa [isNumberPart] using hn⟩
    · cases h
      exact ⟨rfl, rfl⟩
  · cases h
    exact ⟨rfl, rfl⟩

theorem scanExponent_split (h : scanExponent cs = (s, r)) : cs = s ++ r ∧ s.all isNumberPart = true := by
  unfold scanExponent at h
  split at h
  · rename_i c rest
    split at h
    · rename_i hc
      have he : isNumberPart c = true := by rcases hc with rfl | rfl <;> rfl
      split at h
      · rename_i sign more
        split at h
        · rename_i hs
          have hs : isNumberPart sign = true := by rcases hs with rfl | rfl <;> rfl
          split at h
          · rename_i hd
            cases h
            obtain ⟨rfl, hn⟩ := scanDigits?_split hd
            exact ⟨rfl, by simp [he, hs, hn]⟩
          · cases h
            exact ⟨rfl, rfl⟩
        · split at h
          · rename_i hd
            cases h
            obtain ⟨hr, hn⟩ := scanDigits?_split hd
            exact ⟨by rw [hr]; rfl, by simp [he, hn]⟩
          · cases h
            exact ⟨rfl, rfl⟩
      · cases h
        exact ⟨rfl, rfl⟩
    · cases h
      exact ⟨rfl, rfl⟩
  · cases h
    exact ⟨rfl, rfl⟩

theorem scanUnsigned?_split (h : scanUnsigned? cs = some (s, r)) : cs = s ++ r ∧ s.all isNumberPart = true := by
  obtain ⟨⟨ds, rest⟩, hd, he⟩ := Option.map_eq_some_iff.mp h
  obtain ⟨f, rest', hf⟩ : ∃ f rest', scanFraction rest = (f, rest') := ⟨_, _, rfl⟩
  obtain ⟨e, rest'', hx⟩ : ∃ e rest'', scanExponent rest' = (e, rest'') := ⟨_, _, rfl⟩
  simp only [hf, hx, Prod.mk.injEq] at he
  obtain ⟨rfl, rfl⟩ := he
  obtain ⟨rfl, hdn⟩ := scanDigits?_split hd
  obtain ⟨rfl, hfn⟩ := scanFraction_split hf
  obtain ⟨rfl, hxn⟩ := scanExponent_split hx
  exact ⟨by simp, by simp [hdn, hfn, hxn]⟩

theorem scanNumber?_split (h : scanNumber? cs = some (s, r)) : cs = s ++ r ∧ s.all isNumberPart = true := by
  unfold scanNumber? at h
  split at h
  · obtain ⟨⟨s', r'⟩, hr, he⟩ := Option.map_eq_some_iff.mp h
    cases he
    obtain ⟨rfl, hn⟩ := scanUnsigned?_split hr
    exact ⟨rfl, by simpa [isNumberPart] using hn⟩
  · exact scanUnsigned?_split h

theorem scanName?_split (h : scanName? cs = some (s, r)) : cs = s ++ r ∧ ∀ c ∈ r.head?, isWordPart c = false := by
  cases cs with
  | nil => cases h
  | cons c rest =>
    simp only [scanName?] at h
    split at h
    · cases h
      refine ⟨by rw [List.cons_append, List.takeWhile_append_dropWhile], fun d hd => ?_⟩
      have := List.head?_dropWhile_not isWordPart rest
      rwa [Option.mem_def.mp hd] at this
    · cases h

theorem scanParam?_split (h : scanParam? cs = some (s, r)) : cs = s ++ r ∧ ∀ c ∈ r.head?, isWordPart c = false := by
  unfold scanParam? at h
  split at h
  · obtain ⟨⟨s', r'⟩, hr, he⟩ := Option.map_eq_some_iff.mp h
    cases he
    obtain ⟨rfl, hn⟩ := scanName?_split hr
    exact ⟨rfl, hn⟩
  · cases h

theorem scanOperator?_split (h : scanOperator? cs = some (s, r)) : cs = s ++ r := by
  unfold scanOperator? at h
  split at h <;> cases h <;> rfl

theorem scanChar?_split {c : Char} (h : scanChar? c cs = some (s, r)) : cs = s ++ r ∧ s = [c] := by
  cases cs with
  | nil => cases h
  | cons d rest =>
    simp only [scanChar?] at h
    split at h
    · rename_i hd
      cases h
      exact ⟨rfl, by rw [hd]⟩
    · cases h

theorem scanDotted?_split {fuel : Nat} (h : scanDotted? fuel cs = some (s, r)) : cs = s ++ r := by
  induction fuel generalizing cs s r with
  | zero => cases h
  | succ fuel ih =>
    simp only [scanDotted?] at h
    split at h
    · cases h
    · rename_i hn
      have hs := (scanName?_split hn).1
      split at h
      · rename_i ht
        cases h
        rw [hs, ih ht]
        simp
      · cases h
        exact hs
    · rename_i hn
      cases h
      exact (scanName?_split hn).1

end

/-! ## Tokens -/

section
variable {n : Nat} {cs r : List Char} {t : Token}

theorem scanToken?_scanner (h : scanToken? n cs = some (t, r)) :
    ∃ scan, (t.kind, scan) ∈ scanners ∧ scan cs = some (t.chars, r) ∧ t.position = n := by
  obtain ⟨⟨kind, scan⟩, hm, hs⟩ := List.exists_of_findSome?_eq_some h
  obtain ⟨⟨s, r'⟩, hr, he⟩ := Option.map_eq_some_iff.mp hs
  cases he
  exact ⟨scan, hm, hr, rfl⟩

theorem scanToken?_split (h : scanToken? n cs = some (t, r)) : cs = t.chars ++ r := by
  obtain ⟨scan, hm, hs, -⟩ := scanToken?_scanner h
  simp only [scanners, List.mem_cons, Prod.mk.injEq, List.not_mem_nil, or_false] at hm
  rcases hm with hm | hm | hm | hm | hm | hm | hm | hm | hm <;> obtain ⟨-, rfl⟩ := hm
  · exact (scanTemplate?_split hs).1
  · exact scanString?_split hs
  · exact (scanNumber?_split hs).1
  · exact (scanParam?_split hs).1
  · exact scanOperator?_split hs
  · exact (scanChar?_split hs).1
  · exact (scanChar?_split hs).1
  · exact (scanChar?_split hs).1
  · exact scanDotted?_split hs

theorem scanToken?_leads {c : Char} (h : scanToken? n (c :: cs) = some (t, r)) : leads t.kind c = true := by
  obtain ⟨scan, hm, hs, -⟩ := scanToken?_scanner h
  by_contra hl
  rw [scan_eq_none hm (Bool.not_eq_true _ ▸ hl) cs] at hs
  cases hs

/-! ## Texts -/

inductive Laid : Nat → List Char → List Token → Prop
  | nil (n : Nat) : Laid n [] []
  | blank {n : Nat} {c : Char} {cs : List Char} {ts : List Token} : isBlank c = true → Laid (n + 1) cs ts →
      Laid n (c :: cs) ts
  | token {n : Nat} {cs : List Char} {t : Token} {ts : List Token} : scanToken? n (t.chars ++ cs) = some (t, cs) →
      Laid (n + t.chars.length) cs ts → Laid n (t.chars ++ cs) (t :: ts)

theorem laid_of_tokensFrom {fuel : Nat} {ts : List Token} (h : tokensFrom fuel n cs = .ok ts) : Laid n cs ts := by
  fun_induction tokensFrom fuel n cs generalizing ts with
  | case1 =>
    cases h
    exact .nil _
  | case2 => cases h
  | case3 fuel n c rest hc ih => exact .blank hc (ih h)
  | case4 => cases h
  | case5 fuel n c rest _ t rest' ht ih =>
    cases hts : tokensFrom fuel (n + t.chars.length) rest' with
    | error e =>
      rw [hts] at h
      cases h
    | ok us =>
      rw [hts] at h
      cases h
      have hs := scanToken?_split ht
      rw [hs] at ht ⊢
      exact .token ht (ih hts)

theorem laid_of_tokens {ts : List Token} (h : tokens cs = .ok ts) : Laid 0 cs ts := laid_of_tokensFrom h

theorem Laid.scanned {ts : List Token} (h : Laid n cs ts) :
    ∀ t ∈ ts, ∃ m r, scanToken? m (t.chars ++ r) = some (t, r) := by
  induction h with
  | nil => simp
  | blank _ _ ih => exact ih
  | token ht _ ih => exact List.forall_mem_cons.mpr ⟨⟨_, _, ht⟩, ih⟩

theorem Laid.lead {ts : List Token} (h : Laid n cs ts) :
    ∀ c ∈ cs.head?, isBlank c = true ∨ ∃ t ∈ ts.head?, leads t.kind c = true := by
  intro c hc
  cases h with
  | nil => cases hc
  | blank hb _ =>
    cases hc
    exact .inl hb
  | @token _ cs t ts ht _ =>
    cases hs : t.chars ++ cs with
    | nil => simp [hs] at hc
    | cons d rest =>
      rw [hs] at hc ht
      cases hc
      exact .inr ⟨t, rfl, scanToken?_leads ht⟩

theorem Laid.position_le {ts : List Token} (h : Laid n cs ts) : ∀ t ∈ ts.head?, n ≤ t.position := by
  induction h with
  | nil => simp
  | blank _ _ ih => exact fun t ht => Nat.le_of_succ_le (ih t ht)
  | token hs _ =>
    obtain ⟨-, -, -, hp⟩ := scanToken?_scanner hs
    simp [hp]

/-- A text that starts at `n`, with each of its tokens replaced and the rest as it is. -/
def rewriteTokens (f : Token → List Char) (n : Nat) (cs : List Char) : List Token → List Char
  | [] => cs
  | t :: ts =>
    cs.take (t.position - n) ++ f t ++
      rewriteTokens f (t.position + t.chars.length) (cs.drop (t.position - n + t.chars.length)) ts

theorem rewriteTokens_blank {f : Token → List Char} {c : Char} {ts : List Token} (h : Laid (n + 1) cs ts) :
    rewriteTokens f n (c :: cs) ts = c :: rewriteTokens f (n + 1) cs ts := by
  cases ts with
  | nil => rfl
  | cons t ts =>
    -- the token comes after the blank, which is copied with all that lies before the token
    have hp : n + 1 ≤ t.position := h.position_le t rfl
    obtain ⟨k, hk⟩ := Nat.exists_eq_add_of_le hp
    have hn : t.position - n = k + 1 := by omega
    have hn' : t.position - (n + 1) = k := by omega
    simp only [rewriteTokens, hn, hn', Nat.succ_add, List.take_succ_cons, List.drop_succ_cons, List.cons_append]

theorem rewriteTokens_token {f : Token → List Char} {ts : List Token} (h : t.position = n) :
    rewriteTokens f n (t.chars ++ cs) (t :: ts) = f t ++ rewriteTokens f (n + t.chars.length) cs ts := by
  subst h
  simp [rewriteTokens]

theorem Laid.rewriteTokens_chars {ts : List Token} (h : Laid n cs ts) : rewriteTokens Token.chars n cs ts = cs := by
  induction h with
  | nil => rfl
  | blank _ hl ih => rw [rewriteTokens_blank hl, ih]
  | token hs _ ih =>
    obtain ⟨-, -, -, hp⟩ := scanToken?_scanner hs
    rw [rewriteTokens_token hp, ih]

end

end Workflow.Predicate
