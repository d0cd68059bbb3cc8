import Workflow.Predicate.Render
import Workflow.Proofs.Text.Split

/-!
# The shape of tokens

A scanner fixes the shape of what it matches: a word is names with points between them, and a quoted
text writes every quote within it twice. The tokens of a text all have the shape of their kind.
-/

namespace Workflow.Predicate

/-! ## Names and words -/

/-- A letter or low line, then letters, digits and low lines. -/
inductive IsName : List Char → Prop
  | mk {c : Char} {cs : List Char} : isWordStart c = true → (∀ d ∈ cs, isWordPart d = true) → IsName (c :: cs)

theorem isName_cons {c : Char} {cs : List Char} : IsName (c :: cs) ↔ (isWordStart c && cs.all isWordPart) = true := by
  rw [Bool.and_eq_true, List.all_eq_true]
  constructor
  · rintro ⟨hc, hcs⟩
    exact ⟨hc, hcs⟩
  · rintro ⟨hc, hcs⟩
    exact .mk hc hcs

instance : DecidablePred IsName
  | [] => .isFalse nofun
  | _ :: _ => decidable_of_iff _ isName_cons.symm

inductive IsWord : List Char → Prop
  | name {s : List Char} : IsName s → IsWord s
  | dotted {s t : List Char} : IsName s → IsWord t → IsWord (s ++ '.' :: t)

theorem IsName.no_dot {s : List Char} (h : IsName s) : '.' ∉ s := by
  cases h with
  | mk hc hcs =>
    intro hm
    rcases List.mem_cons.mp hm with rfl | hm
    · exact absurd hc (by decide)
    · exact absurd (hcs '.' hm) (by decide)

theorem IsWord.name_of_no_dot {s : List Char} (h : IsWord s) (hd : '.' ∉ s) : IsName s := by
  cases h with
  | name h => exact h
  | dotted _ _ => simp at hd

theorem IsWord.after_dot {a b : List Char} (h : IsWord (a ++ '.' :: b)) (ha : '.' ∉ a) : IsWord b := by
  generalize hs : a ++ '.' :: b = s at h
  cases h with
  | name h => exact absurd (hs ▸ List.mem_append_right a (List.mem_cons_self ..)) h.no_dot
  | dotted hn ht => exact (append_sep_inj ha hn.no_dot hs).2 ▸ ht

theorem scanName?_shape {cs s r : List Char} (h : scanName? cs = some (s, r)) : IsName s := by
  cases cs with
  | nil => simp [scanName?] at h
  | cons c rest =>
    simp only [scanName?] at h
    split at h
    · rename_i hc
      simp only [Option.some.injEq, Prod.mk.injEq] at h
      obtain ⟨rfl, -⟩ := h
      exact .mk hc (List.all_eq_true.mp (List.all_takeWhile ..))
    · cases h

theorem scanDotted?_shape {fuel : Nat} {cs s r : List Char} (h : scanDotted? fuel cs = some (s, r)) : IsWord s := by
  induction fuel generalizing cs s r with
  | zero => simp [scanDotted?] at h
  | succ fuel ih =>
    simp only [scanDotted?] at h
    split at h
    · cases h
    · rename_i a rest hn
      split at h
      · rename_i t r' ht
        simp only [Option.some.injEq, Prod.mk.injEq] at h
        obtain ⟨rfl, -⟩ := h
        exact .dotted (scanName?_shape hn) (ih ht)
      · simp only [Option.some.injEq, Prod.mk.injEq] at h
        obtain ⟨rfl, -⟩ := h
        exact .name (scanName?_shape hn)
    · rename_i a r' _ hn
      simp only [Option.some.injEq, Prod.mk.injEq] at h
      obtain ⟨rfl, -⟩ := h
      exact .name (scanName?_shape hn)

/-! ## Quoted texts -/

def quoteText (content : List Char) : List Char := singleQuote :: doubleQuotes content ++ [singleQuote]

theorem doubleQuotes_cons_quote (s : List Char) :
    doubleQuotes (singleQuote :: s) = singleQuote :: singleQuote :: doubleQuotes s := rfl

theorem doubleQuotes_cons {c : Char} (hc : c ≠ singleQuote) (s : List Char) :
    doubleQuotes (c :: s) = c :: doubleQuotes s := by
  simp [doubleQuotes, hc]

theorem undouble_doubleQuotes (s : List Char) : undouble (doubleQuotes s) = s := by
  induction s with
  | nil => rfl
  | cons c s ih =>
    by_cases hc : c = singleQuote
    · subst hc
      rw [doubleQuotes_cons_quote, undouble, if_pos ⟨rfl, rfl⟩, ih]
    · rw [doubleQuotes_cons hc]
      cases hs : doubleQuotes s with
      | nil =>
        rw [hs] at ih
        rw [← ih]; rfl
      | cons d rest =>
        rw [undouble, if_neg (fun h => hc h.1), ← hs, ih]

theorem stringContent_quoteText (s : List Char) : stringContent (quoteText s) = s := by
  simp only [stringContent, quoteText, List.cons_append, List.drop_succ_cons, List.drop_zero, List.dropLast_concat]
  exact undouble_doubleQuotes s

theorem closeQuote_shape {cs s r : List Char} (h : closeQuote cs = some (s, r)) :
    ∃ content, s = doubleQuotes content ++ [singleQuote] := by
  fun_induction closeQuote cs generalizing s r with
  | case1 => cases h
  | case2 =>
    simp only [Option.some.injEq, Prod.mk.injEq] at h
    exact ⟨[], h.1.symm⟩
  | case3 => cases h
  | case4 rest s' r' hr ih =>
    simp only [Option.some.injEq, Prod.mk.injEq] at h
    obtain ⟨content, hc⟩ := ih hr
    exact ⟨singleQuote :: content, by rw [← h.1, hc]; rfl⟩
  | case5 =>
    simp only [Option.some.injEq, Prod.mk.injEq] at h
    exact ⟨[], h.1.symm⟩
  | case6 =>
    simp only [Option.some.injEq, Prod.mk.injEq] at h
    exact ⟨[], h.1.symm⟩
  | case7 c d rest hc ih =>
    obtain ⟨⟨s', r'⟩, hr, he⟩ := Option.map_eq_some_iff.mp h
    simp only [Prod.mk.injEq] at he
    obtain ⟨content, hs⟩ := ih hr
    exact ⟨c :: content, by rw [← he.1, hs, doubleQuotes_cons hc]; rfl⟩

theorem scanString?_shape {cs s r : List Char} (h : scanString? cs = some (s, r)) : ∃ content, s = quoteText content := by
  cases cs with
  | nil => cases h
  | cons c rest =>
    simp only [scanString?] at h
    split at h
    · rename_i hc
      obtain ⟨⟨s', r'⟩, hr, he⟩ := Option.map_eq_some_iff.mp h
      simp only [Prod.mk.injEq] at he
      obtain ⟨content, hs⟩ := closeQuote_shape hr
      exact ⟨content, by rw [← he.1, hc, hs]; rfl⟩
    · cases h

/-! ## Tokens -/

def operatorTexts : List (List Char × Operator) := [
  (['='], .eq), (['!', '='], .ne), (['<', '>'], .ne), (['<'], .lt), (['<', '='], .le), (['>'], .gt), (['>', '='], .ge)]

theorem scanOperator?_shape {cs s r : List Char} (h : scanOperator? cs = some (s, r)) : ∃ op, (s, op) ∈ operatorTexts := by
  unfold scanOperator? at h
  split at h <;> simp only [Option.some.injEq, Prod.mk.injEq, reduceCtorEq] at h
  all_goals obtain ⟨rfl, -⟩ := h
  · exact ⟨.le, by decide⟩
  · exact ⟨.ge, by decide⟩
  · exact ⟨.ne, by decide⟩
  · exact ⟨.ne, by decide⟩
  · exact ⟨.eq, by decide⟩
  · exact ⟨.lt, by decide⟩
  · exact ⟨.gt, by decide⟩

theorem scanParam?_shape {cs s r : List Char} (h : scanParam? cs = some (s, r)) : ∃ name, s = ':' :: name ∧ IsName name := by
  unfold scanParam? at h
  split at h
  · obtain ⟨⟨s', r'⟩, hr, he⟩ := Option.map_eq_some_iff.mp h
    simp only [Prod.mk.injEq] at he
    exact ⟨s', he.1.symm, scanName?_shape hr⟩
  · cases h

def Token.Shaped (t : Token) : Prop :=
  match t.kind with
  | .string => ∃ content, t.chars = quoteText content
  | .param => ∃ name, t.chars = ':' :: name ∧ IsName name
  | .operator => ∃ op, (t.chars, op) ∈ operatorTexts
  | .word => IsWord t.chars
  | _ => True

theorem scanToken?_shaped {position : Nat} {cs r : List Char} {t : Token} (h : scanToken? position cs = some (t, r)) :
    t.Shaped := by
  obtain ⟨⟨kind, scan⟩, hm, hs⟩ := List.exists_of_findSome?_eq_some h
  obtain ⟨⟨s, r'⟩, hr, he⟩ := Option.map_eq_some_iff.mp hs
  simp only [Prod.mk.injEq] at he
  obtain ⟨rfl, -⟩ := he
  simp only [scanners, List.mem_cons, Prod.mk.injEq, List.not_mem_nil, or_false] at hm
  rcases hm with hm | hm | hm | hm | hm | hm | hm | hm | hm <;> obtain ⟨rfl, rfl⟩ := hm
  case inr.inl => exact scanString?_shape hr
  case inr.inr.inr.inl => exact scanParam?_shape hr
  case inr.inr.inr.inr.inl => exact scanOperator?_shape hr
  case inr.inr.inr.inr.inr.inr.inr.inr => exact scanDotted?_shape hr
  all_goals trivial

theorem tokensFrom_shaped {fuel position : Nat} {cs : List Char} {ts : List Token}
    (h : tokensFrom fuel position cs = .ok ts) : ∀ t ∈ ts, t.Shaped := by
  fun_induction tokensFrom fuel position cs generalizing ts with
  | case1 =>
    cases h
    simp
  | case2 => cases h
  | case3 fuel position c rest _ ih => exact ih h
  | case4 => cases h
  | case5 fuel position c rest _ t rest' ht ih =>
    cases hts : tokensFrom fuel (position + t.chars.length) rest' with
    | error e => rw [hts] at h; cases h
    | ok us =>
      rw [hts] at h
      cases h
      exact List.forall_mem_cons.mpr ⟨scanToken?_shaped ht, ih hts⟩

theorem tokens_shaped {cs : List Char} {ts : List Token} (h : tokens cs = .ok ts) : ∀ t ∈ ts, t.Shaped :=
  tokensFrom_shaped h

end Workflow.Predicate
