import Workflow.Proofs.Number.Numeral
import Workflow.Proofs.Predicate.Grammar

/-!
# Cutting written text

The first character of a token decides its kind, and what cannot continue the token ends it. So a text that is
written token by token, with blanks between words, is cut into these tokens.
-/

namespace Workflow.Predicate

/-! ## First characters -/

def leads : TokenKind → Char → Bool
  | .template, c => c == '\x7b'
  | .string, c => c == singleQuote
  | .number, c => c == '-' || isDecimal c
  | .param, c => c == ':'
  | .operator, c => c == '<' || c == '>' || c == '!' || c == '='
  | .leftParen, c => c == '('
  | .rightParen, c => c == ')'
  | .comma, c => c == ','
  | .word, c => isWordStart c

/-- A character that is no blank and starts tokens of one kind only. -/
def LeadsOnly (kind : TokenKind) (c : Char) : Prop := isBlank c = false ∧ ∀ k, k ≠ kind → leads k c = false

theorem leadsOnly_iff {kind : TokenKind} {c : Char} :
    LeadsOnly kind c ↔ (!isBlank c && (scanners.map Prod.fst).all fun k => k == kind || !leads k c) = true := by
  simp only [LeadsOnly, Bool.and_eq_true, Bool.not_eq_true', List.all_eq_true, Bool.or_eq_true, beq_iff_eq]
  refine and_congr_right fun _ => ⟨fun h k _ => ?_, fun h k hk => (h k ?_).resolve_left hk⟩
  · by_cases hk : k = kind
    · exact .inl hk
    · exact .inr (h k hk)
  · cases k <;> simp [scanners]

instance (kind : TokenKind) (c : Char) : Decidable (LeadsOnly kind c) := decidable_of_iff _ leadsOnly_iff.symm

theorem scan_eq_none {kind : TokenKind} {scan : List Char → Option (List Char × List Char)} (hm : (kind, scan) ∈ scanners)
    {c : Char} (h : leads kind c = false) (cs : List Char) : scan (c :: cs) = none := by
  simp only [scanners, List.mem_cons, Prod.mk.injEq, List.not_mem_nil, or_false] at hm
  rcases hm with hm | hm | hm | hm | hm | hm | hm | hm | hm <;> obtain ⟨rfl, rfl⟩ := hm <;>
    simp only [leads, beq_eq_false_iff_ne, Bool.or_eq_false_iff] at h
  · unfold scanTemplate?
    split
    · simp_all
    · rfl
  · simp [scanString?, h]
  · -- a sign is consumed before the digits are looked for
    have hd (ds : List Char) : scanUnsigned? (c :: ds) = none := by simp [scanUnsigned?, scanDigits?, h.2]
    unfold scanNumber?
    split
    · simp_all
    · exact hd cs
  · unfold scanParam?
    split
    · simp_all
    · rfl
  · unfold scanOperator?
    split <;> simp_all
  · simp [scanChar?, h]
  · simp [scanChar?, h]
  · simp [scanChar?, h]
  · simp [scanWord?, scanDotted?, scanName?, h]

theorem findSome?_eq {α β : Type} {f : α → Option β} {l : List α} {a : α} {b : β} (ha : a ∈ l) (hb : f a = some b)
    (ho : ∀ x ∈ l, x = a ∨ f x = none) : l.findSome? f = some b := by
  induction l with
  | nil => cases ha
  | cons x l ih =>
    rcases ho x (List.mem_cons_self ..) with rfl | hx
    · simp [hb]
    · have hm : a ∈ l := by
        rcases List.mem_cons.mp ha with rfl | hm
        · rw [hx] at hb
          cases hb
        · exact hm
      rw [List.findSome?_cons, hx]
      exact ih hm fun y hy => ho y (List.mem_cons_of_mem _ hy)

/-- A token whose first character is that of one kind only is found by the scanner of that kind. -/
theorem scanToken?_eq {kind : TokenKind} {scan : List Char → Option (List Char × List Char)} (hm : (kind, scan) ∈ scanners)
    {c : Char} {cs s r : List Char} (ho : LeadsOnly kind c) (hs : scan (c :: cs) = some (s, r))
    (position : Nat) : scanToken? position (c :: cs) = some (⟨kind, s, position⟩, r) := by
  have hk : (scanners.map Prod.fst).Nodup := by decide
  refine findSome?_eq hm (by simp [hs]) fun x hx => ?_
  by_cases he : x.1 = kind
  · exact .inl (List.inj_on_of_nodup_map hk hx hm he)
  · simp [scan_eq_none hx (ho.2 _ he)]

theorem scanToken?_minus {c : Char} (hc : isDecimal c = false) (cs : List Char) (position : Nat) :
    scanToken? position ('-' :: c :: cs) = none := by
  unfold scanToken?
  rw [List.findSome?_eq_none_iff]
  intro x hx
  have hs : x.2 ('-' :: c :: cs) = none := by
    by_cases hk : x.1 = .number
    · simp only [scanners, List.mem_cons, List.not_mem_nil, or_false] at hx
      rcases hx with rfl | rfl | rfl | rfl | rfl | rfl | rfl | rfl | rfl <;> try cases hk
      simp [scanNumber?, scanUnsigned?, scanDigits?, hc]
    · refine scan_eq_none hx ?_ _
      cases hx' : x.1 with
      | number => exact absurd hx' hk
      | _ => rfl
  simp [hs]

/-- What holds of the first 128 characters holds of a character that is one of them. -/
theorem ascii {p : Char → Bool} (h : ∀ n : Fin 128, p (Char.ofNat n) = true) {c : Char} (hc : c.toNat < 128) : p c = true := by
  have := h ⟨c.toNat, hc⟩
  rwa [Char.ofNat_toNat] at this

theorem isWordStart_ascii {c : Char} (h : isWordStart c = true) : c.toNat < 128 := by
  have hu : c.isUpper = decide ('A'.val ≤ c.val ∧ c.val ≤ 'Z'.val) := rfl
  have hl : c.isLower = (decide ('a'.val ≤ c.val) && decide (c.val ≤ 'z'.val)) := rfl
  have ha : c.isAlpha = (c.isUpper || c.isLower) := rfl
  simp only [isWordStart, ha, hu, hl, Bool.or_eq_true, Bool.and_eq_true, decide_eq_true_eq, beq_iff_eq,
    UInt32.le_iff_toNat_le] at h
  rcases h with (⟨-, h⟩ | ⟨-, h⟩) | rfl
  · exact Nat.lt_of_le_of_lt h (by decide)
  · exact Nat.lt_of_le_of_lt h (by decide)
  · decide

theorem isWordStart_leads {c : Char} (h : isWordStart c = true) : LeadsOnly .word c := by
  have hp : (!isWordStart c || decide (LeadsOnly .word c)) = true :=
    ascii (p := fun c => !isWordStart c || decide (LeadsOnly .word c)) (by decide +kernel) (isWordStart_ascii h)
  simpa [h] using hp

theorem isDigit_leads {c : Char} (h : c.isDigit = true) : LeadsOnly .number c := by
  have hc : c.toNat < 128 := Nat.lt_of_le_of_lt (Char.isDigit_iff_toNat.mp h).2 (by decide)
  have hp : (!c.isDigit || decide (LeadsOnly .number c)) = true :=
    ascii (p := fun c => !c.isDigit || decide (LeadsOnly .number c)) (by decide +kernel) hc
  simpa [h] using hp

/-! ## Lexemes before a delimiter -/

/-- What may stand behind a lexeme: nothing, a blank, a comma or a closing parenthesis. -/
def Ended (rest : List Char) : Prop := ∀ c ∈ rest.head?, c ∈ [' ', ',', ')']

theorem Ended.stops {p : Char → Bool} (hp : [' ', ',', ')'].all (fun c => !p c) = true) {rest : List Char} (h : Ended rest) :
    ∀ c ∈ rest.head?, p c = false := by
  intro c hc
  simpa using List.all_eq_true.mp hp c (h c hc)

theorem scanWord?_name {s rest : List Char} (hs : IsName s) (hr : Ended rest) : scanWord? (s ++ rest) = some (s, rest) := by
  cases hs with
  | @mk c s hc hs =>
    obtain ⟨ht, hd⟩ := span_append hs (hr.stops (by decide))
    have hn : scanName? (c :: s ++ rest) = some (c :: s, rest) := by simp [scanName?, hc, ht, hd]
    unfold scanWord?
    rw [List.cons_append, List.length_cons, ← List.cons_append, scanDotted?, hn]
    split
    · rename_i he
      cases he
    · rename_i r he
      cases he
      simp [Ended] at hr
    · rename_i he
      exact he.symm

theorem closeQuote_doubleQuotes {s rest : List Char} (hr : ∀ c ∈ rest.head?, c ≠ singleQuote) :
    closeQuote (doubleQuotes s ++ singleQuote :: rest) = some (doubleQuotes s ++ [singleQuote], rest) := by
  induction s with
  | nil =>
    cases rest with
    | nil => rfl
    | cons d rest =>
      have hd : d ≠ singleQuote := hr d rfl
      simp [doubleQuotes, closeQuote, hd]
  | cons c s ih =>
    by_cases hc : c = singleQuote
    · subst hc
      simp [doubleQuotes_cons_quote, closeQuote, ih]
    · rw [doubleQuotes_cons hc]
      cases ht : doubleQuotes s ++ singleQuote :: rest with
      | nil => simp at ht
      | cons d t =>
        rw [List.cons_append, ht, closeQuote, if_neg hc, ← ht, ih]
        rfl

theorem scanString?_quoteText {s rest : List Char} (hr : ∀ c ∈ rest.head?, c ≠ singleQuote) :
    scanString? (quoteText s ++ rest) = some (quoteText s, rest) := by
  have := closeQuote_doubleQuotes (s := s) hr
  simp [quoteText, scanString?, this]

/-! ## Cutting -/

def Cuts (cs : List Char) (P : Except Stop (List Token) → Prop) : Prop :=
  -- for every position, since the positions of tokens differ and nothing depends on them
  ∀ fuel position, cs.length ≤ fuel → P (tokensFrom fuel position cs)

section
variable {P Q : Except Stop (List Token) → Prop} {cs : List Char}

theorem Cuts.mono (h : Cuts cs P) (hi : ∀ r, P r → Q r) : Cuts cs Q := fun fuel position hl => hi _ (h fuel position hl)

theorem Cuts.nil (h : P (.ok [])) : Cuts [] P := by
  intro fuel position _
  cases fuel <;> exact h

theorem Cuts.blank {c : Char} (hc : isBlank c = true) (h : Cuts cs P) : Cuts (c :: cs) P := by
  intro fuel position hl
  cases fuel with
  | zero => simp at hl
  | succ fuel =>
    rw [tokensFrom, if_pos hc]
    exact h fuel _ (by simpa using hl)

theorem Cuts.stop {c : Char} (hc : isBlank c = false) (hs : ∀ position, scanToken? position (c :: cs) = none)
    (h : ∀ e, P (.error e)) : Cuts (c :: cs) P := by
  intro fuel position hl
  cases fuel with
  | zero => simp at hl
  | succ fuel =>
    rw [tokensFrom, if_neg (by simp [hc])]
    simp only [hs]
    exact h _

theorem Cuts.token {kind : TokenKind} {scan : List Char → Option (List Char × List Char)} {c : Char} {s : List Char}
    (hm : (kind, scan) ∈ scanners) (hc : LeadsOnly kind c) (hs : scan (c :: s ++ cs) = some (c :: s, cs))
    (h : Cuts cs fun r => ∀ t : Token, t.kind = kind → t.chars = c :: s → P (r.map (t :: ·))) : Cuts (c :: s ++ cs) P := by
  intro fuel position hl
  cases fuel with
  | zero => simp at hl
  | succ fuel =>
    rw [List.cons_append] at hs hl ⊢
    rw [tokensFrom, if_neg (by simp [hc.1])]
    simp only [scanToken?_eq hm hc hs position]
    refine h fuel _ ?_ _ rfl rfl
    simp only [List.length_cons, List.length_append] at hl
    omega

theorem Cuts.space (h : Cuts cs P) : Cuts (' ' :: cs) P := .blank (by decide) h

theorem Cuts.word {s : List Char} (hs : IsName s) (he : Ended cs)
    (h : Cuts cs fun r => ∀ t : Token, t.kind = .word → t.chars = s → P (r.map (t :: ·))) : Cuts (s ++ cs) P := by
  have hw := scanWord?_name hs he
  cases hs with
  | mk hc hs => exact .token (by simp [scanners]) (isWordStart_leads hc) hw h

theorem Cuts.quoted {s : List Char} (he : Ended cs)
    (h : Cuts cs fun r => ∀ t : Token, t.kind = .string → t.chars = quoteText s → P (r.map (t :: ·))) :
    Cuts (quoteText s ++ cs) P := by
  have hr : ∀ c ∈ cs.head?, c ≠ singleQuote := by
    intro c hc
    simpa using he.stops (p := (· == singleQuote)) (by decide) c hc
  have hm : (TokenKind.string, scanString?) ∈ scanners := by simp [scanners]
  exact .token hm (by decide) (scanString?_quoteText hr) h

theorem Cuts.mark {kind : TokenKind} {c : Char} (hm : (kind, scanChar? c) ∈ scanners) (hl : LeadsOnly kind c)
    (h : Cuts cs fun r => ∀ t : Token, t.kind = kind → P (r.map (t :: ·))) : Cuts (c :: cs) P := by
  refine .token (s := []) hm hl (by simp [scanChar?]) (h.mono fun r hr t hk _ => hr t hk)

theorem Cuts.leftParen (h : Cuts cs fun r => ∀ t : Token, t.kind = .leftParen → P (r.map (t :: ·))) :
    Cuts ('(' :: cs) P := .mark (by simp [scanners]) (by decide) h

theorem Cuts.rightParen (h : Cuts cs fun r => ∀ t : Token, t.kind = .rightParen → P (r.map (t :: ·))) :
    Cuts (')' :: cs) P := .mark (by simp [scanners]) (by decide) h

theorem Cuts.comma (h : Cuts cs fun r => ∀ t : Token, t.kind = .comma → P (r.map (t :: ·))) :
    Cuts (',' :: cs) P := .mark (by simp [scanners]) (by decide) h

theorem Cuts.operator {op : Operator} (ho : op ≠ .isNull ∧ op ≠ .notNull)
    (h : Cuts (' ' :: cs) fun r => ∀ t : Token, t.kind = .operator → (t.chars, op) ∈ operatorTexts → P (r.map (t :: ·))) :
    Cuts (op.text.toList ++ ' ' :: cs) P := by
  obtain ⟨c, s, hc, hl, hm, hs⟩ : ∃ c s, op.text.toList = c :: s ∧ LeadsOnly .operator c ∧
      (c :: s, op) ∈ operatorTexts ∧ scanOperator? (c :: s ++ ' ' :: cs) = some (c :: s, ' ' :: cs) := by
    cases op with
    | isNull => exact absurd rfl ho.1
    | notNull => exact absurd rfl ho.2
    | _ => exact ⟨_, _, rfl, by decide, by decide, rfl⟩
  rw [hc]
  refine .token (by simp [scanners]) hl hs (h.mono fun r hr t hk ht => hr t hk ?_)
  rw [ht]
  exact hm

end

end Workflow.Predicate
