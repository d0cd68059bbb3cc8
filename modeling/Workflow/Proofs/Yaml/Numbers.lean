import Workflow.Proofs.Predicate.Numerals
import Workflow.Proofs.Text.Split
import Workflow.Proofs.Value.Json
import Workflow.Proofs.Yaml.Word
import Workflow.Yaml.Scalar

/-!
# Numbers in a document

An integer is read as that integer, and a number with a point as that number. A number that is written with an exponent
but without a point is no number in a document: it is read as its text.
-/

namespace Workflow

open Yaml

/-! ## Characters -/

def isNumeralChar (c : Char) : Bool := "0123456789-+.e".toList.contains c

structure NumeralCharSpec (c : Char) : Prop where
  word : isWordChar c = true
  lower : c.toLower = c
  blank : isBlank c = false
  mark : c ≠ '_'
  colon : c ≠ ':'

theorem isNumeralChar_spec {c : Char} (h : isNumeralChar c = true) : NumeralCharSpec c := by
  have hall : ("0123456789-+.e".toList.all fun c =>
      isWordChar c && c.toLower == c && !isBlank c && c != '_' && c != ':') = true := by decide
  have hc := List.all_eq_true.mp hall c (by simpa [isNumeralChar] using h)
  simp only [Bool.and_eq_true, beq_iff_eq, Bool.not_eq_true', bne_iff_ne] at hc
  exact ⟨hc.1.1.1.1, hc.1.1.1.2, hc.1.1.2, hc.1.2, hc.2⟩

theorem isNumeralChar_of_isDigit {c : Char} (h : c.isDigit = true) : isNumeralChar c = true := by
  have hc := Char.isDigit_iff_toNat.mp h
  have hall : ∀ n < 58, 48 ≤ n → isNumeralChar (Char.ofNat n) = true := by decide
  have hn := hall c.toNat (by have := hc.2; change c.toNat ≤ 57 at this; omega) hc.1
  rwa [Char.ofNat_toNat] at hn

theorem Numeral.WellFormed.chars {n : Numeral} (h : n.WellFormed) : ∀ c ∈ n.unsigned, isNumeralChar c = true := by
  have hdigits {ds : List Char} (hds : Digits ds) : ∀ c ∈ ds, isNumeralChar c = true := by
    intro c hc
    exact isNumeralChar_of_isDigit (hds c hc)
  intro c hc
  simp only [Numeral.unsigned, List.mem_append] at hc
  rcases hc with (hc | hc) | hc
  · exact hdigits h.whole c hc
  · cases hf : n.fraction with
    | nil =>
      rw [hf] at hc
      cases hc
    | cons d ds =>
      have hp : Numeral.pointText (d :: ds) = '.' :: d :: ds := rfl
      rw [hf, hp] at hc
      rcases List.mem_cons.mp hc with rfl | hc
      · decide
      · exact hdigits h.fraction c (hf ▸ hc)
  · cases hx : n.exponent with
    | none =>
      rw [hx] at hc
      cases hc
    | some y =>
      obtain ⟨negative, ds⟩ := y
      rw [hx, Numeral.powerText] at hc
      rcases List.mem_cons.mp hc with rfl | hc
      · decide
      rcases List.mem_cons.mp hc with rfl | hc
      · cases negative
        all_goals decide
      · exact hdigits (h.exponent _ hx).1 c hc

/-! ## Words that are no numbers -/

def startsNumber (c : Char) : Bool := c.isDigit || c == '-'

theorem Numeral.WellFormed.text_head {n : Numeral} (h : n.WellFormed) :
    ∃ d ds, n.text = d :: ds ∧ startsNumber d = true := by
  obtain ⟨d, ds, hd, hdigit⟩ := Predicate.unsigned_head h
  unfold Numeral.text
  split
  · exact ⟨'-', n.unsigned, rfl, rfl⟩
  · exact ⟨d, ds, by rw [hd]; rfl, by simp [startsNumber, hdigit]⟩

/-- What starts like a number is none of the words that do not. -/
theorem contains_eq_false (words : List String) {s : String} {d : Char} {ds : List Char} (hs : s.toList = d :: ds)
    (hd : startsNumber d = true) (hw : ∀ w ∈ words, w.toList.head?.any startsNumber = false) : words.contains s = false := by
  rw [List.contains_eq_mem, decide_eq_false_iff_not]
  intro hm
  have he := hw s hm
  rw [hs, List.head?_cons, Option.any_some, hd] at he
  cases he

theorem ofText_number {s : String} {d : Char} {ds : List Char} (hs : s.toList = d :: ds) (hd : startsNumber d = true) :
    Tag.ofText s = if Tag.isFloat s.toList then Tag.float else if Tag.isInteger s.toList then Tag.int
      else if Tag.isTime s.toList then Tag.time else Tag.text := by
  have htrue := contains_eq_false Tag.trueWords hs hd (by decide)
  have hfalse := contains_eq_false Tag.falseWords hs hd (by decide)
  have hnull := contains_eq_false Tag.nullWords hs hd (by decide)
  have hmerge : s ≠ "<<" := by
    rintro rfl
    cases hs
    cases hd
  have hvalue : s ≠ "=" := by
    rintro rfl
    cases hs
    cases hd
  simp only [Tag.ofText, htrue, hfalse, hnull, hmerge, hvalue, Bool.or_self, Bool.false_eq_true, if_false]

namespace Numeral

variable {n : Numeral}

/-! ## Parts of a number -/

theorem WellFormed.unsigned_text (h : n.WellFormed) : Tag.unsigned n.text = n.unsigned := by
  obtain ⟨d, ds, hd, hdigit⟩ := Predicate.unsigned_head h
  unfold text
  split
  · rfl
  · rw [hd, List.nil_append]
    unfold Tag.unsigned
    split
    · rename_i he
      cases he
      cases hdigit
    · rename_i he
      cases he
      cases hdigit
    · rfl

theorem WellFormed.unsigned_ne (h : n.WellFormed) {w : List Char} (hw : w.head?.any Char.isDigit = false) :
    n.unsigned ≠ w := by
  obtain ⟨d, ds, hd, hdigit⟩ := Predicate.unsigned_head h
  intro he
  rw [← he, hd, List.head?_cons, Option.any_some, hdigit] at hw
  cases hw

theorem unsigned_point (hf : n.fraction ≠ []) :
    n.unsigned = n.whole ++ '.' :: (n.fraction ++ powerText n.exponent) := by
  obtain ⟨d, ds, hd⟩ := List.exists_cons_of_ne_nil hf
  rw [unsigned, hd, List.append_assoc]
  rfl

theorem WellFormed.no_colon (h : n.WellFormed) : ':' ∉ n.unsigned := by
  intro hc
  exact (isNumeralChar_spec (h.chars ':' hc)).colon rfl

theorem WellFormed.isWhole (h : n.WellFormed) : Tag.isWhole n.whole = true := by
  obtain ⟨d, ds, hd⟩ := List.exists_cons_of_ne_nil h.someWhole
  have hdigits := h.whole
  rw [hd] at hdigits ⊢
  have hhead := hdigits d List.mem_cons_self
  have htail : ds.all Tag.isDigitOrMark = true := by
    rw [List.all_eq_true]
    intro e he
    simp [Tag.isDigitOrMark, hdigits.tail e he]
  rw [Tag.isWhole, hhead, htail]
  rfl

theorem WellFormed.isExponent (h : n.WellFormed) : Tag.isExponent (powerText n.exponent) = true := by
  cases hx : n.exponent with
  | none => rfl
  | some y =>
    obtain ⟨negative, ds⟩ := y
    obtain ⟨hd, hne⟩ := h.exponent _ hx
    have hfilled : Tag.isFilled Char.isDigit ds = true := by
      have hall : ds.all Char.isDigit = true := List.all_eq_true.mpr hd
      simp [Tag.isFilled, hall, hne]
    rw [powerText, Tag.isExponent, hfilled]
    cases negative
    all_goals rfl

theorem not_point_of_digits {ds : List Char} (h : Digits ds) : ∀ c ∈ ds, (c != '.') = true := by
  intro c hc
  have hd := h c hc
  rw [bne_iff_ne]
  rintro rfl
  cases hd

theorem WellFormed.not_point_power (h : n.WellFormed) : ∀ c ∈ powerText n.exponent, (c != '.') = true := by
  intro c hc
  cases hx : n.exponent with
  | none =>
    rw [hx] at hc
    cases hc
  | some y =>
    obtain ⟨negative, ds⟩ := y
    rw [hx, powerText] at hc
    rcases List.mem_cons.mp hc with rfl | hc
    · rfl
    rcases List.mem_cons.mp hc with rfl | hc
    · cases negative
      all_goals rfl
    · exact not_point_of_digits (h.exponent _ hx).1 c hc

theorem powerText_head {p : Char → Bool} (hp : p 'e' = false) (x : Option (Bool × List Char)) :
    ∀ c ∈ (powerText x).head?, p c = false := by
  intro c hc
  cases x with
  | none => cases hc
  | some y =>
    cases hc
    exact hp

theorem WellFormed.isFloat (h : n.WellFormed) (hf : n.fraction ≠ []) : Tag.isFloat n.text = true := by
  have hu := unsigned_point hf
  have hhead : ∀ c ∈ ('.' :: (n.fraction ++ powerText n.exponent)).head?, (c != '.') = false := by simp
  obtain ⟨hbefore, hafter⟩ := span_append (not_point_of_digits h.whole) hhead
  have hmarks : ∀ c ∈ n.fraction, Tag.isDigitOrMark c = true := by
    intro c hc
    simp [Tag.isDigitOrMark, h.fraction c hc]
  obtain ⟨-, hbehind⟩ := span_append hmarks (powerText_head (p := Tag.isDigitOrMark) (by decide) n.exponent)
  have hpoint : Tag.afterPoint? n.unsigned = some (n.fraction ++ powerText n.exponent) := by
    rw [Tag.afterPoint?, hu, hafter]
  have hfirst : Tag.beforePoint n.unsigned = n.whole := by rw [Tag.beforePoint, hu, hbefore]
  simp only [Tag.isFloat, h.unsigned_text, hpoint, hfirst, hbehind, h.isWhole, h.isExponent, Bool.and_self, Bool.true_or,
    Bool.or_true]

theorem WellFormed.isFloat_pointless (h : n.WellFormed) (hf : n.fraction = []) : Tag.isFloat n.text = false := by
  obtain ⟨d, ds, ht, hd⟩ := h.text_head
  obtain ⟨e, es, hu, he⟩ := Predicate.unsigned_head h
  have hpoint : Tag.afterPoint? n.unsigned = none := by
    have hall : ∀ c ∈ n.unsigned, (c != '.') = true := by
      intro c hc
      rw [unsigned, hf, pointText, List.append_nil] at hc
      rcases List.mem_append.mp hc with hc | hc
      · exact not_point_of_digits h.whole c hc
      · exact h.not_point_power c hc
    have hend : ∀ c ∈ ([] : List Char).head?, (c != '.') = false := by simp
    obtain ⟨-, hnone⟩ := span_append hall hend
    rw [List.append_nil] at hnone
    rw [Tag.afterPoint?, hnone]
  have hinfinite := contains_eq_false Tag.infiniteWords (String.toList_ofList.trans hu) (by simp [startsNumber, he]) (by decide)
  have hnan := contains_eq_false Tag.nanWords (String.toList_ofList.trans ht) hd (by decide)
  simp only [Tag.isFloat, h.unsigned_text, hinfinite, hnan, hpoint, Bool.or_self]

theorem WellFormed.isInteger (h : n.WellFormed) (hf : n.fraction = []) (hx : n.exponent = none)
    (hz : n.whole.head? = some '0' → n.whole = ['0']) : Tag.isInteger n.text = true := by
  have hu : n.unsigned = n.whole := by simp [unsigned, hf, hx, pointText, powerText]
  obtain ⟨d, ds, hd⟩ := List.exists_cons_of_ne_nil h.someWhole
  rw [Tag.isInteger, h.unsigned_text, hu]
  by_cases h0 : d = '0'
  · rw [hz (by rw [hd, h0]; rfl)]
    rfl
  · have hpositive : Tag.isPositive n.whole = true := by
      have hw := h.isWhole
      rw [hd] at hw ⊢
      unfold Tag.isPositive
      split
      · rename_i he
        cases he
        exact absurd rfl h0
      · exact hw
    rw [hd] at hpositive ⊢
    split
    all_goals first | (rename_i he; cases he; exact absurd rfl h0) | simp [hpositive]

theorem power_form (hf : n.fraction = []) (hx : n.exponent ≠ none) :
    ∃ rest, n.unsigned = n.whole ++ 'e' :: rest := by
  cases he : n.exponent with
  | none => exact absurd he hx
  | some y =>
    obtain ⟨negative, ds⟩ := y
    exact ⟨_, by rw [unsigned, hf, he, pointText, powerText, List.append_nil]⟩

theorem WellFormed.isInteger_power (h : n.WellFormed) (hf : n.fraction = []) (hx : n.exponent ≠ none) :
    Tag.isInteger n.text = false := by
  obtain ⟨rest, hu⟩ := power_form hf hx
  obtain ⟨d, ds, hd⟩ := List.exists_cons_of_ne_nil h.someWhole
  have hdigits := h.whole
  rw [hd] at hu hdigits
  have hsixty : Tag.isBaseSixty Tag.isPositive n.unsigned = false := by
    rw [Tag.isBaseSixty, partsBetween_no_sep h.no_colon]
  have hsecond (c : Char) (hc : c.isDigit = false) (he : c ≠ 'e') (cs : List Char) : n.unsigned ≠ d :: c :: cs := by
    intro h
    rw [hu, List.cons_append, List.cons.injEq] at h
    cases ds with
    | nil =>
      rw [List.nil_append, List.cons.injEq] at h
      exact he h.2.1.symm
    | cons e es =>
      rw [List.cons_append, List.cons.injEq] at h
      have hdigit := hdigits e (by simp)
      rw [h.2.1, hc] at hdigit
      cases hdigit
  have hall (p : Char → Bool) (hp : p 'e' = false) : (ds ++ 'e' :: rest).all p = false := by
    rw [List.all_eq_false]
    exact ⟨'e', by simp, by simp [hp]⟩
  rw [Tag.isInteger, h.unsigned_text, hsixty, Bool.or_false]
  split
  · rename_i he
    rw [hu, List.cons_append, List.cons.injEq] at he
    exact absurd (by rw [hu, List.cons_append, he.1, he.2]) (hsecond 'b' (by decide) (by decide) _)
  · rename_i he
    rw [hu, List.cons_append, List.cons.injEq] at he
    exact absurd (by rw [hu, List.cons_append, he.1, he.2]) (hsecond 'x' (by decide) (by decide) _)
  · rename_i he
    rw [hu, List.cons_append, List.cons.injEq] at he
    rw [← he.2]
    exact hall _ (by decide)
  · rename_i _ _ hzero
    have hd0 : d ≠ '0' := by
      rintro rfl
      exact hzero _ hu
    rw [hu, List.cons_append]
    unfold Tag.isPositive
    split
    · rename_i he
      cases he
      exact absurd rfl hd0
    · rw [Tag.isWhole, hall _ (by decide), Bool.and_false]

theorem digitRun_year {cs rest : List Char} {k : Nat} (h : Tag.digitRun 4 4 cs = some (k, rest)) :
    ∃ ds, Digits ds ∧ ds ≠ [] ∧ cs = ds ++ rest := by
  simp only [Tag.digitRun] at h
  split at h
  · rename_i hlen
    cases h
    refine ⟨(cs.take 4).takeWhile Char.isDigit, ?_, ?_, ?_⟩
    · intro c hc
      exact List.all_eq_true.mp List.all_takeWhile c hc
    · intro hnil
      rw [hnil, List.length_nil] at hlen
      omega
    · have hprefix := (List.takeWhile_prefix Char.isDigit).trans (List.take_prefix 4 cs)
      exact (List.prefix_iff_eq_append.mp hprefix).symm
  · cases h

theorem WellFormed.isTime_power (h : n.WellFormed) (hf : n.fraction = []) (hx : n.exponent ≠ none) :
    Tag.isTime n.text = false := by
  obtain ⟨more, hu⟩ := power_form hf hx
  have hnone : Tag.timeFields? n.text = none := by
    cases hy : Tag.digitRun 4 4 n.text with
    | none => simp [Tag.timeFields?, hy]
    | some y =>
      obtain ⟨k, rest⟩ := y
      obtain ⟨ds, hds, hne, ht⟩ := digitRun_year hy
      -- digits end with the exponent, or have a sign in front of them
      have hsign : Tag.sign '-' rest = none := by
        cases rest with
        | nil => rfl
        | cons c cs =>
          rw [Tag.sign, if_neg]
          rintro rfl
          unfold text at ht
          split at ht
          · obtain ⟨d, es, hd⟩ := List.exists_cons_of_ne_nil hne
            rw [hd, List.cons_append, List.cons_append, List.cons.injEq] at ht
            have hdigit := hds d (hd ▸ List.mem_cons_self)
            rw [← ht.1] at hdigit
            cases hdigit
          · rw [List.nil_append, hu] at ht
            obtain ⟨-, hrest⟩ := digits_inj h.whole hds (by simp) (by simp) ht
            cases hrest
      simp [Tag.timeFields?, hy, hsign]
  rw [Tag.isTime, hnone]

/-! ## Reading numbers -/

theorem WellFormed.text_chars (h : n.WellFormed) : ∀ c ∈ n.text, isNumeralChar c = true := by
  unfold text
  split
  · exact List.forall_mem_cons.mpr ⟨by decide, h.chars⟩
  · exact h.chars

theorem WellFormed.filter_marks (h : n.WellFormed) : n.text.filter (· != '_') = n.text := by
  rw [List.filter_eq_self]
  intro c hc
  simpa using (isNumeralChar_spec (h.text_chars c hc)).mark

theorem map_toLower_eq {cs : List Char} (h : ∀ c ∈ cs, isNumeralChar c = true) : cs.map Char.toLower = cs := by
  rw [List.map_congr_left fun c hc => (isNumeralChar_spec (h c hc)).lower, List.map_id']

theorem WellFormed.signed_text (h : n.WellFormed) : signed n.text = .ok (n.negative, n.unsigned) := by
  obtain ⟨d, ds, hd, hdigit⟩ := Predicate.unsigned_head h
  unfold text
  cases n.negative with
  | true => rfl
  | false =>
    rw [if_neg Bool.false_ne_true, List.nil_append, hd]
    unfold signed
    split
    · rename_i he
      cases he
    · rename_i he
      cases he
      cases hdigit
    · rename_i he
      cases he
      cases hdigit
    · rfl

theorem stripBlanks_eq {cs : List Char} (h : ∀ c ∈ cs, isBlank c = false) : stripBlanks cs = cs := by
  have hdrop {ds : List Char} (hd : ∀ c ∈ ds, isBlank c = false) : ds.dropWhile isBlank = ds := by
    cases ds with
    | nil => rfl
    | cons d ds => rw [List.dropWhile_cons_of_neg (by simp [hd d])]
  rw [stripBlanks, dropBlanks, hdrop h, dropBlanksRight, hdrop (by simpa using h), List.reverse_reverse]

theorem WellFormed.stripBlanks_unsigned (h : n.WellFormed) : stripBlanks n.unsigned = n.unsigned :=
  stripBlanks_eq fun c hc => (isNumeralChar_spec (h.chars c hc)).blank

end Numeral

/-! ## Integers -/

theorem foldlM_digits {cs : List Char} (h : Digits cs) (n : Nat) :
    cs.foldlM (fun n c => (digitValue? c).bind fun d => if d < 10 then some (10 * n + d) else none) n =
      some (cs.foldl (fun n c => 10 * n + (decimalValue? c).getD 0) n) := by
  induction cs generalizing n with
  | nil => rfl
  | cons c cs ih =>
    have hc := h c List.mem_cons_self
    have hvalue := decimalValue?_of_isDigit hc
    have hdigit : digitValue? c = some (c.toNat - 48) := by rw [digitValue?, hvalue, Option.some_or]
    have hlt : c.toNat - 48 < 10 := by
      have hn := (Char.isDigit_iff_toNat.mp hc).2
      have h57 : '9'.toNat = 57 := rfl
      omega
    rw [List.foldlM_cons, hdigit, Option.bind_some, if_pos hlt, List.foldl_cons, hvalue]
    exact ih h.tail _

theorem digitsIn?_decimal {cs : List Char} (h : Digits cs) (hne : cs ≠ []) : digitsIn? 10 cs = some (decimalNumeral cs) := by
  rw [digitsIn?, if_neg hne]
  exact foldlM_digits h 0

theorem decimalDigits_head_ne_zero {n : Nat} (hn : 0 < n) : (decimalDigits n).head? ≠ some '0' := by
  rw [decimalDigits_eq]
  induction n using Nat.strongRecOn with
  | ind n ih =>
    by_cases hlt : n < 10
    · have hall : ∀ n < 10, 0 < n → [Nat.digitChar n].head? ≠ some '0' := by decide
      rw [Nat.toDigits_of_lt_base hlt]
      exact hall n hlt hn
    · have hpos : 0 < n / 10 := by omega
      have hhigh := ih (n / 10) (by omega) hpos
      rw [Nat.toDigits_of_base_le (by decide) (by omega)]
      obtain ⟨d, ds, hd⟩ := List.exists_cons_of_ne_nil (Nat.toDigits_ne_nil (b := 10) (n := n / 10))
      rw [hd] at hhigh ⊢
      exact hhigh

theorem decimalDigits_zero : decimalDigits 0 = ['0'] := by decide

theorem decimalDigits_nonblank (n : Nat) : ∀ c ∈ decimalDigits n, isBlank c = false := fun c hc =>
  (isNumeralChar_spec (isNumeralChar_of_isDigit (decimalDigits_digits n c hc))).blank

theorem integerIn_decimalDigits {n : Nat} (hn : 0 < n) : integerIn 10 (decimalDigits n) = .ok (n : Int) := by
  have hstrip := Numeral.stripBlanks_eq (decimalDigits_nonblank n)
  have hread := digitsIn?_decimal (decimalDigits_digits n) (decimalDigits_ne_nil n)
  have hhead := decimalDigits_head_ne_zero hn
  rw [decimalNumeral_decimalDigits] at hread
  obtain ⟨d, ds, hd, hdigit⟩ := decimalDigits_head n
  have hmark : dropBaseMark 10 (d :: ds) = d :: ds := by
    unfold dropBaseMark
    split
    · rename_i he
      cases he
      rw [hd] at hhead
      exact absurd rfl hhead
    · rfl
  have hminus : d ≠ '-' := by
    rintro rfl
    cases hdigit
  have hplus : d ≠ '+' := by
    rintro rfl
    cases hdigit
  rw [hd] at hread hstrip ⊢
  simp [integerIn, hstrip, hminus, hplus, hmark, hread]

theorem unsignedInteger_decimalDigits (n : Nat) : unsignedInteger (decimalDigits n) = .ok (n : Int) := by
  rcases Nat.eq_zero_or_pos n with rfl | hn
  · rw [decimalDigits_zero]
    rfl
  · have hread := integerIn_decimalDigits hn
    have hhead := decimalDigits_head_ne_zero hn
    have hcolon : (decimalDigits n).contains ':' = false := by
      rw [List.contains_eq_mem, decide_eq_false_iff_not]
      intro hc
      exact absurd (decimalDigits_digits n ':' hc) (by decide)
    obtain ⟨d, ds, hd, -⟩ := decimalDigits_head n
    rw [hd] at hread hhead hcolon ⊢
    have h0 : d ≠ '0' := by simpa using hhead
    unfold unsignedInteger
    split
    all_goals first | (rename_i he; cases he; done) | (rename_i he; cases he; exact absurd rfl h0) | skip
    rw [hcolon, if_neg Bool.false_ne_true]
    exact hread

theorem integer_toString (n : Int) : integer (toString n) = .ok n := by
  have hw := Predicate.integerNumeral_wellFormed n
  have hu : (Predicate.integerNumeral n).unsigned = decimalDigits n.natAbs := by
    simp [Predicate.integerNumeral, Numeral.unsigned, Numeral.pointText, Numeral.powerText]
  rw [integer, Predicate.toString_toList, hw.filter_marks, hw.signed_text, hu]
  simp only [bind, Except.bind, unsignedInteger_decimalDigits, pure, Except.pure, Predicate.integerNumeral,
    decide_eq_true_eq]
  split
  · congr 1
    omega
  · congr 1
    omega

theorem ofText_integer (n : Int) : Tag.ofText (toString n) = Tag.int := by
  have hw := Predicate.integerNumeral_wellFormed n
  obtain ⟨d, ds, ht, hd⟩ := hw.text_head
  rw [← Predicate.toString_toList] at ht
  have hzero : (Predicate.integerNumeral n).whole.head? = some '0' → (Predicate.integerNumeral n).whole = ['0'] := by
    intro hhead
    rcases Nat.eq_zero_or_pos n.natAbs with h0 | hpos
    · rw [Predicate.integerNumeral, h0]
      exact decimalDigits_zero
    · exact absurd hhead (decimalDigits_head_ne_zero hpos)
  rw [ofText_number ht hd, Predicate.toString_toList, hw.isFloat_pointless rfl, hw.isInteger rfl rfl hzero]
  rfl

/-! ## Floats -/

theorem Binary64.negate_ofDecimal (digits : Nat) (exponent : Int) :
    (Binary64.ofDecimal false digits exponent).negate = .ofDecimal true digits exponent := by
  have hratio (num den : Nat) : (Binary64.ofRatio false num den).negate = .ofRatio true num den := by
    simp only [Binary64.ofRatio]
    split_ifs
    all_goals rfl
  simp only [Binary64.ofDecimal]
  split_ifs
  · rfl
  · rfl
  · rfl
  · exact hratio _ _
  · exact hratio _ _

theorem exponentText?_powerText {x : Option (Bool × List Char)} (h : ∀ y ∈ x, Digits y.2 ∧ y.2 ≠ []) :
    exponentText? (Numeral.powerText x) = some (Numeral.tens x) := by
  cases x with
  | none => rfl
  | some y =>
    obtain ⟨negative, ds⟩ := y
    obtain ⟨hd, hne⟩ := h _ rfl
    have hall : ∀ c ∈ ds, c.isDigit = true := hd
    cases negative
    all_goals simpa [Numeral.powerText, exponentText?, Numeral.tens, hne] using hall

section
variable {n : Numeral}

theorem floatChars?_unsigned (h : n.WellFormed) (hf : n.fraction ≠ []) :
    floatChars? n.unsigned = some (.ofDecimal false n.digits n.power) := by
  obtain ⟨d, ds, hd, hdigit⟩ := Predicate.unsigned_head h
  have hstart : floatChars? n.unsigned = unsignedFloat? false n.unsigned := by
    rw [hd]
    unfold floatChars?
    split
    · rename_i he
      cases he
      cases hdigit
    · rename_i he
      cases he
      cases hdigit
    · rfl
  have hword (w : String) (hw : w.toList.head?.any Char.isDigit = false) : String.ofList n.unsigned ≠ w := by
    intro he
    exact h.unsigned_ne hw (by rw [← he, String.toList_ofList])
  have hhead : ∀ c ∈ ('.' :: (n.fraction ++ Numeral.powerText n.exponent)).head?, c.isDigit = false := by simp
  obtain ⟨hwhole, hrest⟩ := span_append h.whole hhead
  obtain ⟨hfraction, hpower⟩ := span_append h.fraction
    (Numeral.powerText_head (p := Char.isDigit) (by decide) n.exponent)
  have hx := exponentText?_powerText h.exponent
  rw [hstart, unsignedFloat?]
  simp only [Numeral.map_toLower_eq h.chars, hword "inf" (by decide), hword "infinity" (by decide), hword "nan" (by decide), or_self, if_false]
  rw [Numeral.unsigned_point hf]
  simp only [hwhole, hrest, hfraction, hpower, h.someWhole, false_and, if_false, hx, Option.map_some]
  rfl

theorem float_text (h : n.WellFormed) (hf : n.fraction ≠ []) :
    Yaml.float (String.ofList n.text) = .ok (.ofDecimal n.negative n.digits n.power) := by
  have hpart : floatPart n.unsigned = .ok (.ofDecimal false n.digits n.power) := by
    rw [floatPart, h.stripBlanks_unsigned, floatChars?_unsigned h hf]
  have hword (w : List Char) (hw : w.head?.any Char.isDigit = false) : n.unsigned ≠ w := h.unsigned_ne hw
  have hcolon : n.unsigned.contains ':' = false := by simpa using h.no_colon
  rw [Yaml.float, String.toList_ofList, h.filter_marks, Numeral.map_toLower_eq h.text_chars, h.signed_text]
  simp only [bind, Except.bind, hword ['.', 'i', 'n', 'f'] (by decide), hword ['.', 'n', 'a', 'n'] (by decide), hcolon,
    Bool.false_eq_true, if_false, hpart, pure, Except.pure]
  cases n.negative with
  | true => rw [if_pos rfl, Binary64.negate_ofDecimal]
  | false => rw [if_neg Bool.false_ne_true]

end

/-! ## Scalars -/

/-- A number of JSON as a document reads it: the text of one without a point. -/
def Scalar.respelt : Scalar → Scalar
  | float x => if x.text.toList.contains '.' then .float x else .text x.text
  | s => s

theorem scalar_bool (w : String) : Yaml.scalar Tag.bool w = (truth w).map .bool := by
  rw [Yaml.scalar, if_neg (by decide), if_pos rfl]

theorem scalar_int (w : String) : Yaml.scalar Tag.int w = (integer w).map .int := by
  rw [Yaml.scalar, if_neg (by decide), if_neg (by decide), if_pos rfl]

theorem scalar_float (w : String) : Yaml.scalar Tag.float w = (Yaml.float w).map .float := by
  rw [Yaml.scalar, if_neg (by decide), if_neg (by decide), if_neg (by decide), if_pos rfl]

theorem scalar_text (w : String) : Yaml.scalar Tag.text w = .ok (.text w) := by
  rw [Yaml.scalar, if_neg (by decide), if_neg (by decide), if_neg (by decide), if_neg (by decide), if_pos rfl]

theorem Numeral.WellFormed.contains_point {n : Numeral} (h : n.WellFormed) :
    n.text.contains '.' = true ↔ n.fraction ≠ [] := by
  rw [List.contains_iff_mem]
  constructor
  · intro hp hf
    have hu : '.' ∈ n.unsigned := by
      unfold Numeral.text at hp
      split at hp
      · simpa using hp
      · exact hp
    rw [Numeral.unsigned, hf, Numeral.pointText, List.append_nil] at hu
    rcases List.mem_append.mp hu with hu | hu
    · exact absurd (not_point_of_digits h.whole _ hu) (by decide)
    · exact absurd (h.not_point_power _ hu) (by decide)
  · intro hf
    obtain ⟨d, ds, hd⟩ := List.exists_cons_of_ne_nil hf
    simp [Numeral.text, Numeral.unsigned, hd, Numeral.pointText]

theorem scalar_number {x : Binary64} (hf : x.isFinite = true) (hw : x.WellFormed) :
    Yaml.scalar (Tag.ofText x.text) x.text = .ok (Scalar.float x).respelt := by
  cases x with
  | infinite => cases hf
  | nan => cases hf
  | finite negative m e =>
    obtain ⟨n, hn, hfloat, ht, hv⟩ := Binary64.finiteText_numeral hw
    obtain ⟨d, ds, hhead, hd⟩ := hn.text_head
    rw [Scalar.respelt, ofText_number (ht.trans hhead) hd, ht]
    by_cases hp : n.fraction = []
    · have hx : n.exponent ≠ none := hfloat.resolve_left (fun h => h hp)
      have hpoint : n.text.contains '.' = false := by
        rw [Bool.eq_false_iff]
        intro hc
        exact hn.contains_point.mp hc hp
      rw [hn.isFloat_pointless hp, hn.isInteger_power hp hx, hn.isTime_power hp hx, hpoint]
      exact scalar_text _
    · have htext : (Binary64.finite negative m e).text = String.ofList n.text := by rw [← ht, String.ofList_toList]
      rw [hn.isFloat hp, hn.contains_point.mpr hp, if_pos rfl, if_pos rfl, scalar_float, htext, float_text hn hp, hv]
      rfl

theorem scalar_truth (b : Bool) : Yaml.scalar (Tag.ofText (Scalar.bool b).json) (Scalar.bool b).json = .ok (.bool b) := by
  have htag : ∀ b, Tag.ofText (Scalar.bool b).json = Tag.bool := by decide
  have hlower : ∀ b, (Scalar.bool b).json.toList.map Char.toLower = (Scalar.bool b).json.toList := by decide
  have htruth : truth (Scalar.bool b).json = .ok b := by
    have hsame : (Scalar.bool b).json.toLower = (Scalar.bool b).json := by
      rw [← String.toList_inj]
      change (String.map Char.toLower (Scalar.bool b).json).toList = _
      rw [String.toList_map, hlower]
    rw [truth, hsame]
    cases b
    all_goals decide
  rw [htag, scalar_bool, htruth]
  rfl

theorem Scalar.IsJson.read {s : Scalar} (h : s.IsJson) (ht : ∀ t, s ≠ .text t) :
    Yaml.scalar (Tag.ofText s.json) s.json = .ok s.respelt := by
  cases s with
  | null => decide
  | bool b => exact scalar_truth b
  | int n =>
    change Yaml.scalar (Tag.ofText (toString n)) (toString n) = .ok (.int n)
    rw [ofText_integer, scalar_int, integer_toString]
    rfl
  | float x =>
    have hj : jsonNumber x = x.text := by
      cases x with
      | finite => rfl
      | infinite => cases h.1
      | nan => cases h.1
    have hread := scalar_number h.1 h.2
    rw [← hj] at hread
    exact hread
  | text t => exact absurd rfl (ht t)
  | date => cases h
  | dateTime => cases h
  | bytes => cases h

end Workflow
