import Workflow.Proofs.Number.Shortest

/-!
# Written numbers

A number is written as a sign, digits before a point and behind it, and an exponent. Every finite binary number
is written in that form, with the digits of its shortest decimal, so the form reads back as the number.
-/

namespace Workflow

structure Numeral where
  negative : Bool
  whole : List Char
  fraction : List Char
  exponent : Option (Bool × List Char)

namespace Numeral

structure WellFormed (n : Numeral) : Prop where
  whole : Digits n.whole
  someWhole : n.whole ≠ []
  fraction : Digits n.fraction
  exponent : ∀ x ∈ n.exponent, Digits x.2 ∧ x.2 ≠ []

def IsFloat (n : Numeral) : Prop := n.fraction ≠ [] ∨ n.exponent ≠ none

def pointText : List Char → List Char
  | [] => []
  | ds => '.' :: ds

def powerText : Option (Bool × List Char) → List Char
  | none => []
  | some (negative, ds) => 'e' :: (if negative then '-' else '+') :: ds

def unsigned (n : Numeral) : List Char := n.whole ++ pointText n.fraction ++ powerText n.exponent

def text (n : Numeral) : List Char := (if n.negative then ['-'] else []) ++ n.unsigned

def digits (n : Numeral) : ℕ := decimalNumeral (n.whole ++ n.fraction)

def tens : Option (Bool × List Char) → ℤ
  | none => 0
  | some (negative, ds) => if negative then -(decimalNumeral ds : ℤ) else decimalNumeral ds

def power (n : Numeral) : ℤ := tens n.exponent - n.fraction.length

def value (n : Numeral) : ℚ := n.digits * 10 ^ n.power

end Numeral

/-! ## Layout -/

section
variable {ds : List Char} {e : ℤ}

theorem exponentText_plain (e : ℤ) : ∃ x : Bool × List Char, Digits x.2 ∧ x.2 ≠ [] ∧
    NumberStyle.plain.exponentText e = Numeral.powerText (some x) ∧ Numeral.tens (some x) = e := by
  have hd := decimalDigits_digits e.natAbs
  have hz := Digits.zeros (2 - (decimalDigits e.natAbs).length)
  refine ⟨⟨e < 0, List.replicate (2 - (decimalDigits e.natAbs).length) '0' ++ decimalDigits e.natAbs⟩, hz.append hd, ?_,
    ?_, ?_⟩
  · simp [decimalDigits_ne_nil]
  · simp [NumberStyle.exponentText, NumberStyle.plain, Numeral.powerText]
  · simp only [Numeral.tens, decimalNumeral_append hz hd, decimalNumeral_zeros, decimalNumeral_decimalDigits,
      Nat.zero_mul, Nat.zero_add, decide_eq_true_eq]
    split
    · omega
    · omega

/-- A number between the bounds of the plain style, smaller than one. -/
theorem layout_small (hd : Digits ds) (hn : ds ≠ []) (he : e < 0) :
    ∃ n : Numeral, n.WellFormed ∧ n.IsFloat ∧ n.negative = false ∧
      n.unsigned = '0' :: '.' :: (List.replicate ((-e).toNat - 1) '0' ++ ds) ∧
      n.value = decimalNumeral ds * 10 ^ (e - (ds.length - 1)) := by
  have hz := Digits.zeros ((-e).toNat - 1)
  have h0 : Digits ['0'] := Digits.zeros 1
  refine ⟨⟨false, ['0'], List.replicate ((-e).toNat - 1) '0' ++ ds, none⟩, ⟨h0, by simp, hz.append hd, by simp⟩,
    .inl (by simp [hn]), rfl, ?_, ?_⟩
  · cases hf : List.replicate ((-e).toNat - 1) '0' ++ ds with
    | nil => simp [hn] at hf
    | cons c cs => simp [Numeral.unsigned, Numeral.pointText, Numeral.powerText]
  · have hv : decimalNumeral (['0'] ++ (List.replicate ((-e).toNat - 1) '0' ++ ds)) = decimalNumeral ds := by
      have h1 : decimalNumeral ['0'] = 0 := decimalNumeral_zeros 1
      rw [decimalNumeral_append h0 (hz.append hd), decimalNumeral_append hz hd, decimalNumeral_zeros, h1]
      omega
    simp only [Numeral.value, Numeral.digits, Numeral.power, Numeral.tens, hv]
    congr 2
    rw [List.length_append, List.length_replicate]
    omega

/-- A whole number: zeros fill its places up to the point, and one stands behind it. -/
theorem layout_whole (hd : Digits ds) (hn : ds ≠ []) {w : ℕ} (hw : ds.length ≤ w) :
    ∃ n : Numeral, n.WellFormed ∧ n.IsFloat ∧ n.negative = false ∧
      n.unsigned = ds ++ List.replicate (w - ds.length) '0' ++ ['.', '0'] ∧
      n.value = decimalNumeral ds * 10 ^ ((w : ℤ) - 1 - (ds.length - 1)) := by
  have hz := Digits.zeros (w - ds.length)
  have h0 : Digits ['0'] := Digits.zeros 1
  refine ⟨⟨false, ds ++ List.replicate (w - ds.length) '0', ['0'], none⟩, ⟨hd.append hz, by simp [hn], h0, by simp⟩,
    .inl (by simp), rfl, ?_, ?_⟩
  · simp [Numeral.unsigned, Numeral.pointText, Numeral.powerText]
  · have hv : decimalNumeral (ds ++ List.replicate (w - ds.length) '0' ++ ['0']) =
        decimalNumeral ds * 10 ^ (w - ds.length) * 10 := by
      have h1 : decimalNumeral ['0'] = 0 := decimalNumeral_zeros 1
      rw [decimalNumeral_append (hd.append hz) h0, decimalNumeral_append hd hz, decimalNumeral_zeros, h1,
        List.length_replicate]
      simp
    have hp : (w : ℤ) - 1 - (ds.length - 1) = (w - ds.length : ℕ) := by omega
    simp only [Numeral.value, Numeral.digits, Numeral.power, Numeral.tens, hv, hp, zpow_natCast]
    simp

theorem layout_split (hd : Digits ds) {w : ℕ} (hw : w < ds.length) (hp : 0 < w) :
    ∃ n : Numeral, n.WellFormed ∧ n.IsFloat ∧ n.negative = false ∧ n.unsigned = ds.take w ++ '.' :: ds.drop w ∧
      n.value = decimalNumeral ds * 10 ^ ((w : ℤ) - 1 - (ds.length - 1)) := by
  have hf : ds.drop w ≠ [] := by simp; omega
  have hw' : ds.take w ≠ [] := by
    intro h
    have := congrArg List.length h
    rw [List.length_take, List.length_nil] at this
    omega
  refine ⟨⟨false, ds.take w, ds.drop w, none⟩,
    ⟨fun c hc => hd c (List.mem_of_mem_take hc), hw', fun c hc => hd c (List.mem_of_mem_drop hc), by simp⟩,
    .inl hf, rfl, ?_, ?_⟩
  · cases hr : ds.drop w with
    | nil => exact absurd hr hf
    | cons c cs => simp [Numeral.unsigned, Numeral.pointText, Numeral.powerText]
  · simp only [Numeral.value, Numeral.digits, Numeral.power, Numeral.tens, List.take_append_drop, List.length_drop]
    congr 2
    omega

theorem layout_power (hd : Digits ds) {d : Char} {cs : List Char} (hs : ds = d :: cs) (e : ℤ) :
    ∃ n : Numeral, n.WellFormed ∧ n.IsFloat ∧ n.negative = false ∧
      n.unsigned = d :: (Numeral.pointText cs ++ NumberStyle.plain.exponentText e) ∧
      n.value = decimalNumeral ds * 10 ^ (e - (ds.length - 1)) := by
  obtain ⟨x, hx, hne, ht, hv⟩ := exponentText_plain e
  subst hs
  refine ⟨⟨false, [d], cs, some x⟩, ⟨fun c hc => hd c (by simp_all), by simp, hd.tail, ?_⟩, .inr (by simp), rfl, ?_, ?_⟩
  · intro y hy
    cases hy
    exact ⟨hx, hne⟩
  · simp [Numeral.unsigned, ht]
  · simp only [Numeral.value, Numeral.digits, Numeral.power, hv, List.cons_append, List.nil_append, List.length_cons]
    congr 2
    omega

/-- The plain layout of digits is a written number, and stands for what the digits stand for. -/
theorem layout_numeral (hd : Digits ds) (hn : ds ≠ []) (e : ℤ) :
    ∃ n : Numeral, n.WellFormed ∧ n.IsFloat ∧ n.negative = false ∧ n.unsigned = NumberStyle.plain.layout ds e ∧
      n.value = decimalNumeral ds * 10 ^ (e - (ds.length - 1)) := by
  unfold NumberStyle.layout
  split
  · split
    · rename_i he
      exact layout_small hd hn he
    · rename_i he
      have hw : ((e.toNat + 1 : ℕ) : ℤ) - 1 = e := by omega
      simp only
      split
      · rename_i hl
        have := layout_whole hd hn hl
        rw [hw] at this
        exact this
      · rename_i hl
        have := layout_split hd (Nat.lt_of_not_le hl) (Nat.succ_pos _)
        rw [hw] at this
        exact this
  · split
    · exact absurd rfl hn
    · exact layout_power hd rfl e
    · rename_i d rest hr
      have := layout_power hd rfl e
      cases rest with
      | nil => exact absurd rfl hr
      | cons c cs => exact this

end

/-! ## Reading back -/

namespace Binary64

theorem RoundsTo.range {negative : Bool} {m : ℕ} {e : ℤ} {q : ℚ} (h : RoundsTo m e q) (hm : 0 < m)
    (hw : WellFormed (finite negative m e)) : (2 : ℚ) ^ (-1075 : ℤ) ≤ q ∧ q ≤ 2 ^ (1024 : ℤ) := by
  obtain ⟨hm53, hl, hg, -⟩ := hw
  have hm1 : (1 : ℚ) ≤ m := by exact_mod_cast hm
  have hm53 : (m : ℚ) + 1 ≤ 2 ^ 53 := by exact_mod_cast hm53
  have ht : (0 : ℚ) < 2 ^ e := by positivity
  constructor
  · have hs : (2 : ℚ) ^ (-1075 : ℤ) * 2 = 2 ^ leastExponent := by
      rw [← zpow_add_one₀ two_ne_zero]
      rfl
    have he : (2 : ℚ) ^ leastExponent ≤ 2 ^ e := zpow_le_zpow_right₀ one_le_two hl
    have hq := mul_le_mul_of_nonneg_right (show (2 : ℚ) ≤ 4 * m - 2 by linarith) ht.le
    linarith [h.le hm]
  · have hs : (2 : ℚ) ^ (1024 : ℤ) = 2 ^ 53 * 2 ^ greatestExponent := by
      rw [← zpow_natCast, ← zpow_add₀ two_ne_zero]
      rfl
    have he : (2 : ℚ) ^ e ≤ 2 ^ greatestExponent := zpow_le_zpow_right₀ one_le_two hg
    have hq := mul_le_mul_of_nonneg_right (show (4 * m + 2 : ℚ) ≤ 4 * 2 ^ 53 by linarith) ht.le
    linarith [h.ge]

theorem two_zpow_lt {a : ℤ} (ha : a ≤ 1200) : (2 : ℚ) ^ a < 10 ^ (400 : ℤ) := by
  have h : ((2 ^ 1200 : ℕ) : ℚ) < (10 ^ 400 : ℕ) := Nat.cast_lt.mpr (by decide +kernel)
  rw [Nat.cast_pow, Nat.cast_pow, ← zpow_natCast, ← zpow_natCast] at h
  exact (zpow_le_zpow_right₀ one_le_two ha).trans_lt h

section
variable {d : ℕ} {k : ℤ}

theorem not_far_above (hd : 0 < d) (h : (d : ℚ) * 10 ^ k ≤ 2 ^ (1024 : ℤ)) : ¬ 400 < (d.log2 : ℤ) / 4 + k := by
  have ht : (0 : ℚ) < 10 ^ k := by positivity
  -- four bits hold more than one decimal digit
  have h16 : (10 : ℚ) ^ ((d.log2 : ℤ) / 4) ≤ d := by
    obtain ⟨a, ha⟩ : ∃ a : ℕ, (d.log2 : ℤ) / 4 = a := ⟨d.log2 / 4, by omega⟩
    have h4 : ((4 * a : ℕ) : ℤ) ≤ d.log2 := by omega
    calc (10 : ℚ) ^ ((d.log2 : ℤ) / 4) = 10 ^ a := by rw [ha, zpow_natCast]
      _ ≤ 16 ^ a := by gcongr; norm_num
      _ = 2 ^ ((4 * a : ℕ) : ℤ) := by rw [zpow_natCast, pow_mul]; norm_num
      _ ≤ 2 ^ (d.log2 : ℤ) := zpow_le_zpow_right₀ one_le_two h4
      _ ≤ d := (log2_bounds hd).1
  have hlt : (10 : ℚ) ^ ((d.log2 : ℤ) / 4 + k) < 10 ^ (400 : ℤ) := by
    calc (10 : ℚ) ^ ((d.log2 : ℤ) / 4 + k) = 10 ^ ((d.log2 : ℤ) / 4) * 10 ^ k := zpow_add₀ (by norm_num) ..
      _ ≤ d * 10 ^ k := by gcongr
      _ ≤ 2 ^ (1024 : ℤ) := h
      _ < 10 ^ (400 : ℤ) := two_zpow_lt (by norm_num)
  have hk := (zpow_lt_zpow_iff_right₀ (by norm_num)).mp hlt
  omega

theorem not_far_below (hd : 0 < d) (h : (2 : ℚ) ^ (-1075 : ℤ) ≤ d * 10 ^ k) : ¬ (d.log2 : ℤ) + k < -400 := by
  intro hc
  have ht : (0 : ℚ) < 10 ^ k := by positivity
  have hu := (log2_bounds hd).2
  have hlt : (d : ℚ) * 10 ^ k < 10 ^ (-400 : ℤ) := by
    calc (d : ℚ) * 10 ^ k < 2 ^ ((d.log2 : ℤ) + 1) * 10 ^ k := by gcongr
      _ ≤ 10 ^ ((d.log2 : ℤ) + 1) * 10 ^ k := by
        rw [← Nat.cast_succ, zpow_natCast, zpow_natCast]
        gcongr
        norm_num
      _ = 10 ^ ((d.log2 : ℤ) + 1 + k) := (zpow_add₀ (by norm_num) ..).symm
      _ ≤ 10 ^ (-400 : ℤ) := zpow_le_zpow_right₀ (by norm_num) (by omega)
  have hs : (10 : ℚ) ^ (-400 : ℤ) < 2 ^ (-1075 : ℤ) := by
    rw [zpow_neg, zpow_neg]
    exact inv_strictAnti₀ (by positivity) (two_zpow_lt (by norm_num))
  linarith

theorem ofDecimal_of_roundsTo {negative : Bool} {m : ℕ} {e : ℤ} (hm : 0 < m) (hw : WellFormed (finite negative m e))
    (h : RoundsTo m e (d * 10 ^ k)) : ofDecimal negative d k = finite negative m e := by
  have hd : 0 < d := by
    refine Nat.pos_of_ne_zero ?_
    rintro rfl
    simpa using h.pos hm
  obtain ⟨hlow, hhigh⟩ := h.range hm hw
  rw [ofDecimal, if_neg (Nat.ne_of_gt hd), if_neg (not_far_above hd hhigh), if_neg (not_far_below hd hlow)]
  split
  · rename_i hk
    obtain ⟨n, rfl⟩ := Int.eq_ofNat_of_zero_le hk
    refine ofRatio_of_roundsTo hm Nat.one_pos hw ?_
    simpa using h
  · rename_i hk
    obtain ⟨n, hn⟩ := Int.eq_ofNat_of_zero_le (show 0 ≤ -k by omega)
    obtain rfl : k = -(n : ℤ) := by omega
    refine ofRatio_of_roundsTo hm (by simp) hw ?_
    simpa [div_eq_mul_inv] using h

end

def writtenValue (m : ℕ) (e : ℤ) : ℚ := if m = 0 then 0 else (Decimal.shortest m e).value

theorem finiteText_form (negative : Bool) (m : ℕ) (e : ℤ) :
    ∃ n : Numeral, n.WellFormed ∧ n.IsFloat ∧ n.negative = negative ∧ (finite negative m e).text.toList = n.text ∧
      n.value = writtenValue m e := by
  simp only [text, String.toList_ofList, NumberStyle.finiteText, writtenValue]
  by_cases hm : m = 0
  · obtain ⟨n, hn, hf, -, ht, hv⟩ := layout_numeral (Digits.zeros 1) (by simp) 0
    refine ⟨{ n with negative }, ⟨hn.whole, hn.someWhole, hn.fraction, hn.exponent⟩, hf, rfl, ?_, ?_⟩
    · rw [if_pos hm]
      cases negative <;> simp [Numeral.text, NumberStyle.plain, Numeral.unsigned] at ht ⊢ <;> exact ht.symm
    · have h0 : decimalNumeral (List.replicate 1 '0') = 0 := decimalNumeral_zeros 1
      rw [h0, Nat.cast_zero, zero_mul] at hv
      rw [if_pos hm]
      exact hv
  · obtain ⟨n, hn, hf, -, ht, hv⟩ := layout_numeral (decimalDigits_digits (Decimal.shortest m e).digits)
      (decimalDigits_ne_nil _) ((Decimal.shortest m e).exponent + (decimalDigits (Decimal.shortest m e).digits).length - 1)
    refine ⟨{ n with negative }, ⟨hn.whole, hn.someWhole, hn.fraction, hn.exponent⟩, hf, rfl, ?_, ?_⟩
    · rw [if_neg hm, ← ht]
      rfl
    · have hk (a : ℤ) (l : ℕ) : a + l - 1 - (l - 1) = a := by omega
      rw [decimalNumeral_decimalDigits, hk, ← Decimal.value] at hv
      rw [if_neg hm]
      exact hv

theorem finiteText_numeral {negative : Bool} {m : ℕ} {e : ℤ} (hw : WellFormed (finite negative m e)) :
    ∃ n : Numeral, n.WellFormed ∧ n.IsFloat ∧ (finite negative m e).text.toList = n.text ∧
      ofDecimal n.negative n.digits n.power = finite negative m e := by
  obtain ⟨n, hn, hf, hs, ht, hv⟩ := finiteText_form negative m e
  refine ⟨n, hn, hf, ht, ?_⟩
  rw [hs]
  rcases Nat.eq_zero_or_pos m with rfl | hm
  · have he : e = leastExponent := by
      obtain ⟨-, -, -, hf | he⟩ := hw
      · exact absurd hf (by decide)
      · exact he
    have hp : (10 : ℚ) ^ n.power ≠ 0 := by positivity
    have hz : n.digits = 0 := by exact_mod_cast (mul_eq_zero.mp hv).resolve_right hp
    rw [hz, ofDecimal, if_pos rfl, zero, he]
  · have hr := Decimal.shortest_roundsTo (e := e) hm hw.1
    rw [writtenValue, if_neg (Nat.ne_of_gt hm), Numeral.value] at hv
    rw [← hv] at hr
    exact ofDecimal_of_roundsTo hm hw hr

end Binary64

end Workflow
