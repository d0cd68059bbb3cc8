import Mathlib.Algebra.Order.Field.Power
import Mathlib.Data.Rat.Cast.Order
import Mathlib.Tactic.FieldSimp
import Mathlib.Tactic.Linarith
import Mathlib.Tactic.Positivity
import Mathlib.Tactic.Ring
import Workflow.Number.Decimal

/-!
# Rounding to binary numbers

A ratio that lies among the reals which round to a binary number is rounded to it, whatever numerator and
denominator it is given by; and what a ratio is rounded to lies on the grid.
-/

namespace Workflow

/-! ## Rounding to integers -/

/-- `n` is the integer nearest to `q`, or the even one of two. -/
structure NextTo (q : ℚ) (n : ℕ) : Prop where
  low : n - 1 / 2 ≤ q
  high : q ≤ n + 1 / 2
  odd : n % 2 = 1 → n - 1 / 2 < q ∧ q < n + 1 / 2

theorem nextTo_div {n d m : ℕ} (hd : 0 < d) :
    NextTo (n / d) m ↔ 2 * m * d ≤ 2 * n + d ∧ 2 * n ≤ 2 * m * d + d ∧
      (m % 2 = 1 → 2 * m * d < 2 * n + d ∧ 2 * n < 2 * m * d + d) := by
  have hq : (0 : ℚ) < d := by exact_mod_cast hd
  have low : (m : ℚ) - 1 / 2 ≤ n / d ↔ 2 * m * d ≤ 2 * n + d := by
    rw [le_div_iff₀ hq, ← Nat.cast_le (α := ℚ)]
    push_cast
    constructor <;> intro h <;> linarith
  have low' : (m : ℚ) - 1 / 2 < n / d ↔ 2 * m * d < 2 * n + d := by
    rw [lt_div_iff₀ hq, ← Nat.cast_lt (α := ℚ)]
    push_cast
    constructor <;> intro h <;> linarith
  have high : (n : ℚ) / d ≤ m + 1 / 2 ↔ 2 * n ≤ 2 * m * d + d := by
    rw [div_le_iff₀ hq, ← Nat.cast_le (α := ℚ)]
    push_cast
    constructor <;> intro h <;> linarith
  have high' : (n : ℚ) / d < m + 1 / 2 ↔ 2 * n < 2 * m * d + d := by
    rw [div_lt_iff₀ hq, ← Nat.cast_lt (α := ℚ)]
    push_cast
    constructor <;> intro h <;> linarith
  rw [← low, ← high, ← low', ← high']
  exact ⟨fun h => ⟨h.low, h.high, h.odd⟩, fun h => ⟨h.1, h.2.1, h.2.2⟩⟩

theorem roundDiv_nextTo {n d : ℕ} (hd : 0 < d) : NextTo (n / d) (roundDiv n d) := by
  rw [nextTo_div hd]
  have hn := Nat.div_add_mod n d
  have hr := Nat.mod_lt n hd
  simp only [roundDiv]
  generalize n / d = q at *
  generalize n % d = r at *
  have hm : 2 * (q + 1) * d = 2 * (d * q) + 2 * d := by ring
  have hm' : 2 * q * d = 2 * (d * q) := by ring
  split
  · rw [hm]
    omega
  · rw [hm']
    omega

theorem nextTo_unique {q : ℚ} {m n : ℕ} (hm : NextTo q m) (hn : NextTo q n) : m = n := by
  -- two integers at half a unit at most are neighbours, and one of them is odd
  rcases Nat.lt_trichotomy m n with h | h | h
  · have hs : (m : ℚ) + 1 ≤ n := by exact_mod_cast h
    have he : (n : ℚ) = m + 1 := by linarith [hm.high, hn.low]
    have he : n = m + 1 := by exact_mod_cast he
    rcases Nat.mod_two_eq_zero_or_one m with ho | ho
    · linarith [hn.odd (by omega), hm.high]
    · linarith [hm.odd ho, hn.low]
  · exact h
  · have hs : (n : ℚ) + 1 ≤ m := by exact_mod_cast h
    have he : (m : ℚ) = n + 1 := by linarith [hn.high, hm.low]
    have he : m = n + 1 := by exact_mod_cast he
    rcases Nat.mod_two_eq_zero_or_one n with ho | ho
    · linarith [hm.odd (by omega), hn.high]
    · linarith [hn.odd ho, hm.low]

theorem roundDiv_eq {n d m : ℕ} (hd : 0 < d) (h : NextTo (n / d) m) : roundDiv n d = m :=
  nextTo_unique (roundDiv_nextTo hd) h

namespace Binary64

/-! ## Powers of two -/

theorem scaled_pos (num : ℕ) {den : ℕ} (hd : 0 < den) (e : ℤ) : 0 < (scaled num den e).2 := by
  unfold scaled
  split
  · simp only [Nat.pow_eq]
    positivity
  · exact hd

theorem scaled_eq (num den : ℕ) (e : ℤ) :
    ((scaled num den e).1 : ℚ) / (scaled num den e).2 = num / den / 2 ^ e := by
  unfold scaled
  split
  · rename_i h
    obtain ⟨k, rfl⟩ := Int.eq_ofNat_of_zero_le h
    simp only [Int.toNat_natCast, Nat.pow_eq, Nat.cast_mul, Nat.cast_pow, Nat.cast_ofNat, zpow_natCast]
    rw [div_div]
  · rename_i h
    obtain ⟨k, hk⟩ := Int.eq_ofNat_of_zero_le (show 0 ≤ -e by omega)
    obtain rfl : e = -(k : ℤ) := by omega
    simp only [neg_neg, Int.toNat_natCast, Nat.pow_eq, Nat.cast_mul, Nat.cast_pow, Nat.cast_ofNat, zpow_neg,
      zpow_natCast]
    field_simp

theorem log2_bounds {n : ℕ} (hn : 0 < n) : (2 : ℚ) ^ (n.log2 : ℤ) ≤ n ∧ (n : ℚ) < 2 ^ ((n.log2 : ℤ) + 1) := by
  have low := Nat.log2_self_le (Nat.ne_of_gt hn)
  have high := Nat.lt_log2_self (n := n)
  constructor
  · rw [zpow_natCast]
    exact_mod_cast low
  · rw [← Nat.cast_succ, zpow_natCast]
    exact_mod_cast high

theorem binade_bounds {num den : ℕ} (hn : 0 < num) (hd : 0 < den) :
    (2 : ℚ) ^ binade num den ≤ num / den ∧ (num / den : ℚ) < 2 ^ (binade num den + 1) := by
  have hq : (0 : ℚ) < den := by exact_mod_cast hd
  obtain ⟨ln, hn'⟩ := log2_bounds hn
  obtain ⟨ld, hd'⟩ := log2_bounds hd
  simp only [binade]
  generalize (num.log2 : ℤ) = a at *
  generalize (den.log2 : ℤ) = b at *
  have hs := scaled_eq num den (a - b)
  have hp := scaled_pos num hd (a - b)
  generalize scaled num den (a - b) = s at *
  obtain ⟨n, m⟩ := s
  simp only at hs hp ⊢
  have hm : (0 : ℚ) < m := by exact_mod_cast hp
  have ht : (0 : ℚ) < 2 ^ (a - b) := by positivity
  have hle : m ≤ n ↔ (2 : ℚ) ^ (a - b) ≤ num / den := by
    rw [← Nat.cast_le (α := ℚ), ← one_le_div₀ hm, hs, one_le_div₀ ht]
  split
  · rename_i h
    refine ⟨hle.mp h, ?_⟩
    rw [div_lt_iff₀ hq]
    calc (num : ℚ) < 2 ^ (a + 1) := hn'
      _ = 2 ^ (a - b + 1) * 2 ^ b := by rw [← zpow_add₀ two_ne_zero]; ring_nf
      _ ≤ 2 ^ (a - b + 1) * den := by gcongr
  · rename_i h
    refine ⟨?_, ?_⟩
    · rw [le_div_iff₀ hq]
      calc (2 : ℚ) ^ (a - b - 1) * den ≤ 2 ^ (a - b - 1) * 2 ^ (b + 1) := by gcongr
        _ = 2 ^ a := by rw [← zpow_add₀ two_ne_zero]; ring_nf
        _ ≤ num := ln
    · rw [sub_add_cancel]
      exact lt_of_not_ge fun hc => h (hle.mpr hc)

theorem binade_lt {num den : ℕ} (hn : 0 < num) (hd : 0 < den) {b : ℤ} (h : (num / den : ℚ) < 2 ^ b) :
    binade num den < b :=
  (zpow_lt_zpow_iff_right₀ one_lt_two).mp ((binade_bounds hn hd).1.trans_lt h)

theorem le_binade {num den : ℕ} (hn : 0 < num) (hd : 0 < den) {b : ℤ} (h : (2 : ℚ) ^ b ≤ num / den) :
    b ≤ binade num den :=
  Int.le_of_lt_add_one ((zpow_lt_zpow_iff_right₀ one_lt_two).mp (h.trans_lt (binade_bounds hn hd).2))

/-! ## Rounding of ratios -/

def gridExponent (num den : ℕ) : ℤ := max (binade num den - 52) leastExponent

/-- A mantissa with its exponent, unless that is too great; a mantissa of 54 bits is halved. -/
def carried (negative : Bool) (m : ℕ) (e : ℤ) : Binary64 :=
  if m = 2 ^ 53 then if greatestExponent < e + 1 then infinite negative else finite negative (2 ^ 52) (e + 1)
  else if greatestExponent < e then infinite negative else finite negative m e

theorem ofRatio_eq {negative : Bool} {num den m : ℕ} (hn : 0 < num) (hd : 0 < den)
    (h : NextTo (num / den / 2 ^ gridExponent num den) m) :
    ofRatio negative num den = carried negative m (gridExponent num den) := by
  have hm : roundDiv (scaled num den (gridExponent num den)).1 (scaled num den (gridExponent num den)).2 = m :=
    roundDiv_eq (scaled_pos num hd _) (by rw [scaled_eq]; exact h)
  rw [ofRatio, if_neg (Nat.ne_of_gt hn), carried]
  simp only [gridExponent, Nat.pow_eq] at hm ⊢
  rw [hm]
  split <;> rfl

/-- `q` is among the reals that round to `m * 2 ^ e`. -/
structure RoundsTo (m : ℕ) (e : ℤ) (q : ℚ) : Prop where
  low : Decimal.lowerQuarters m e * 2 ^ e ≤ 4 * q
  high : 4 * q ≤ Decimal.upperQuarters m * 2 ^ e
  odd : m % 2 = 1 → Decimal.lowerQuarters m e * 2 ^ e < 4 * q ∧ 4 * q < Decimal.upperQuarters m * 2 ^ e

theorem lowerQuarters_of_ne {m : ℕ} {e : ℤ} (hm : 0 < m) (h : ¬ (m = 2 ^ 52 ∧ leastExponent < e)) :
    (Decimal.lowerQuarters m e : ℚ) = 4 * m - 2 := by
  rw [Decimal.lowerQuarters, Nat.pow_eq, if_neg h, Nat.cast_sub (by omega)]
  push_cast
  rfl

theorem lowerQuarters_of_eq {e : ℤ} (h : leastExponent < e) : (Decimal.lowerQuarters (2 ^ 52) e : ℚ) = 2 ^ 54 - 1 := by
  rw [Decimal.lowerQuarters, Nat.pow_eq, if_pos ⟨rfl, h⟩]
  norm_num

theorem lowerQuarters_ge {m : ℕ} {e : ℤ} (hm : 0 < m) : (4 * m - 2 : ℚ) ≤ Decimal.lowerQuarters m e := by
  by_cases h : m = 2 ^ 52 ∧ leastExponent < e
  · obtain ⟨rfl, he⟩ := h
    rw [lowerQuarters_of_eq he]
    norm_num
  · rw [lowerQuarters_of_ne hm h]

theorem upperQuarters_eq (m : ℕ) : (Decimal.upperQuarters m : ℚ) = 4 * m + 2 := by
  simp [Decimal.upperQuarters]

variable {m : ℕ} {e : ℤ} {q : ℚ}

theorem RoundsTo.le (h : RoundsTo m e q) (hm : 0 < m) : (4 * m - 2) * 2 ^ e ≤ 4 * q := by
  have ht : (0 : ℚ) < 2 ^ e := by positivity
  exact (mul_le_mul_of_nonneg_right (lowerQuarters_ge hm) ht.le).trans h.low

theorem RoundsTo.ge (h : RoundsTo m e q) : 4 * q ≤ (4 * m + 2) * 2 ^ e := by
  rw [← upperQuarters_eq]
  exact h.high

theorem RoundsTo.pos (h : RoundsTo m e q) (hm : 0 < m) : 0 < q := by
  have ht : (0 : ℚ) < 2 ^ e := by positivity
  have hm1 : (1 : ℚ) ≤ m := by exact_mod_cast hm
  have hp : (0 : ℚ) < (4 * m - 2) * 2 ^ e := mul_pos (by linarith) ht
  linarith [h.le hm]

theorem RoundsTo.nextTo (h : RoundsTo m e q) (hm : 0 < m) : NextTo (q / 2 ^ e) m := by
  have ht : (0 : ℚ) < 2 ^ e := by positivity
  have hl := mul_le_mul_of_nonneg_right (lowerQuarters_ge (e := e) hm) ht.le
  refine ⟨?_, ?_, fun ho => ⟨?_, ?_⟩⟩
  · rw [le_div_iff₀ ht]
    linarith [h.le hm]
  · rw [div_le_iff₀ ht]
    linarith [h.ge]
  · rw [lt_div_iff₀ ht]
    linarith [(h.odd ho).1]
  · rw [div_lt_iff₀ ht]
    have hu := (h.odd ho).2
    rw [upperQuarters_eq] at hu
    linarith

/-- Just below a power of two, where the grid is finer by half. -/
theorem RoundsTo.nextTo_finer (h : RoundsTo (2 ^ 52) e q) (he : leastExponent < e) (hq : q < 2 ^ 52 * 2 ^ e) :
    NextTo (q / 2 ^ (e - 1)) (2 ^ 53) := by
  have ht : (0 : ℚ) < 2 ^ (e - 1) := by positivity
  have hs : (2 : ℚ) ^ e = 2 * 2 ^ (e - 1) := by
    rw [← zpow_one_add₀ two_ne_zero]
    ring_nf
  have low := h.low
  rw [lowerQuarters_of_eq he, hs] at low
  rw [hs] at hq
  refine ⟨?_, ?_, fun ho => absurd ho (by decide)⟩
  · rw [le_div_iff₀ ht]
    push_cast
    linarith
  · rw [div_le_iff₀ ht]
    push_cast
    linarith

section
variable {num den : ℕ}

theorem gridExponent_finer (hn : 0 < num) (hd : 0 < den) (h : RoundsTo (2 ^ 52) e (num / den)) (he : leastExponent < e)
    (hq : (num / den : ℚ) < 2 ^ 52 * 2 ^ e) : gridExponent num den = e - 1 := by
  have ht : (0 : ℚ) < 2 ^ e := by positivity
  have h1 : binade num den < 52 + e := binade_lt hn hd (by rwa [zpow_add₀ two_ne_zero])
  have h2 : 51 + e ≤ binade num den := by
    refine le_binade hn hd ?_
    have hs : (2 : ℚ) ^ (51 + e) = 2 ^ (51 : ℤ) * 2 ^ e := zpow_add₀ two_ne_zero ..
    have hl := h.le (by decide)
    rw [hs]
    push_cast at hl
    linarith
  simp only [gridExponent]
  omega

theorem gridExponent_le (hn : 0 < num) (hd : 0 < den) (hm : m < 2 ^ 53) (h : RoundsTo m e (num / den)) :
    binade num den < 53 + e := by
  have ht : (0 : ℚ) < 2 ^ e := by positivity
  have hm' : (m : ℚ) + 1 ≤ 2 ^ 53 := by exact_mod_cast hm
  refine binade_lt hn hd ?_
  have hs : (2 : ℚ) ^ (53 + e) = 2 ^ (53 : ℤ) * 2 ^ e := zpow_add₀ two_ne_zero ..
  have hl := mul_le_mul_of_nonneg_right (show (4 * m + 2 : ℚ) ≤ 4 * 2 ^ 53 - 2 by linarith) ht.le
  rw [hs]
  linarith [h.ge]

/-- A ratio that is not below the power of two that it rounds to, if it rounds to one, has the binade of the number. -/
theorem le_gridExponent (hn : 0 < num) (hd : 0 < den) (hm : 2 ^ 52 ≤ m) (h : RoundsTo m e (num / den))
    (hc : m = 2 ^ 52 → (2 : ℚ) ^ 52 * 2 ^ e ≤ num / den) : 52 + e ≤ binade num den := by
  have ht : (0 : ℚ) < 2 ^ e := by positivity
  refine le_binade hn hd ?_
  have hs : (2 : ℚ) ^ (52 + e) = 2 ^ (52 : ℤ) * 2 ^ e := zpow_add₀ two_ne_zero ..
  rw [hs]
  by_cases hm52 : m = 2 ^ 52
  · exact hc hm52
  · have hm' : 2 ^ 52 + 1 ≤ m := by omega
    have hm' : (2 : ℚ) ^ 52 + 1 ≤ m := by exact_mod_cast hm'
    have hl := mul_le_mul_of_nonneg_right (show (4 * 2 ^ 52 : ℚ) ≤ 4 * m - 2 by linarith) ht.le
    linarith [h.le (by omega)]

theorem gridExponent_of_roundsTo {negative : Bool} (hn : 0 < num) (hd : 0 < den) (hw : WellFormed (finite negative m e))
    (h : RoundsTo m e (num / den))
    (hc : m = 2 ^ 52 → leastExponent < e → (2 : ℚ) ^ 52 * 2 ^ e ≤ num / den) : gridExponent num den = e := by
  obtain ⟨hm53, hl, -, hfull⟩ := hw
  have h1 := gridExponent_le hn hd hm53 h
  simp only [gridExponent]
  by_cases he : e = leastExponent
  · omega
  · have h2 := le_gridExponent hn hd (hfull.resolve_right he) h fun hm => hc hm (by omega)
    omega

/-- A ratio among the reals that round to a number is rounded to it. -/
theorem ofRatio_of_roundsTo {negative : Bool} (hm : 0 < m) (hd : 0 < den) (hw : WellFormed (finite negative m e))
    (h : RoundsTo m e (num / den)) : ofRatio negative num den = finite negative m e := by
  have hn : 0 < num := by
    refine Nat.pos_of_ne_zero ?_
    rintro rfl
    simpa using h.pos hm
  -- just below a power of two the ratio is rounded on a finer grid, and the mantissa is carried
  by_cases hc : m = 2 ^ 52 ∧ leastExponent < e ∧ (num / den : ℚ) < 2 ^ 52 * 2 ^ e
  · obtain ⟨rfl, he, hq⟩ := hc
    have hb := gridExponent_finer hn hd h he hq
    have hk : NextTo (num / den / 2 ^ gridExponent num den) (2 ^ 53) := by
      rw [hb]
      exact h.nextTo_finer he hq
    have hg := hw.2.2.1
    rw [ofRatio_eq hn hd hk, hb, carried, if_pos rfl, if_neg (by omega), sub_add_cancel]
  · have hb := gridExponent_of_roundsTo hn hd hw h fun hm he => le_of_not_gt fun hq => hc ⟨hm, he, hq⟩
    have hk : NextTo (num / den / 2 ^ gridExponent num den) m := by
      rw [hb]
      exact h.nextTo hm
    obtain ⟨hm53, -, hg, -⟩ := hw
    simp only [Nat.pow_eq] at hm53
    rw [ofRatio_eq hn hd hk, hb, carried, if_neg (by omega), if_neg (by omega)]

end

/-! ## The grid -/

theorem zero_wellFormed (negative : Bool) : WellFormed (zero negative) := by
  refine ⟨by decide, le_refl _, by decide, .inr rfl⟩

section
variable {num den : ℕ}

/-- On its grid a ratio has at most 53 bits before the point. -/
theorem scaled_lt (hn : 0 < num) (hd : 0 < den) : (num / den : ℚ) / 2 ^ gridExponent num den < 2 ^ 53 := by
  have ht : (0 : ℚ) < 2 ^ gridExponent num den := by positivity
  have hs : (2 : ℚ) ^ (53 + gridExponent num den) = 2 ^ (53 : ℤ) * 2 ^ gridExponent num den := zpow_add₀ two_ne_zero ..
  rw [div_lt_iff₀ ht]
  refine (binade_bounds hn hd).2.trans_le (le_trans (zpow_le_zpow_right₀ one_le_two ?_) hs.le)
  simp only [gridExponent]
  omega

/-- On its grid a ratio has 53 bits before the point, unless the grid is the finest. -/
theorem le_scaled (hn : 0 < num) (hd : 0 < den) (he : gridExponent num den ≠ leastExponent) :
    (2 : ℚ) ^ 52 ≤ (num / den : ℚ) / 2 ^ gridExponent num den := by
  have ht : (0 : ℚ) < 2 ^ gridExponent num den := by positivity
  have hb : 52 + gridExponent num den = binade num den := by
    simp only [gridExponent] at he ⊢
    omega
  have hs : (2 : ℚ) ^ (52 + gridExponent num den) = 2 ^ (52 : ℤ) * 2 ^ gridExponent num den := zpow_add₀ two_ne_zero ..
  rw [hb] at hs
  rw [le_div_iff₀ ht]
  exact hs.ge.trans (binade_bounds hn hd).1

theorem carried_wellFormed {negative : Bool} (hm : m ≤ 2 ^ 53) (hl : leastExponent ≤ e)
    (hfull : 2 ^ 52 ≤ m ∨ e = leastExponent) : WellFormed (carried negative m e) := by
  unfold carried
  split
  · split
    · trivial
    · exact ⟨by decide, by omega, by omega, .inl (by decide)⟩
  · split
    · trivial
    · refine ⟨?_, hl, by omega, hfull⟩
      simp only [Nat.pow_eq]
      omega

theorem ofRatio_wellFormed (negative : Bool) (num : ℕ) (hd : 0 < den) : WellFormed (ofRatio negative num den) := by
  rcases Nat.eq_zero_or_pos num with rfl | hn
  · rw [ofRatio, if_pos rfl]
    exact zero_wellFormed negative
  obtain ⟨k, hk⟩ : ∃ k, NextTo (num / den / 2 ^ gridExponent num den) k := by
    rw [← scaled_eq]
    exact ⟨_, roundDiv_nextTo (scaled_pos num hd _)⟩
  rw [ofRatio_eq hn hd hk]
  refine carried_wellFormed ?_ (le_max_right ..) ?_
  · have h : (k : ℚ) < 2 ^ 53 + 1 := by linarith [hk.low, scaled_lt hn hd]
    have h : k < 2 ^ 53 + 1 := by exact_mod_cast h
    omega
  · by_cases he : gridExponent num den = leastExponent
    · exact .inr he
    · have h : (2 : ℚ) ^ 52 < k + 1 := by linarith [hk.high, le_scaled hn hd he]
      have h : 2 ^ 52 < k + 1 := by exact_mod_cast h
      exact .inl (by omega)

end

theorem ofRatio_ne_nan (negative : Bool) (num den : ℕ) : ofRatio negative num den ≠ nan := by
  intro h
  unfold ofRatio zero at h
  split at h
  · cases h
  · simp only at h
    split at h
    · split at h <;> cases h
    · split at h <;> cases h

theorem ofDecimal_wellFormed (negative : Bool) (digits : ℕ) (k : ℤ) :
    WellFormed (ofDecimal negative digits k) ∧ ofDecimal negative digits k ≠ nan := by
  have hp (n : ℕ) : 0 < Nat.pow 10 n := by
    simp only [Nat.pow_eq]
    positivity
  simp only [ofDecimal]
  split
  · exact ⟨zero_wellFormed negative, by simp [zero]⟩
  · split
    · exact ⟨trivial, by simp⟩
    · split
      · exact ⟨zero_wellFormed negative, by simp [zero]⟩
      · split
        · exact ⟨ofRatio_wellFormed negative _ Nat.one_pos, ofRatio_ne_nan _ _ _⟩
        · exact ⟨ofRatio_wellFormed negative _ (hp _), ofRatio_ne_nan _ _ _⟩

end Binary64

end Workflow
