import Workflow.Proofs.Number.Rounding
import Workflow.Proofs.Text.Digits

/-!
# Shortest decimals read back

Seventeen digits are enough: the decimal of so many digits that is nearest to a binary number is among the
reals that round to it. The shortest decimal is the first that passes that test, so it rounds to the number too.
-/

namespace Workflow

namespace Decimal

def value (d : Decimal) : ℚ := d.digits * 10 ^ d.exponent

theorem zpow_mul_toNat {b : ℚ} (hb : b ≠ 0) (k : ℤ) : b ^ k * b ^ (-k).toNat = b ^ k.toNat := by
  rcases Int.le_total 0 k with h | h
  · obtain ⟨n, rfl⟩ := Int.eq_ofNat_of_zero_le h
    simp
  · obtain ⟨n, hn⟩ := Int.eq_ofNat_of_zero_le (show 0 ≤ -k by omega)
    obtain rfl : k = -(n : ℤ) := by omega
    simp [hb]

section
variable {m : ℕ} {e : ℤ}

theorem readsBack_iff {d : ℕ} {k : ℤ} : readsBack m e d k = true ↔ Binary64.RoundsTo m e (d * 10 ^ k) := by
  have hp : (0 : ℚ) < 2 ^ (-e).toNat * 10 ^ (-k).toNat := by positivity
  have bound (a : ℕ) : ((a * 2 ^ e.toNat * 10 ^ (-k).toNat : ℕ) : ℚ) =
      a * 2 ^ e * (2 ^ (-e).toNat * 10 ^ (-k).toNat) := by
    push_cast
    rw [← zpow_mul_toNat two_ne_zero e]
    ring
  have mid : ((4 * d * 10 ^ k.toNat * 2 ^ (-e).toNat : ℕ) : ℚ) =
      4 * (d * 10 ^ k) * (2 ^ (-e).toNat * 10 ^ (-k).toNat) := by
    push_cast
    rw [← zpow_mul_toNat (by norm_num) k]
    ring
  have hl : lowerQuarters m e * 2 ^ e.toNat * 10 ^ (-k).toNat ≤ 4 * d * 10 ^ k.toNat * 2 ^ (-e).toNat ↔
      lowerQuarters m e * (2 : ℚ) ^ e ≤ 4 * (d * 10 ^ k) := by
    rw [← Nat.cast_le (α := ℚ), bound, mid, mul_le_mul_iff_left₀ hp]
  have hu : 4 * d * 10 ^ k.toNat * 2 ^ (-e).toNat ≤ upperQuarters m * 2 ^ e.toNat * 10 ^ (-k).toNat ↔
      4 * (d * 10 ^ k) ≤ upperQuarters m * (2 : ℚ) ^ e := by
    rw [← Nat.cast_le (α := ℚ), bound, mid, mul_le_mul_iff_left₀ hp]
  have hl' : lowerQuarters m e * 2 ^ e.toNat * 10 ^ (-k).toNat < 4 * d * 10 ^ k.toNat * 2 ^ (-e).toNat ↔
      lowerQuarters m e * (2 : ℚ) ^ e < 4 * (d * 10 ^ k) := by
    rw [← Nat.cast_lt (α := ℚ), bound, mid, mul_lt_mul_iff_left₀ hp]
  have hu' : 4 * d * 10 ^ k.toNat * 2 ^ (-e).toNat < upperQuarters m * 2 ^ e.toNat * 10 ^ (-k).toNat ↔
      4 * (d * 10 ^ k) < upperQuarters m * (2 : ℚ) ^ e := by
    rw [← Nat.cast_lt (α := ℚ), bound, mid, mul_lt_mul_iff_left₀ hp]
  simp only [readsBack, Nat.pow_eq]
  split
  · rename_i h
    simp only [Bool.and_eq_true, decide_eq_true_eq, hl, hu]
    exact ⟨fun ⟨a, b⟩ => ⟨a, b, by omega⟩, fun ⟨a, b, _⟩ => ⟨a, b⟩⟩
  · rename_i h
    simp only [Bool.and_eq_true, decide_eq_true_eq, hl', hu']
    exact ⟨fun ⟨a, b⟩ => ⟨a.le, b.le, fun _ => ⟨a, b⟩⟩, fun ⟨_, _, c⟩ => c (by omega)⟩

/-- What is nearer to a number than the 2^54th part of it rounds to it. -/
theorem roundsTo_of_near {x : ℚ} (hm : 0 < m) (hm53 : m < 2 ^ 53) (h : |x - m * 2 ^ e| * 2 ^ 54 < m * 2 ^ e) :
    Binary64.RoundsTo m e x := by
  have ht : (0 : ℚ) < 2 ^ e := by positivity
  obtain ⟨h1, h2⟩ : (m * 2 ^ e - x) * 2 ^ 54 < m * (2 : ℚ) ^ e ∧ (x - m * 2 ^ e) * 2 ^ 54 < m * (2 : ℚ) ^ e := by
    constructor
    · linarith [neg_abs_le (x - m * 2 ^ e)]
    · linarith [le_abs_self (x - m * 2 ^ e)]
  have hmt : m * (2 : ℚ) ^ e < 2 ^ 53 * 2 ^ e := by
    have : (m : ℚ) < 2 ^ 53 := by exact_mod_cast hm53
    gcongr
  have low : lowerQuarters m e * (2 : ℚ) ^ e < 4 * x := by
    by_cases hc : m = 2 ^ 52 ∧ Binary64.leastExponent < e
    · obtain ⟨rfl, he⟩ := hc
      rw [Binary64.lowerQuarters_of_eq he]
      push_cast at h1
      linarith
    · rw [Binary64.lowerQuarters_of_ne hm hc]
      linarith
  have high : 4 * x < upperQuarters m * (2 : ℚ) ^ e := by
    rw [Binary64.upperQuarters_eq]
    linarith
  exact ⟨low.le, high.le, fun _ => ⟨low, high⟩⟩

end

/-! ## Seventeen digits -/

theorem decade_le {num den : ℕ} (hn : 0 < num) (hd : 0 < den) : (10 : ℚ) ^ decade num den ≤ num / den := by
  have hnq : (0 : ℚ) < num := by exact_mod_cast hn
  have hdq : (0 : ℚ) < den := by exact_mod_cast hd
  have pred (n : ℕ) : (((decimalDigits n).length : ℤ) - 1) = (((decimalDigits n).length - 1 : ℕ) : ℤ) := by
    have := List.length_pos_of_ne_nil (decimalDigits_ne_nil n)
    omega
  unfold decade
  split
  · rename_i h
    rw [pred, zpow_natCast, le_div_iff₀ hdq]
    have hl := pow_length_decimalDigits_le (Nat.div_pos h hd)
    have := Nat.mul_le_of_le_div _ _ _ hl
    exact_mod_cast this
  · simp only [Nat.pow_eq]
    split
    · rename_i h
      rw [zpow_neg, zpow_natCast, inv_eq_one_div, div_le_div_iff₀ (by positivity) hdq]
      have : (den : ℚ) ≤ num * 10 ^ ((decimalDigits (den / num)).length - 1) := by exact_mod_cast h
      linarith
    · have hl : den / num < 10 ^ (decimalDigits (den / num)).length := lt_pow_length_decimalDigits _
      rw [Nat.div_lt_iff_lt_mul hn] at hl
      rw [← pred, sub_add_cancel, zpow_neg, zpow_natCast, inv_eq_one_div, div_le_div_iff₀ (by positivity) hdq]
      have : (den : ℚ) < 10 ^ (decimalDigits (den / num)).length * num := by exact_mod_cast hl
      linarith

theorem ratio_pos (m : ℕ) (e : ℤ) : 0 < (Binary64.ratio m e).2 := by
  unfold Binary64.ratio
  split
  · exact Nat.one_pos
  · simp only [Nat.pow_eq]
    positivity

theorem ratio_eq (m : ℕ) (e : ℤ) : ((Binary64.ratio m e).1 : ℚ) / (Binary64.ratio m e).2 = m * 2 ^ e := by
  unfold Binary64.ratio
  split
  · rename_i h
    obtain ⟨k, rfl⟩ := Int.eq_ofNat_of_zero_le h
    simp
  · rename_i h
    obtain ⟨k, hk⟩ := Int.eq_ofNat_of_zero_le (show 0 ≤ -e by omega)
    obtain rfl : e = -(k : ℤ) := by omega
    simp [div_eq_mul_inv]

/-- An integer next to a multiple of a power of ten, times that power, is half of it away at most. -/
theorem near_of_nextTo {n : ℕ} {v : ℚ} {k : ℤ} (h : NextTo (v / 10 ^ k) n) : |n * 10 ^ k - v| ≤ 10 ^ k / 2 := by
  have ht : (0 : ℚ) < 10 ^ k := by positivity
  have low := h.low
  have high := h.high
  rw [le_div_iff₀ ht] at low
  rw [div_le_iff₀ ht] at high
  rw [abs_le]
  constructor
  · linarith
  · linarith

theorem roundsTo_of_either {m a b : ℕ} {e k : ℤ} {d : Decimal}
    (h : (if readsBack m e a k then some ⟨a, k⟩ else if readsBack m e b k then some ⟨b, k⟩ else none) = some d) :
    Binary64.RoundsTo m e d.value := by
  split at h
  · rename_i hr
    cases h
    exact readsBack_iff.mp hr
  · split at h
    · rename_i hr
      cases h
      exact readsBack_iff.mp hr
    · cases h

theorem onGrid?_roundsTo {m n : ℕ} {e : ℤ} {d : Decimal} (h : onGrid? m e n = some d) :
    Binary64.RoundsTo m e d.value :=
  roundsTo_of_either h

theorem onGrid?_seventeen {m : ℕ} {e : ℤ} (hm : 0 < m) (hm53 : m < 2 ^ 53) : (onGrid? m e 17).isSome = true := by
  obtain ⟨num, den, hr⟩ : ∃ num den, Binary64.ratio m e = (num, den) := ⟨_, _, rfl⟩
  have hd := ratio_pos m e
  have hv := ratio_eq m e
  rw [hr] at hd hv
  simp only at hd hv
  have hmq : (0 : ℚ) < m := by exact_mod_cast hm
  have hn : 0 < num := by
    rcases Nat.eq_zero_or_pos num with rfl | hn
    · have : (0 : ℚ) < m * 2 ^ e := by positivity
      simp only [Nat.cast_zero, zero_div] at hv
      linarith
    · exact hn
  have hk := decade_le hn hd
  rw [hv] at hk
  unfold onGrid?
  rw [hr]
  simp only [Nat.cast_ofNat, Nat.pow_eq]
  generalize hkk : decade num den - 17 + 1 = k
  have hnext : NextTo (m * 2 ^ e / 10 ^ k) (roundDiv (num * 10 ^ (-k).toNat) (den * 10 ^ k.toNat)) := by
    have hx : (m * 2 ^ e / 10 ^ k : ℚ) = (num * 10 ^ (-k).toNat : ℕ) / (den * 10 ^ k.toNat : ℕ) := by
      push_cast
      rw [← hv, ← zpow_mul_toNat (by norm_num) k]
      field_simp
    rw [hx]
    exact roundDiv_nextTo (by positivity)
  have hten : (10 : ℚ) ^ k * 10 ^ 16 ≤ m * 2 ^ e := by
    have hs : (10 : ℚ) ^ (k + 16) = 10 ^ k * 10 ^ (16 : ℤ) := zpow_add₀ (by norm_num) ..
    have hk16 : k + 16 = decade num den := by omega
    rw [hk16] at hs
    exact hs.ge.trans hk
  have hround : readsBack m e (roundDiv (num * 10 ^ (-k).toNat) (den * 10 ^ k.toNat)) k = true := by
    rw [readsBack_iff]
    refine roundsTo_of_near hm hm53 ?_
    have hp : (0 : ℚ) < 10 ^ k := by positivity
    linarith [near_of_nextTo hnext]
  rw [if_pos hround]
  rfl

/-! ## The shortest decimal -/

theorem trim_value (fuel d : ℕ) (k : ℤ) : (trim fuel d k).value = d * 10 ^ k := by
  induction fuel generalizing d k with
  | zero => rfl
  | succ fuel ih =>
    rw [trim]
    split
    · rename_i h
      obtain ⟨n, rfl⟩ := Nat.dvd_of_mod_eq_zero h.1
      rw [ih, Nat.mul_div_cancel_left _ (by decide), zpow_add_one₀ (by norm_num)]
      push_cast
      ring
    · rfl

theorem shortest_roundsTo {m : ℕ} {e : ℤ} (hm : 0 < m) (hm53 : m < 2 ^ 53) :
    Binary64.RoundsTo m e (shortest m e).value := by
  simp only [shortest]
  rw [trim_value]
  cases hf : (List.range 17).findSome? fun n => onGrid? m e (n + 1) with
  | some d =>
    obtain ⟨n, -, hd⟩ := List.exists_of_findSome?_eq_some hf
    exact onGrid?_roundsTo hd
  | none =>
    have := List.findSome?_eq_none_iff.mp hf 16 (by decide)
    have hs := onGrid?_seventeen (e := e) hm hm53
    rw [this] at hs
    cases hs

end Decimal

end Workflow
