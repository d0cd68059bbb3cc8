import Mathlib.Algebra.Order.Ring.Nat
import Workflow.Number.Decimal
import Workflow.Proofs.Text.Split
import Workflow.Text.Digit

/-!
# Numerals in ASCII digits

The digits that a number is printed with are decimal digits and stand for that number. Zeros before them change
nothing, and zeros behind them are powers of ten.
-/

namespace Workflow

theorem decimalValue?_of_isDigit {c : Char} (h : c.isDigit = true) : decimalValue? c = some (c.toNat - 48) := by
  have hc := Char.isDigit_iff_toNat.mp h
  have h48 : '0'.toNat = 48 := rfl
  have h57 : '9'.toNat = 57 := rfl
  have hz : decimalZeros.find? (fun z => z ≤ c.toNat && c.toNat < z + 10) = some 48 := by
    rw [decimalZeros, List.find?_cons_of_pos]
    simp only [Bool.and_eq_true, decide_eq_true_eq]
    omega
  rw [decimalValue?, hz]
  rfl

theorem isDecimal_of_isDigit {c : Char} (h : c.isDigit = true) : isDecimal c = true := by
  rw [isDecimal, decimalValue?_of_isDigit h]
  rfl

def Digits (cs : List Char) : Prop := ∀ c ∈ cs, c.isDigit = true

theorem Digits.append {as bs : List Char} (ha : Digits as) (hb : Digits bs) : Digits (as ++ bs) := by
  intro c hc
  rcases List.mem_append.mp hc with h | h
  · exact ha c h
  · exact hb c h

theorem Digits.zeros (n : Nat) : Digits (List.replicate n '0') := by
  intro c hc
  rw [List.eq_of_mem_replicate hc]
  rfl

theorem Digits.tail {c : Char} {cs : List Char} (h : Digits (c :: cs)) : Digits cs := fun d hd =>
  h d (List.mem_cons_of_mem c hd)

theorem Digits.isDecimal {cs : List Char} (h : Digits cs) : ∀ c ∈ cs, isDecimal c = true := fun c hc =>
  isDecimal_of_isDigit (h c hc)

theorem decimalNumeral_eq {cs : List Char} (h : Digits cs) : decimalNumeral cs = Nat.ofDigitChars 10 cs 0 := by
  have hn (n : Nat) : cs.foldl (fun n c => 10 * n + (decimalValue? c).getD 0) n = Nat.ofDigitChars 10 cs n := by
    induction cs generalizing n with
    | nil => rfl
    | cons c cs ih =>
      rw [List.foldl_cons, Nat.ofDigitChars_cons, decimalValue?_of_isDigit (h c (List.mem_cons_self ..))]
      exact ih h.tail _
  exact hn 0

theorem decimalNumeral_append {as bs : List Char} (ha : Digits as) (hb : Digits bs) :
    decimalNumeral (as ++ bs) = decimalNumeral as * 10 ^ bs.length + decimalNumeral bs := by
  rw [decimalNumeral_eq (ha.append hb), decimalNumeral_eq ha, decimalNumeral_eq hb, Nat.ofDigitChars_append,
    Nat.ofDigitChars_eq_ofDigitChars_zero, Nat.mul_comm]

theorem decimalNumeral_zeros (n : Nat) : decimalNumeral (List.replicate n '0') = 0 := by
  rw [decimalNumeral_eq (.zeros n), Nat.ofDigitChars_replicate_zero, Nat.mul_zero]

theorem decimalValue?_lt {c : Char} : (decimalValue? c).getD 0 < 10 := by
  unfold decimalValue?
  cases hz : decimalZeros.find? fun z => z ≤ c.toNat && c.toNat < z + 10 with
  | none => exact Nat.zero_lt_succ 9
  | some z =>
    have hc := List.find?_some hz
    simp only [Bool.and_eq_true, decide_eq_true_eq] at hc
    simp only [Option.map_some, Option.getD_some]
    omega

theorem decimalNumeral_lt (cs : List Char) : decimalNumeral cs < 10 ^ cs.length := by
  have hn (n : Nat) : cs.foldl (fun n c => 10 * n + (decimalValue? c).getD 0) n < (n + 1) * 10 ^ cs.length := by
    induction cs generalizing n with
    | nil => simp
    | cons c cs ih =>
      rw [List.foldl_cons, List.length_cons, Nat.pow_succ', ← Nat.mul_assoc]
      refine Nat.lt_of_lt_of_le (ih _) (Nat.mul_le_mul_right _ ?_)
      have := decimalValue?_lt (c := c)
      omega
  rw [decimalNumeral]
  simpa using hn 0

/-! ## Printed numbers -/

theorem decimalDigits_eq (n : Nat) : decimalDigits n = Nat.toDigits 10 n := Nat.toList_repr

theorem decimalDigits_digits (n : Nat) : Digits (decimalDigits n) := by
  intro c hc
  rw [decimalDigits_eq] at hc
  exact Nat.isDigit_of_mem_toDigits (by decide) (by decide) hc

theorem decimalDigits_ne_nil (n : Nat) : decimalDigits n ≠ [] := by
  rw [decimalDigits_eq]
  exact Nat.toDigits_ne_nil

theorem decimalNumeral_decimalDigits (n : Nat) : decimalNumeral (decimalDigits n) = n := by
  rw [decimalNumeral_eq (decimalDigits_digits n), decimalDigits_eq, Nat.ofDigitChars_ten_toDigits]

theorem lt_pow_length_decimalDigits (n : Nat) : n < 10 ^ (decimalDigits n).length := by
  rw [decimalDigits_eq]
  exact (Nat.length_toDigits_le_iff (by decide) Nat.length_toDigits_pos).mp (Nat.le_refl _)

theorem pow_length_decimalDigits_le {n : Nat} (hn : 0 < n) : 10 ^ ((decimalDigits n).length - 1) ≤ n := by
  rw [decimalDigits_eq]
  rcases Nat.eq_zero_or_pos ((Nat.toDigits 10 n).length - 1) with hz | hp
  · rw [hz]
    exact hn
  · refine Nat.le_of_not_lt fun hc => ?_
    have := (Nat.length_toDigits_le_iff (by decide) hp).mpr hc
    omega

/-! ## Integers -/

theorem integer_toList (n : Int) : (toString n).toList = (if n < 0 then ['-'] else []) ++ decimalDigits n.natAbs := by
  rw [Int.toString_eq_repr, Int.repr_eq_if]
  split
  · rename_i h
    have hn : n.natAbs = n.toNat := by omega
    simp [hn, decimalDigits, h]
  · rename_i h
    have hn : n.natAbs = (-n).toNat := by omega
    have hlt : n < 0 := by omega
    simp [hn, decimalDigits, hlt]

def NoDigit (x : List Char) : Prop := ∀ c ∈ x.head?, c.isDigit = false

@[simp] theorem noDigit_nil : NoDigit [] := by simp [NoDigit]

@[simp] theorem noDigit_cons {c : Char} {x : List Char} : NoDigit (c :: x) ↔ c.isDigit = false := by simp [NoDigit]

theorem digits_inj {as bs x y : List Char} (ha : Digits as) (hb : Digits bs) (hx : NoDigit x) (hy : NoDigit y)
    (h : as ++ x = bs ++ y) : as = bs ∧ x = y := span_inj ha hb hx hy h

theorem decimalDigits_head (n : Nat) : ∃ d ds, decimalDigits n = d :: ds ∧ d.isDigit = true := by
  obtain ⟨d, ds, hd⟩ := List.exists_cons_of_ne_nil (decimalDigits_ne_nil n)
  exact ⟨d, ds, hd, decimalDigits_digits n d (hd ▸ List.mem_cons_self)⟩

theorem decimalDigits_inj {m n : Nat} {x y : List Char} (hx : NoDigit x) (hy : NoDigit y)
    (h : decimalDigits m ++ x = decimalDigits n ++ y) : m = n ∧ x = y := by
  obtain ⟨hd, hxy⟩ := digits_inj (decimalDigits_digits m) (decimalDigits_digits n) hx hy h
  exact ⟨by rw [← decimalNumeral_decimalDigits m, hd, decimalNumeral_decimalDigits], hxy⟩

theorem integer_inj {m n : Int} {x y : List Char} (hx : NoDigit x) (hy : NoDigit y)
    (h : (toString m).toList ++ x = (toString n).toList ++ y) : m = n ∧ x = y := by
  rw [integer_toList, integer_toList] at h
  obtain ⟨c, cs, hc, hcd⟩ := decimalDigits_head m.natAbs
  obtain ⟨d, ds, hd, hdd⟩ := decimalDigits_head n.natAbs
  by_cases hm : m < 0
  · by_cases hn : n < 0
    · simp only [hm, hn, if_true, List.cons_append, List.nil_append, List.cons.injEq, true_and] at h
      obtain ⟨habs, hxy⟩ := decimalDigits_inj hx hy h
      exact ⟨by omega, hxy⟩
    · simp only [hm, hn, hd, if_true, if_false, List.cons_append, List.nil_append, List.cons.injEq] at h
      rw [← h.1] at hdd
      exact absurd hdd (by decide)
  · by_cases hn : n < 0
    · simp only [hm, hn, hc, if_true, if_false, List.cons_append, List.nil_append, List.cons.injEq] at h
      rw [h.1] at hcd
      exact absurd hcd (by decide)
    · simp only [hm, hn, if_false, List.nil_append] at h
      obtain ⟨habs, hxy⟩ := decimalDigits_inj hx hy h
      exact ⟨by omega, hxy⟩

end Workflow
