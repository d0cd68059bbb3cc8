import Mathlib.Algebra.Order.Ring.Nat
import Workflow.Value.Canonical
import Workflow.Yaml.Lexeme

/-!
# Escapes

A character that is escaped is told by its escape: by the letter or by the digits that stand for it. No other character
starts like an escape, and none is written as the quote that ends a text.
-/

namespace Workflow

/-! ## Hexadecimal digits -/

theorem length_hexDigits (w n : Nat) : (hexDigits w n).length = w := by
  induction w generalizing n with
  | zero => rfl
  | succ w ih => rw [hexDigits, List.length_append, ih, List.length_singleton]

theorem hexDigit?_hexDigit : ∀ n < 16, Yaml.Lex.hexDigit? (hexDigit n) = some n := by decide

theorem hexNumeral?_hexDigits (w n : Nat) : Yaml.Lex.hexNumeral? (hexDigits w n) = some (n % 16 ^ w) := by
  induction w generalizing n with
  | zero =>
    rw [Nat.pow_zero, Nat.mod_one]
    rfl
  | succ w ih =>
    have hhigh := ih (n / 16)
    have hlow := hexDigit?_hexDigit (n % 16) (Nat.mod_lt n (by decide))
    unfold Yaml.Lex.hexNumeral? at hhigh ⊢
    rw [hexDigits, List.foldlM_append, hhigh]
    simp [hlow, Nat.pow_succ', Nat.mod_mul, Nat.add_comm]

/-! ## Letters -/

theorem escapeChar?_letter {c e : Char} (h : letterEscape? c = some e) : Yaml.Lex.escapeChar? e = some c := by
  unfold letterEscape? at h
  split at h
  · rename_i hc
    cases h
    rcases hc with rfl | rfl
    all_goals decide
  split at h
  · rename_i hc
    cases h
    rw [hc]
    rfl
  split at h
  · rename_i hc
    cases h
    rw [hc]
    rfl
  split at h
  · rename_i hc
    cases h
    rw [hc]
    rfl
  split at h
  · rename_i hc
    cases h
    have hx : c = '\x08' := Char.toNat_inj.mp hc
    rw [hx]
    rfl
  split at h
  · rename_i hc
    cases h
    have hx : c = '\x0c' := Char.toNat_inj.mp hc
    rw [hx]
    rfl
  · cases h

theorem letterEscape?_ne {c : Char} : letterEscape? c ≠ some 'u' := by
  intro h
  cases escapeChar?_letter h

theorem ne_of_letterEscape? {c : Char} (h : letterEscape? c = none) : c ≠ '\\' ∧ c ≠ doubleQuote := by
  constructor
  all_goals
    intro hc
    rw [hc] at h
    revert h
    decide

/-! ## Canonical characters -/

section
variable {c d : Char} {x y : List Char}

theorem canonicalChar_of_letter {e : Char} (h : letterEscape? c = some e) : canonicalChar c = ['\\', e] := by
  simp [canonicalChar, h]

theorem canonicalChar_of_control (h : letterEscape? c = none) (hc : c.toNat < 32) :
    canonicalChar c = '\\' :: 'u' :: hexDigits 4 c.toNat := by
  simp [canonicalChar, h, hc, unitEscape]

theorem canonicalChar_of_plain (h : letterEscape? c = none) (hc : ¬ c.toNat < 32) : canonicalChar c = [c] := by
  simp [canonicalChar, h, hc]

theorem canonicalChar_ne_quote (c : Char) (x : List Char) : (canonicalChar c ++ x).head? ≠ some doubleQuote := by
  cases hl : letterEscape? c with
  | some e =>
    rw [canonicalChar_of_letter hl]
    simp
    decide
  | none =>
    by_cases hc : c.toNat < 32
    · rw [canonicalChar_of_control hl hc]
      simp
      decide
    · rw [canonicalChar_of_plain hl hc]
      simpa using (ne_of_letterEscape? hl).2

/-- The character that a canonical text starts with, and what follows it. -/
def leadingChar? : List Char → Option (Char × List Char)
  | '\\' :: 'u' :: rest => (Yaml.Lex.hexNumeral? (rest.take 4)).map fun n => (Char.ofNat n, rest.drop 4)
  | '\\' :: e :: rest => (Yaml.Lex.escapeChar? e).map fun c => (c, rest)
  | c :: rest => some (c, rest)
  | [] => none

theorem leadingChar?_canonicalChar (c : Char) (x : List Char) : leadingChar? (canonicalChar c ++ x) = some (c, x) := by
  cases hl : letterEscape? c with
  | some e =>
    have hu : e ≠ 'u' := fun he => letterEscape?_ne (he ▸ hl)
    rw [canonicalChar_of_letter hl]
    simp [leadingChar?, escapeChar?_letter hl]
  | none =>
    by_cases hc : c.toNat < 32
    · have hdigits := hexNumeral?_hexDigits 4 c.toNat
      rw [Nat.mod_eq_of_lt (by omega)] at hdigits
      rw [canonicalChar_of_control hl hc]
      have hlen := length_hexDigits 4 c.toNat
      simp [leadingChar?, List.take_left' hlen, List.drop_left' hlen, hdigits]
    · have hne := (ne_of_letterEscape? hl).1
      rw [canonicalChar_of_plain hl hc]
      simp [leadingChar?, hne]

theorem canonicalChar_inj (h : canonicalChar c ++ x = canonicalChar d ++ y) : c = d ∧ x = y := by
  have hc := leadingChar?_canonicalChar c x
  rw [h, leadingChar?_canonicalChar] at hc
  simpa using hc.symm

/-- A text ends at the first quote that is not escaped. -/
theorem canonicalChars_inj {cs ds : List Char}
    (h : cs.flatMap canonicalChar ++ doubleQuote :: x = ds.flatMap canonicalChar ++ doubleQuote :: y) :
    cs = ds ∧ x = y := by
  induction cs generalizing ds with
  | nil =>
    cases ds with
    | nil => simpa using h
    | cons d ds =>
      rw [List.flatMap_cons, List.append_assoc] at h
      have hd := canonicalChar_ne_quote d (ds.flatMap canonicalChar ++ doubleQuote :: y)
      rw [← h] at hd
      exact absurd rfl hd
  | cons c cs ih =>
    rw [List.flatMap_cons, List.append_assoc] at h
    cases ds with
    | nil =>
      have hc := canonicalChar_ne_quote c (cs.flatMap canonicalChar ++ doubleQuote :: x)
      rw [h] at hc
      exact absurd rfl hc
    | cons d ds =>
      rw [List.flatMap_cons, List.append_assoc] at h
      obtain ⟨hcd, hrest⟩ := canonicalChar_inj h
      obtain ⟨hcs, hxy⟩ := ih hrest
      exact ⟨by rw [hcd, hcs], hxy⟩

theorem canonicalText_inj {s t : String} (h : canonicalText s ++ x = canonicalText t ++ y) : s = t ∧ x = y := by
  simp only [canonicalText, List.cons_append, List.append_assoc, List.nil_append, List.cons.injEq, true_and] at h
  obtain ⟨hst, hxy⟩ := canonicalChars_inj h
  exact ⟨String.toList_inj.mp hst, hxy⟩

end

end Workflow
