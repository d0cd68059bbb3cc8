import Mathlib.Data.List.Lex
import Workflow.Value.Canonical

/-!
# Keys by their units

Different texts have different units of UTF-16, and keys are ordered by these. So keys are ordered totally.
-/

namespace Workflow

/-! ## Units -/

/-- No character is a half of a pair. -/
theorem toNat_scalar (c : Char) : c.toNat < 0xD800 ∨ 0xDFFF < c.toNat ∧ c.toNat < 0x110000 := by
  have hc : c.val.toNat.isValidChar := c.valid
  exact hc

theorem utf16Units_small {c : Char} (h : c.toNat < 0x10000) : utf16Units c = [c.toNat] := if_pos h

theorem utf16Units_large {c : Char} (h : ¬ c.toNat < 0x10000) :
    utf16Units c = [0xD800 + (c.toNat - 0x10000) / 0x400, 0xDC00 + (c.toNat - 0x10000) % 0x400] := if_neg h

theorem utf16Units_inj {c d : Char} {x y : List Nat} (h : utf16Units c ++ x = utf16Units d ++ y) : c = d ∧ x = y := by
  have hc := toNat_scalar c
  have hd := toNat_scalar d
  by_cases hcs : c.toNat < 0x10000
  · rw [utf16Units_small hcs] at h
    by_cases hds : d.toNat < 0x10000
    · rw [utf16Units_small hds] at h
      simpa [Char.toNat_inj] using h
    · rw [utf16Units_large hds] at h
      simp only [List.cons_append, List.cons.injEq] at h
      omega
  · rw [utf16Units_large hcs] at h
    by_cases hds : d.toNat < 0x10000
    · rw [utf16Units_small hds] at h
      simp only [List.cons_append, List.cons.injEq] at h
      omega
    · rw [utf16Units_large hds] at h
      simp only [List.cons_append, List.nil_append, List.cons.injEq] at h
      have hn : c.toNat = d.toNat := by omega
      exact ⟨Char.toNat_inj.mp hn, h.2.2⟩

theorem utf16_inj {cs ds : List Char} (h : cs.flatMap utf16Units = ds.flatMap utf16Units) : cs = ds := by
  have hne (c : Char) (cs : List Char) : (c :: cs).flatMap utf16Units ≠ [] := by
    by_cases hc : c.toNat < 0x10000
    · simp [utf16Units_small hc]
    · simp [utf16Units_large hc]
  induction cs generalizing ds with
  | nil =>
    cases ds with
    | nil => rfl
    | cons d ds => exact absurd h.symm (hne d ds)
  | cons c cs ih =>
    cases ds with
    | nil => exact absurd h (hne c cs)
    | cons d ds =>
      rw [List.flatMap_cons, List.flatMap_cons] at h
      obtain ⟨hcd, hrest⟩ := utf16Units_inj h
      rw [hcd, ih hrest]

/-! ## The order of keys -/

theorem unitsBefore_iff {as bs : List Nat} : unitsBefore as bs = true ↔ as ≤ bs := by
  induction as generalizing bs with
  | nil =>
    have hnil : [] ≤ bs := not_lt.mp (List.not_lt_nil bs)
    simp [unitsBefore, hnil]
  | cons a as ih =>
    cases bs with
    | nil =>
      have hcons : ¬ a :: as ≤ [] := not_le.mpr List.Lex.nil
      simp [unitsBefore, hcons]
    | cons b bs =>
      have hlex : a :: as ≤ b :: bs ↔ a < b ∨ a = b ∧ as ≤ bs := by
        rw [le_iff_lt_or_eq, le_iff_lt_or_eq, List.cons_lt_cons_iff, List.cons.injEq]
        tauto
      rw [unitsBefore, hlex]
      split
      · rename_i hab
        simp [hab, ih]
      · rename_i hab
        simp [hab]

theorem canonicalKeyBefore_iff {s t : String} :
    canonicalKeyBefore s t = true ↔ s.toList.flatMap utf16Units ≤ t.toList.flatMap utf16Units := unitsBefore_iff

theorem canonicalKeyBefore_total (s t : String) : (canonicalKeyBefore s t || canonicalKeyBefore t s) = true := by
  rw [Bool.or_eq_true, canonicalKeyBefore_iff, canonicalKeyBefore_iff]
  exact le_total _ _

theorem canonicalKeyBefore_trans {s t u : String} (hst : canonicalKeyBefore s t = true)
    (htu : canonicalKeyBefore t u = true) : canonicalKeyBefore s u = true := by
  rw [canonicalKeyBefore_iff] at *
  exact le_trans hst htu

theorem canonicalKeyBefore_antisymm {s t : String} (hst : canonicalKeyBefore s t = true)
    (hts : canonicalKeyBefore t s = true) : s = t := by
  rw [canonicalKeyBefore_iff] at *
  exact String.toList_inj.mp (utf16_inj (le_antisymm hst hts))

end Workflow
