import Workflow.Text.Split
import Workflow.Value.Display

/-!
# Splitting at separators

A run of characters of one kind ends where another kind follows. The parts of a text are free of the separator, and the first
of them ends at the first separator. Texts that are free of it are the parts of what they are joined to.
-/

namespace Workflow

/-! ## Runs of characters -/

section
variable {p : Char → Bool} {a b x y : List Char}

theorem span_append (ha : ∀ c ∈ a, p c = true) (hx : ∀ c ∈ x.head?, p c = false) :
    (a ++ x).takeWhile p = a ∧ (a ++ x).dropWhile p = x := by
  rw [List.takeWhile_append_of_pos ha, List.dropWhile_append_of_pos ha]
  cases x with
  | nil => simp
  | cons c x => simp [hx c rfl]

theorem span_inj (ha : ∀ c ∈ a, p c = true) (hb : ∀ c ∈ b, p c = true) (hx : ∀ c ∈ x.head?, p c = false)
    (hy : ∀ c ∈ y.head?, p c = false) (h : a ++ x = b ++ y) : a = b ∧ x = y := by
  obtain ⟨hta, hda⟩ := span_append ha hx
  obtain ⟨htb, hdb⟩ := span_append hb hy
  exact ⟨by rw [← hta, h, htb], by rw [← hda, h, hdb]⟩

end

/-! ## Separators -/

section
variable {c : Char}

theorem sep_cases (c : Char) (s : List Char) : c ∉ s ∨ ∃ a b, s = a ++ c :: b ∧ c ∉ a := by
  by_cases h : c ∈ s
  · obtain ⟨a, b, hs, ha⟩ := List.eq_append_cons_of_mem h
    exact .inr ⟨a, b, hs, ha⟩
  · exact .inl h

theorem append_sep_inj {a b x y : List Char} (ha : c ∉ a) (hx : c ∉ x) (h : a ++ c :: b = x ++ c :: y) :
    a = x ∧ b = y := by
  have hother {l : List Char} (hl : c ∉ l) : ∀ d ∈ l, (d != c) = true := fun d hd => bne_iff_ne.mpr fun he => hl (he ▸ hd)
  obtain ⟨hax, hby⟩ := span_inj (hother ha) (hother hx) (by simp) (by simp) h
  exact ⟨hax, (List.cons.inj hby).2⟩

theorem partsBetween_ne_nil (s : List Char) : partsBetween c s ≠ [] := by
  cases s with
  | nil => simp [partsBetween]
  | cons d s =>
    unfold partsBetween
    split
    · simp
    · split <;> simp

theorem partsBetween_no_sep {s : List Char} (h : c ∉ s) : partsBetween c s = [s] := by
  induction s with
  | nil => rfl
  | cons d s ih =>
    simp only [List.mem_cons, not_or] at h
    rw [partsBetween, if_neg (Ne.symm h.1), ih h.2]

theorem partsBetween_append {a b : List Char} (h : c ∉ a) : partsBetween c (a ++ c :: b) = a :: partsBetween c b := by
  induction a with
  | nil => rw [List.nil_append, partsBetween, if_pos rfl]
  | cons d a ih =>
    simp only [List.mem_cons, not_or] at h
    rw [List.cons_append, partsBetween, if_neg (Ne.symm h.1), ih h.2]

theorem joinWith_cons_cons (separator a b : String) (l : List String) :
    (joinWith separator (a :: b :: l)).toList = a.toList ++ separator.toList ++ (joinWith separator (b :: l)).toList := by
  simp [joinWith, String.intercalate_cons_cons]

theorem joinWith_singleton (separator a : String) : joinWith separator [a] = a := String.intercalate_singleton

theorem partsBetween_joinWith {separator : String} {parts : List String} (hs : separator.toList = [c]) (hne : parts ≠ [])
    (h : ∀ s ∈ parts, c ∉ s.toList) : partsBetween c (joinWith separator parts).toList = parts.map String.toList := by
  induction parts with
  | nil => exact absurd rfl hne
  | cons s parts ih =>
    obtain ⟨hc, hparts⟩ := List.forall_mem_cons.mp h
    cases parts with
    | nil => rw [joinWith_singleton, partsBetween_no_sep hc, List.map_cons, List.map_nil]
    | cons t parts =>
      rw [joinWith_cons_cons, hs, List.append_assoc, List.singleton_append, partsBetween_append hc, ih nofun hparts,
        List.map_cons (a := s)]

end

/-! ## The blanks, one by one -/

def blanks : List Char := ([9, 10, 11, 12, 13, 28, 29, 30, 31, 32, 133, 160, 5760, 8192, 8193, 8194, 8195, 8196, 8197, 8198,
  8199, 8200, 8201, 8202, 8232, 8233, 8239, 8287, 12288] : List Nat).map Char.ofNat

theorem mem_blanks {c : Char} (h : isBlank c = true) : c ∈ blanks := by
  refine List.mem_map.mpr ⟨c.toNat, ?_, Char.ofNat_toNat c⟩
  generalize hn : c.toNat = n
  have hb : CharSet.holds n CharSet.blank.bounds false = true := hn ▸ h
  have hranges : 9 ≤ n ∧ n < 14 ∨ 28 ≤ n ∧ n < 33 ∨ n = 133 ∨ n = 160 ∨ n = 5760 ∨ 8192 ≤ n ∧ n < 8203 ∨
      8232 ≤ n ∧ n < 8234 ∨ n = 8239 ∨ n = 8287 ∨ n = 12288 := by
    simp only [CharSet.blank, CharSet.holds] at hb
    grind
  simp only [List.mem_cons, List.not_mem_nil, or_false]
  omega

theorem stops_of_blank {p : Char → Bool} (hp : blanks.all (fun c => !p c) = true) {c : Char} (h : isBlank c = true) :
    p c = false := by
  simpa using List.all_eq_true.mp hp c (mem_blanks h)

end Workflow
