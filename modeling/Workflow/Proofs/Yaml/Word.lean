import Workflow.Proofs.Yaml.Cursor

/-!
# Words in a document

The numbers, truth values and nulls of JSON are plain scalars. In brackets a word goes on up to a comma or a closing
bracket, and outside of them to the end of the text.
-/

namespace Workflow.Yaml

def isWordChar (c : Char) : Bool := c.isAlphanum || c == '-' || c == '+' || c == '.'

/-- A text of letters, digits, signs and points that starts with a letter or a digit, but for a minus sign. -/
inductive IsWord : List Char → Prop
  | word {d : Char} {ds : List Char} : d.isAlphanum = true → (∀ e ∈ ds, isWordChar e = true) → IsWord (d :: ds)
  | minus {d : Char} {ds : List Char} : d.isAlphanum = true → (∀ e ∈ ds, isWordChar e = true) → IsWord ('-' :: d :: ds)

def isEnd (c : Char) : Bool := [',', ']', '\x7d'].contains c

def Ends (flow : Bool) (more : List Char) : Prop := more = [] ∨ flow = true ∧ ∃ d ds, more = d :: ds ∧ isEnd d = true

theorem isAlphanum_printed {d : Char} (h : d.isAlphanum = true) : IsPrinted d := by
  delta Char.isAlphanum Char.isAlpha Char.isUpper Char.isLower Char.isDigit at h
  simp [UInt32.le_iff_toNat_le] at h
  have hd : d.val.toNat = d.toNat := rfl
  unfold IsPrinted
  omega

theorem isWordChar_of_isAlphanum {d : Char} (h : d.isAlphanum = true) : isWordChar d = true := by simp [isWordChar, h]

theorem isWordChar_printed {d : Char} (h : isWordChar d = true) : IsPrinted d := by
  simp only [isWordChar, Bool.or_eq_true, beq_iff_eq] at h
  rcases h with ((h | rfl) | rfl) | rfl
  · exact isAlphanum_printed h
  all_goals decide

theorem isWordChar_ne {d e : Char} (h : isWordChar d = true) (he : isWordChar e = false) : d ≠ e := by
  rintro rfl
  rw [h] at he
  cases he

theorem IsWord.chars {w : List Char} (h : IsWord w) : ∀ d ∈ w, isWordChar d = true := by
  cases h with
  | word hd hds => exact List.forall_mem_cons.mpr ⟨isWordChar_of_isAlphanum hd, hds⟩
  | minus hd hds =>
    exact List.forall_mem_cons.mpr ⟨rfl, List.forall_mem_cons.mpr ⟨isWordChar_of_isAlphanum hd, hds⟩⟩

theorem IsWord.printed {w : List Char} (h : IsWord w) : Printed w := fun d hd => isWordChar_printed (h.chars d hd)

theorem IsWord.ne_nil {w : List Char} (h : IsWord w) : w ≠ [] := by
  cases h
  all_goals simp

theorem Ends.stops {flow : Bool} {more : List Char} {p : Char → Bool} (h : Ends flow more)
    (hp : ∀ d, isEnd d = true → p d = false) : Lex.Stops p more := by
  rcases h with rfl | ⟨-, d, ds, rfl, hd⟩
  · simp [Lex.Stops]
  · simpa [Lex.Stops] using hp d hd

theorem isEnd_cases {d : Char} (h : isEnd d = true) : d = ',' ∨ d = ']' ∨ d = '\x7d' := by simpa [isEnd] using h

namespace Lex

variable {c : Cursor} {w more : List Char} {flow : Bool}

theorem plainRun_end (h : Ends flow more) : plainRun flow more = [] := by
  rcases h with rfl | ⟨rfl, d, ds, rfl, hd⟩
  · rfl
  · have hm : d ∈ [',', '?', '[', ']', '\x7b', '\x7d'] := by
      rcases isEnd_cases hd with rfl | rfl | rfl
      all_goals decide
    have hc : [',', '?', '[', ']', '\x7b', '\x7d'].contains d = true := by simpa using hm
    rw [plainRun, if_pos (.inr (.inr ⟨rfl, hc⟩))]

theorem plainRun_append (hw : ∀ d ∈ w, isWordChar d = true) (h : Ends flow more) : plainRun flow (w ++ more) = w := by
  induction w with
  | nil => exact plainRun_end h
  | cons d w ih =>
    obtain ⟨hd, hw⟩ := List.forall_mem_cons.mp hw
    have hne (e : Char) (he : isWordChar e = false) : d ≠ e := isWordChar_ne hd he
    have hend : endsWord (some d) = false := by
      simp [endsWord, hne ' ' (by decide), hne '\t' (by decide), (isWordChar_printed hd).not_break]
    have hcolon : d ≠ ':' := hne ':' (by decide)
    have hmark : [',', '?', '[', ']', '\x7b', '\x7d'].contains d = false := by
      simp [hne ',' (by decide), hne '?' (by decide), hne '[' (by decide), hne ']' (by decide), hne '\x7b' (by decide),
        hne '\x7d' (by decide)]
    rw [List.cons_append, plainRun, if_neg, ih hw]
    simp only [hend, hcolon, hmark, Bool.false_eq_true, false_and, and_false, or_false, not_false_eq_true]

theorem reads_plainSpaces (h : Ends flow c.rest) : Reads plainSpaces c ([], false) c := by
  have hgap : Stops (· == ' ') c.rest := h.stops fun d hd => by
    rcases isEnd_cases hd with rfl | rfl | rfl
    all_goals rfl
  have hbreak : Stops isBreak c.rest := h.stops fun d hd => by
    rcases isEnd_cases hd with rfl | rfl | rfl
    all_goals rfl
  have hpeek : c.rest.head?.any isBreak = false := by
    cases hr : c.rest with
    | nil => rfl
    | cons d ds => exact hbreak d (by rw [hr]; rfl)
  have hnone : c.rest = [] ++ c.rest := rfl
  have ht := reads_takeRun hnone (by simp [Printed]) (by simp) hgap
  rw [List.length_nil, Cursor.ahead_zero rfl] at ht
  refine ht.bind ((reads_peek c).bind ?_)
  rw [hpeek]
  exact reads_pure ..

/-- A word is read to its end, and no line ends there. -/
theorem reads_plain (indent : Int) (hw : IsWord w) (h : c.rest = w ++ more) (he : Ends flow more) :
    Reads (plain flow indent) c (w, false) (c.ahead more w.length) := by
  obtain ⟨d, ds, hd⟩ := List.exists_cons_of_ne_nil hw.ne_nil
  have hsharp : c.rest.head? ≠ some '#' := by
    have := isWordChar_ne (hw.chars d (hd ▸ List.mem_cons_self)) (show isWordChar '#' = false by decide)
    rw [h, hd]
    simpa using this
  have hrun := plainRun_append hw.chars he
  refine (reads_bound c).bind ((reads_peek c).bind ?_)
  rw [if_neg hsharp]
  refine (reads_rest c).bind ?_
  rw [h, hrun, if_neg hw.ne_nil]
  refine (reads_skip h hw.printed).bind ((reads_plainSpaces he).bind ?_)
  exact reads_pure ..

end Lex

end Workflow.Yaml
