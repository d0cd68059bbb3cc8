import Workflow.Proofs.Text.Split
import Workflow.Yaml.Lexeme

/-!
# A cursor on one line

On printed characters of ASCII the cursor moves one column each and stays on its line. What the readers of a text do is
given as what they read and where they leave the cursor.
-/

namespace Workflow.Yaml

def IsPrinted (c : Char) : Prop := 32 ≤ c.toNat ∧ c.toNat < 127

instance (c : Char) : Decidable (IsPrinted c) := inferInstanceAs (Decidable (_ ∧ _))

theorem IsPrinted.ne {c d : Char} (h : IsPrinted c) (hd : ¬ IsPrinted d) : c ≠ d := by
  rintro rfl
  exact hd h

theorem IsPrinted.not_break {c : Char} (h : IsPrinted c) : isBreak c = false := by
  have hne (d : Char) (hd : ¬ IsPrinted d) : c ≠ d := h.ne hd
  simp only [isBreak, List.contains_eq_mem, List.mem_cons, List.not_mem_nil, or_false, decide_eq_false_iff_not, not_or]
  exact ⟨hne _ (by decide), hne _ (by decide), hne _ (by decide), hne _ (by decide), hne _ (by decide)⟩

theorem IsPrinted.documentChar {c : Char} (h : IsPrinted c) : isDocumentChar c = true := by
  unfold IsPrinted at h
  simp only [isDocumentChar, Bool.or_eq_true, Bool.and_eq_true, decide_eq_true_eq]
  omega

def Printed (cs : List Char) : Prop := ∀ c ∈ cs, IsPrinted c

theorem Printed.append {cs ds : List Char} (hc : Printed cs) (hd : Printed ds) : Printed (cs ++ ds) := by
  intro e he
  rcases List.mem_append.mp he with he | he
  · exact hc e he
  · exact hd e he

instance (cs : List Char) : Decidable (Printed cs) := List.decidableBAll _ cs

namespace Cursor

variable {c : Cursor} {cs ds more : List Char} {m n : Nat}

/-- The cursor `n` columns to the right, with something left to read. -/
def ahead (c : Cursor) (more : List Char) (n : Nat) : Cursor := ⟨more, c.index + n, c.line, c.column + n⟩

@[simp] theorem ahead_rest : (c.ahead more n).rest = more := rfl

@[simp] theorem ahead_index : (c.ahead more n).index = c.index + n := rfl

@[simp] theorem ahead_line : (c.ahead more n).line = c.line := rfl

@[simp] theorem ahead_ahead : (c.ahead cs m).ahead more n = c.ahead more (m + n) := by simp [ahead, Nat.add_assoc]

theorem ahead_zero (h : c.rest = more) : c.ahead more 0 = c := by
  rw [← h]
  rfl

theorem step_printed {d : Char} (h : c.rest = d :: more) (hd : IsPrinted d) : c.step = c.ahead more 1 := by
  have hr : d ≠ '\r' := hd.ne (by decide)
  have hm : d ≠ byteOrderMark := hd.ne (by decide)
  unfold step
  split
  · rename_i he
    rw [h] at he
    cases he
  · rename_i he
    rw [h, List.cons.injEq] at he
    exact absurd he.1 hr
  · rename_i he
    rw [h, List.cons.injEq] at he
    rw [← he.1, ← he.2, if_neg (by simp [hd.not_break]), if_neg hm]
    rfl

theorem skip_printed (h : c.rest = cs ++ more) (hp : Printed cs) : c.skip cs.length = c.ahead more cs.length := by
  induction cs generalizing c with
  | nil => exact (ahead_zero h).symm
  | cons d cs ih =>
    obtain ⟨hd, hcs⟩ := List.forall_mem_cons.mp hp
    rw [List.length_cons, skip, step_printed h hd, ih rfl hcs, ahead_ahead, Nat.add_comm]

end Cursor

namespace Lex

variable {c : Cursor} {d : Char} {cs more : List Char} {p : Char → Bool} {α β : Type}

/-! ## Readers -/

def Reads (r : Lex α) (c : Cursor) (a : α) (c' : Cursor) : Prop := r.run c = some (a, c')

theorem Reads.bind {r : Lex α} {f : α → Lex β} {c' c'' : Cursor} {a : α} {b : β} (h : Reads r c a c')
    (hf : Reads (f a) c' b c'') : Reads (r >>= f) c b c'' := by
  unfold Reads at *
  rw [StateT.run_bind, h]
  exact hf

theorem reads_pure (a : α) (c : Cursor) : Reads (pure a) c a c := rfl

theorem reads_rest (c : Cursor) : Reads rest c c.rest c := rfl

theorem reads_peek (c : Cursor) : Reads peek c c.rest.head? c := rfl

theorem reads_bound (c : Cursor) : Reads bound c (c.rest.length + 1) c := rfl

theorem reads_skip (h : c.rest = cs ++ more) (hp : Printed cs) : Reads (skip cs.length) c () (c.ahead more cs.length) := by
  rw [← Cursor.skip_printed h hp]
  rfl

theorem reads_skip_one (h : c.rest = d :: more) (hd : IsPrinted d) : Reads (skip 1) c () (c.ahead more 1) := by
  have hone : Printed [d] := by simpa [Printed] using hd
  exact reads_skip h hone

theorem reads_check {b : Bool} (h : b = true) (c : Cursor) : Reads (check b) c () c := by
  rw [h]
  rfl

def Stops (p : Char → Bool) (cs : List Char) : Prop := ∀ d ∈ cs.head?, p d = false

theorem stops_break (hp : Printed cs) (hd : IsPrinted d) : Stops isBreak (cs ++ d :: more) := by
  cases cs with
  | nil => simpa [Stops] using hd.not_break
  | cons e cs => simpa [Stops] using (hp e List.mem_cons_self).not_break

theorem reads_takeRun (h : c.rest = cs ++ more) (hp : Printed cs) (hcs : ∀ d ∈ cs, p d = true) (hm : Stops p more) :
    Reads (takeRun p) c cs (c.ahead more cs.length) := by
  refine (reads_rest c).bind ?_
  rw [h, (span_append hcs hm).1]
  exact (reads_skip h hp).bind (reads_pure ..)

theorem reads_lineBreak (h : Stops isBreak c.rest) : Reads lineBreak c [] c := by
  refine (reads_rest c).bind ?_
  cases hr : c.rest with
  | nil => exact reads_pure ..
  | cons d ds =>
    have hb : isBreak d = false := h d (by rw [hr]; rfl)
    have hd : d ∉ ['\n', '\r', '\x85', '\u2028', '\u2029'] := by simpa [isBreak] using hb
    simp only [List.mem_cons, List.not_mem_nil, or_false, not_or] at hd
    split
    · rename_i he
      rw [List.cons.injEq] at he
      exact absurd he.1 hd.2.1
    · rename_i he
      rw [List.cons.injEq] at he
      rw [← he.1, if_neg (by simp [hd]), if_neg (by simp [hb])]
      exact reads_pure ..
    · rename_i he
      cases he

end Lex

end Workflow.Yaml
