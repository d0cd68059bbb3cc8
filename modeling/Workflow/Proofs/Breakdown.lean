import Workflow.Breakdown
import Workflow.Proofs.Except
import Workflow.Proofs.Text.Digits

/-!
# Integers that are written

An integer is written if it has few enough digits, and a value or a path if all of its integers are.
-/

namespace Workflow

theorem isWritable_iff {n : Int} : isWritable n = true ↔ n.natAbs < 10 ^ longestNumeral := by
  rw [isWritable, decide_eq_true_iff, decimalDigits_eq, Nat.length_toDigits_le_iff (by decide) (by decide)]

theorem readDigits_eq_ok {ds : List Char} {n : Nat} :
    readDigits ds = .ok n ↔ ds.length ≤ longestNumeral ∧ n = decimalNumeral ds := by
  unfold readDigits
  split <;> simp [*, eq_comm]

/-- The first number of more digits than are written. Nothing is to compute it. -/
@[irreducible]
def hugeNumber : Nat := 10 ^ longestNumeral

theorem hugeNumber_unwritable : isWritable hugeNumber = false := by
  rw [← Bool.not_eq_true, isWritable_iff, Int.natAbs_natCast]
  unfold hugeNumber
  exact Nat.lt_irrefl _

/-! ## Values and paths -/

theorem Value.writtenText_eq_ok {v : Value} {text : String} :
    v.writtenText = .ok text ↔ v.isWritable = true ∧ text = v.plainText := by
  unfold writtenText
  cases v.isWritable <;> simp [eq_comm]

theorem Value.writtenText_text (t : String) : (Value.scalar (.text t)).writtenText = .ok t :=
  writtenText_eq_ok.mpr ⟨rfl, rfl⟩

theorem writtenPath_eq_ok {path : List PathStep} {text : String} :
    writtenPath path = .ok text ↔ (∀ s ∈ path, s.isWritable = true) ∧ text = dottedPath path := by
  unfold writtenPath
  rw [← List.all_eq_true]
  cases path.all PathStep.isWritable <;> simp [eq_comm]

theorem writtenPath_eq_error {path : List PathStep} {b : Breakdown} :
    writtenPath path = .error b ↔ (∃ s ∈ path, s.isWritable = false) ∧ b = .unwritten := by
  have hsome : (∃ s ∈ path, s.isWritable = false) ↔ path.all PathStep.isWritable = false := by simp
  rw [hsome, writtenPath]
  cases path.all PathStep.isWritable <;> simp [eq_comm]

end Workflow
