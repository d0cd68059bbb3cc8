import Workflow.Predicate.Render
import Workflow.Proofs.Predicate.Bound

/-!
# The text of a clause

Conditions that have the form of a clause are rendered as their text, exactly if every integer among their values has few
enough digits to be written. Nothing else can break the rendering down.
-/

namespace Workflow

/-- The literal of a scalar that can be written. -/
def Scalar.literalText : Scalar → String
  | null => "NULL"
  | bool b => if b then "TRUE" else "FALSE"
  | int n => toString n
  | float x => x.text
  | s => sqlText s.plainText

theorem Scalar.sql_eq (s : Scalar) : s.sql = if s.isWritable then .ok s.literalText else .error .unwritten := by
  cases s <;> rfl

namespace BoundCondition

def isWritable (b : BoundCondition) : Bool := b.values.all Scalar.isWritable

def text : BoundCondition → String
  | comparison c op s =>
    match op with
    | .isNull => c ++ " IS NULL"
    | .notNull => c ++ " IS NOT NULL"
    | op => c ++ " " ++ op.text ++ " " ++ s.literalText
  | membership c negated values =>
    c ++ (if negated then " NOT IN (" else " IN (") ++ joinWith ", " (values.map Scalar.literalText) ++ ")"

theorem Regular.render_eq {b : BoundCondition} (h : b.Regular) :
    b.render = if b.isWritable then .ok b.text else .error .unwritten := by
  cases h with
  | nullTest _ ho => rcases ho with rfl | rfl <;> rfl
  | @comparison c op s _ ho _ =>
    have hw : (BoundCondition.comparison c op s).isWritable = s.isWritable := Bool.and_true _
    cases op with
    | isNull => exact absurd rfl ho.1
    | notNull => exact absurd rfl ho.2
    | _ => simp only [render, Scalar.sql_eq, map_ite, hw, text]
  | membership _ _ =>
    simp only [render, mapM_guarded fun s _ => Scalar.sql_eq s, map_ite]
    rfl

end BoundCondition

def clauseText (bs : List BoundCondition) : String := joinWith " AND " (bs.map BoundCondition.text)

section
variable {bs : List BoundCondition}

theorem renderClause_eq (hb : ∀ b ∈ bs, b.Regular) :
    renderClause bs = if bs.all BoundCondition.isWritable then .ok (clauseText bs) else .error .unwritten := by
  rw [renderClause, mapM_guarded fun b hm => (hb b hm).render_eq, map_ite]
  rfl

theorem all_isWritable : bs.all BoundCondition.isWritable = true ↔ ∀ b ∈ bs, ∀ s ∈ b.values, s.isWritable = true := by
  simp only [BoundCondition.isWritable, List.all_eq_true]

theorem renderClause_eq_ok (hb : ∀ b ∈ bs, b.Regular) {text : String} :
    renderClause bs = .ok text ↔ (∀ b ∈ bs, ∀ s ∈ b.values, s.isWritable = true) ∧ text = clauseText bs := by
  rw [renderClause_eq hb, ite_eq_ok, all_isWritable]

theorem renderClause_eq_error (hb : ∀ b ∈ bs, b.Regular) {e : Breakdown} :
    renderClause bs = .error e ↔ (∃ b ∈ bs, ∃ s ∈ b.values, s.isWritable = false) ∧ e = .unwritten := by
  have hsome : (∃ b ∈ bs, ∃ s ∈ b.values, s.isWritable = false) ↔ bs.all BoundCondition.isWritable = false := by
    rw [← Bool.not_eq_true, all_isWritable]
    simp
  rw [renderClause_eq hb, ite_eq_error, hsome]

end

end Workflow
