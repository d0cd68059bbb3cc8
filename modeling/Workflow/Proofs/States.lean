import Workflow.Proofs.Check.Expressions
import Workflow.Proofs.Predicate.Binding

/-!
# Predicates on states

A predicate on the state of an entity needs no order, so every condition that it is bound to is decided in every state.
A state meets the predicate exactly if it meets them all.
-/

namespace Workflow

/-- Whether a state meets a condition. A condition that needs an order is met by none. -/
def BoundCondition.meets (state : Option String) (b : BoundCondition) : Bool := (b.holdsFor state).toOption == some true

def BoundCondition.Unordered (b : BoundCondition) : Prop := ∀ c op s, b = .comparison c op s → op.isOrder = false

section
variable {state : Option String} {b : BoundCondition} {bs : List BoundCondition} {context : Members} {expression : String}

theorem BoundCondition.meets_eq {a : Bool} (h : b.holdsFor state = .ok a) : b.meets state = a := by
  rw [meets, h]
  cases a <;> rfl

theorem BoundCondition.Unordered.holdsFor (h : b.Unordered) : b.holdsFor state = .ok (b.meets state) := by
  have hdecided : ∃ a, b.holdsFor state = .ok a := by
    cases b with
    | membership c negated ss => exact ⟨_, rfl⟩
    | comparison c op s =>
      have ho := h c op s rfl
      cases op <;> first | exact ⟨_, rfl⟩ | cases ho
  obtain ⟨a, ha⟩ := hdecided
  rw [ha, BoundCondition.meets_eq ha]

theorem holdsForAll_eq (h : ∀ b ∈ bs, b.Unordered) : holdsForAll state bs = .ok (bs.all (BoundCondition.meets state)) := by
  induction bs with
  | nil => rfl
  | cons b bs ih =>
    obtain ⟨hb, hbs⟩ := List.forall_mem_cons.mp h
    rw [holdsForAll, hb.holdsFor, List.all_cons]
    cases b.meets state with
    | true => exact ih hbs
    | false => rfl

namespace Predicate

theorem against_isOrder {op : Operator} (h : op.isOrder = false) (s : Scalar) : (op.against s).isOrder = false := by
  cases op with
  | eq =>
    rw [Operator.against]
    split <;> rfl
  | ne =>
    rw [Operator.against]
    split <;> rfl
  | _ => exact h

theorem Condition.BindsTo.unordered {c : Condition} (h : c.BindsTo context expression b)
    (ho : ∀ column op o, c = .comparison column op o → op.isOrder = false) : b.Unordered := by
  cases h with
  | comparison _ _ =>
    rintro _ _ _ ⟨⟩
    exact against_isOrder (ho _ _ _ rfl) _
  | membership _ _ _ => nofun

end Predicate

theorem evaluateState_eq {p : Predicate} (hp : IsStatePredicate expression p) (hb : p.bind context expression = .ok bs) :
    evaluateState expression context state = .ok (bs.all (BoundCondition.meets state)) := by
  have hunordered : ∀ b ∈ bs, b.Unordered := by
    intro b hm
    obtain ⟨c, hc, hcb⟩ := exists_argument hb b hm
    refine (Predicate.bind_iff.mp hcb).unordered ?_
    rintro column op o rfl
    exact hp.operators column op o hc
  rw [evaluateState, hp.parse, ok_bind, hp.table, hb]
  dsimp only [ok_bind]
  rw [holdsForAll_eq hunordered]
  rfl

end

end Workflow
