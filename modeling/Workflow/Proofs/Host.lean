import Workflow.Invocation

/-!
# What a run keeps

A run changes the state of a host by its requests only. So an invariant of the host that every request keeps is kept by
the run, and what the replies satisfy can be carried along to its result.
-/

namespace Workflow

section
variable {σ α β : Type} {I : σ → Prop} {Q : α → Prop} {R : β → Prop}

/-- A run keeps an invariant of the host, and its result has a property. -/
def Run.Keeps (I : σ → Prop) (m : Run σ α) (Q : α → Prop) : Prop :=
  ∀ s, I s.state → I (m s).2.state ∧ Q (m s).1

namespace Run.Keeps

theorem pure {a : α} (h : Q a) : Run.Keeps I (Pure.pure a) Q := fun _ hs => ⟨hs, h⟩

theorem pure_ok {ε : Type} {a : α} (h : Q a) :
    Run.Keeps I (Pure.pure (Except.ok a : Except ε α)) fun r => ∀ a, r = .ok a → Q a := by
  refine Keeps.pure ?_
  rintro _ ⟨⟩
  exact h

theorem pure_error {ε : Type} {E : ε → Prop} {e : ε} (h : E e) :
    Run.Keeps I (Pure.pure (Except.error e : Except ε α)) fun r => ∀ e, r = .error e → E e := by
  refine Keeps.pure ?_
  rintro _ ⟨⟩
  exact h

theorem bind {m : Run σ α} {f : α → Run σ β} (hm : Run.Keeps I m Q) (hf : ∀ a, Q a → Run.Keeps I (f a) R) :
    Run.Keeps I (m >>= f) R := by
  intro s hs
  obtain ⟨hi, hq⟩ := hm s hs
  exact hf _ hq _ hi

theorem note {level : LogLevel} {logger event : String} {fields : List (String × Value)} :
    Run.Keeps I (Run.note level logger event fields) fun _ => True := fun _ hs => ⟨hs, trivial⟩

theorem ask {h : Host σ} {r : Request} {Q : Except Failure r.Reply → Prop}
    (hr : ∀ s, I s → I (h r s).2 ∧ Q (h r s).1) : Run.Keeps I (Run.ask h r) Q := fun s hs => hr s.state hs

end Run.Keeps

end

end Workflow
