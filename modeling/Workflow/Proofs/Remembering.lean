import Workflow.Invocation

/-!
# Hosts that remember

A host may keep something of everything that it answers. A run over such a host does what it does over the host itself; so
what was kept can be told of every run, and is put together along its steps.
-/

namespace Workflow

def remembering {σ γ : Type} (keep : (r : Request) → Except Failure r.Reply → List γ) (h : Host σ) : Host (σ × List γ) :=
  fun r s =>
    let (reply, state) := h r s.1
    (reply, state, s.2 ++ keep r reply)

/-- A session with a host that kept something before. -/
def Session.remembered {σ γ : Type} (s : Session σ) (kept : List γ) : Session (σ × List γ) := ⟨(s.state, kept), s.log⟩

section
variable {σ α β γ : Type} {h : Host σ} {I : σ → Prop} {m : Run σ α} {m' : Run (σ × List γ) α} {T U : List γ → α → Prop}
  {R : List γ → β → Prop}

/-- From a state with some property, a run over a host that remembers has the result and the state of a run over the host
itself. The state keeps the property, and what was kept on the way is related to the result. -/
def Run.Remembers (I : σ → Prop) (m : Run σ α) (m' : Run (σ × List γ) α) (T : List γ → α → Prop) : Prop :=
  ∀ s kept, I s.state →
    ∃ t, m' (s.remembered kept) = ((m s).1, (m s).2.remembered (kept ++ t)) ∧ I (m s).2.state ∧ T t (m s).1

namespace Run.Remembers

theorem mono (hm : Run.Remembers I m m' T) (h : ∀ t a, T t a → U t a) : Run.Remembers I m m' U := by
  intro s kept hs
  obtain ⟨t, he, hi, ht⟩ := hm s kept hs
  exact ⟨t, he, hi, h _ _ ht⟩

theorem pure {a : α} (h : T [] a) : Run.Remembers I (Pure.pure a) (Pure.pure a) T := by
  intro s kept hs
  refine ⟨[], ?_, hs, h⟩
  rw [List.append_nil]
  rfl

theorem pure_behind {t : List γ} {a : α} (h : T t a) : Run.Remembers I (Pure.pure a) (Pure.pure a) fun u b => T (t ++ u) b :=
  pure (by rwa [List.append_nil])

theorem bind {f : α → Run σ β} {f' : α → Run (σ × List γ) β} (hm : Run.Remembers I m m' T)
    (hf : ∀ t a, T t a → Run.Remembers I (f a) (f' a) fun u b => R (t ++ u) b) :
    Run.Remembers I (m >>= f) (m' >>= f') R := by
  intro s kept hs
  obtain ⟨t, he, hi, ht⟩ := hm s kept hs
  obtain ⟨u, he', hi', hu⟩ := hf t _ ht (m s).2 (kept ++ t) hi
  refine ⟨t ++ u, ?_, hi', hu⟩
  rw [← List.append_assoc]
  change f' (m' (s.remembered kept)).1 (m' (s.remembered kept)).2 = _
  rw [he]
  exact he'

theorem note {level : LogLevel} {logger event : String} {fields : List (String × Value)} :
    Run.Remembers (γ := γ) I (Run.note (σ := σ) level logger event fields) (Run.note level logger event fields)
      fun t _ => t = [] := by
  intro s kept hs
  refine ⟨[], ?_, hs, rfl⟩
  rw [List.append_nil]
  rfl

theorem ask {keep : (r : Request) → Except Failure r.Reply → List γ} {r : Request} (hi : ∀ s, I s → I (h r s).2) :
    Run.Remembers I (Run.ask h r) (Run.ask (remembering keep h) r) fun t x =>
      (∃ s, I s ∧ (h r s).1 = x) ∧ t = keep r x :=
  fun s _ hs => ⟨_, rfl, hi s.state hs, ⟨s.state, hs, rfl⟩, rfl⟩

theorem result (hm : Run.Remembers I m m' T) {s : Session σ} (hs : I s.state) {a : α} (ha : (m s).1 = a) :
    T (m' (s.remembered [])).2.state.2 a := by
  obtain ⟨t, he, -, ht⟩ := hm s [] hs
  rw [he]
  exact ha ▸ ht

end Run.Remembers

theorem noteEmptyColumns_remembers {p : Prepared} :
    Run.Remembers (γ := γ) I (noteEmptyColumns p) (noteEmptyColumns p) fun t _ => t = [] := by
  unfold noteEmptyColumns
  split
  · exact .pure rfl
  · exact .note

end

end Workflow
