import Workflow.Proofs.Remembering

/-!
# Recorded runs

A host may keep what it was asked. A run over such a host does what it does over the host itself, so what was asked can be
told of every run; a relation of requests and results is put together along the steps of the run.
-/

namespace Workflow

/-- A host that also keeps what it was asked. -/
def recording {σ : Type} (h : Host σ) : Host (σ × List Request) := fun r s =>
  let (reply, state) := h r s.1
  (reply, state, s.2 ++ [r])

def Host.after {σ : Type} (h : Host σ) (s : σ) (asked : List Request) : σ := asked.foldl (fun s r => (h r s).2) s

/-- What an invocation asks a host, in order. -/
def Plan.requests {σ : Type} (p : Plan) (h : Host σ) (c : Capabilities) (name : String) (payload : Members)
    (current : Option String) (state : σ) : List Request :=
  (p.invoke (recording h) c name payload current ⟨(state, []), []⟩).2.state.2

/-- A session with a recording host that was asked some requests before. -/
def Session.recorded {σ : Type} (s : Session σ) (asked : List Request) : Session (σ × List Request) := ⟨(s.state, asked), s.log⟩

theorem after_append {σ : Type} {h : Host σ} {s : σ} {asked more : List Request} :
    h.after s (asked ++ more) = h.after (h.after s asked) more := List.foldl_append

theorem after_concat {σ : Type} {h : Host σ} {s : σ} {asked : List Request} {r : Request} :
    h.after s (asked ++ [r]) = (h r (h.after s asked)).2 := after_append

section
variable {σ α β : Type} {h : Host σ} {m : Run σ α} {m' : Run (σ × List Request) α} {T U : List Request → α → Prop}
  {R : List Request → β → Prop}

/-- A run over a recording host has the result and the state of a run over the host itself. What was asked on the way is
related to the result. -/
def Run.Records (m : Run σ α) (m' : Run (σ × List Request) α) (T : List Request → α → Prop) : Prop :=
  ∀ s asked, ∃ t, m' (s.recorded asked) = ((m s).1, (m s).2.recorded (asked ++ t)) ∧ T t (m s).1

theorem records_iff : Run.Records m m' T ↔ Run.Remembers (fun _ => True) m m' T := by
  constructor
  · intro hm s asked _
    obtain ⟨t, he, ht⟩ := hm s asked
    exact ⟨t, he, trivial, ht⟩
  · intro hm s asked
    obtain ⟨t, he, -, ht⟩ := hm s asked trivial
    exact ⟨t, he, ht⟩

namespace Run.Records

theorem mono (hm : Run.Records m m' T) (h : ∀ t a, T t a → U t a) : Run.Records m m' U :=
  records_iff.mpr ((records_iff.mp hm).mono h)

theorem pure {a : α} (h : T [] a) : Run.Records (σ := σ) (Pure.pure a) (Pure.pure a) T := records_iff.mpr (.pure h)

theorem bind {f : α → Run σ β} {f' : α → Run (σ × List Request) β} (hm : Run.Records m m' T)
    (hf : ∀ t a, T t a → Run.Records (f a) (f' a) fun u b => R (t ++ u) b) :
    Run.Records (m >>= f) (m' >>= f') R :=
  records_iff.mpr (.bind (records_iff.mp hm) fun t a ht => records_iff.mp (hf t a ht))

theorem note {level : LogLevel} {logger event : String} {fields : List (String × Value)} :
    Run.Records (Run.note (σ := σ) level logger event fields) (Run.note level logger event fields) fun t _ => t = [] :=
  records_iff.mpr .note

theorem ask {r : Request} : Run.Records (Run.ask h r) (Run.ask (recording h) r) fun t x => t = [r] ∧ ∃ s, (h r s).1 = x :=
  fun s _ => ⟨[r], rfl, rfl, s.state, rfl⟩

theorem reached (hm : Run.Records m m' T) : Run.Records m m' fun t a => T t a ∧ ∃ s, (m s).1 = a := by
  intro s asked
  obtain ⟨t, he, ht⟩ := hm s asked
  exact ⟨t, he, ht, s, rfl⟩

theorem result (hm : Run.Records m m' T) {s : Session σ} {a : α} (ha : (m s).1 = a) :
    T (m' (s.recorded [])).2.state.2 a :=
  (records_iff.mp hm).result trivial ha

end Run.Records

/-! ## Checks -/

def Check.Asks (P : Request → Prop) (m : Check σ α) (m' : Check (σ × List Request) α) (Q : α → Prop) : Prop :=
  Run.Records m.run m'.run fun t r => (∀ q ∈ t, P q) ∧ ∀ a, r = .ok a → Q a

namespace Check.Asks

variable {P : Request → Prop} {m : Check σ α} {m' : Check (σ × List Request) α} {Q : α → Prop} {S : β → Prop}

theorem pure {a : α} (h : Q a) : Check.Asks (σ := σ) P (Pure.pure a) (Pure.pure a) Q := by
  refine Run.Records.pure ⟨by simp, ?_⟩
  rintro _ ⟨⟩
  exact h

theorem throw {e : Stop} : Check.Asks (σ := σ) P (throw e) (throw e) Q := Run.Records.pure ⟨by simp, by rintro _ ⟨⟩⟩

theorem reject {r : Rejection} : Check.Asks (σ := σ) P (Workflow.reject r) (Workflow.reject r) Q := throw

theorem bind {f : α → Check σ β} {f' : α → Check (σ × List Request) β} (hm : Check.Asks P m m' Q)
    (hf : ∀ a, Q a → Check.Asks P (f a) (f' a) S) : Check.Asks P (m >>= f) (m' >>= f') S := by
  unfold Check.Asks
  rw [ExceptT.run_bind, ExceptT.run_bind]
  refine Run.Records.bind hm fun t r ⟨ht, hr⟩ => ?_
  cases r with
  | ok a => exact (hf a (hr a rfl)).mono fun u _ hu => ⟨List.forall_mem_append.mpr ⟨ht, hu.1⟩, hu.2⟩
  | error e => exact Run.Records.pure ⟨by simpa using ht, by rintro _ ⟨⟩⟩

theorem ite {c : Prop} [Decidable c] {n : Check σ α} {n' : Check (σ × List Request) α} (hm : Check.Asks P m m' Q)
    (hn : Check.Asks P n n' Q) : Check.Asks P (if c then m else n) (if c then m' else n') Q := by
  split
  · exact hm
  · exact hn

theorem expect {r : Except ExpressionFault α} (h : ∀ a, r = .ok a → Q a) :
    Check.Asks (σ := σ) P (Workflow.expect r) (Workflow.expect r) Q := by
  cases r with
  | ok a => exact pure (h a rfl)
  | error f => exact throw

theorem demand {r : Request} (hr : P r) :
    Check.Asks P (Workflow.demand h r) (Workflow.demand (recording h) r) fun _ => True := by
  have hask : Check.Asks P (liftM (Run.ask h r) : Check σ _) (liftM (Run.ask (recording h) r)) fun _ => True := by
    intro s asked
    exact ⟨[r], rfl, by simpa using hr, fun _ _ => trivial⟩
  refine bind hask fun x _ => ?_
  cases x with
  | ok a => exact pure trivial
  | error f => exact throw

end Check.Asks

end

end Workflow
