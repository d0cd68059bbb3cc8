import Workflow.Proofs.Recording

/-!
# What a run asks from a state

A recorded run that begins in a state of its host asks a list of requests, and these determine the state in which it ends.
One rule for each step of a run says what it asks and what its result is.
-/

namespace Workflow

section
variable {σ α β : Type} {h : Host σ} {s : σ} {t u : List Request}

/-- From a state of a host, a run that is recorded asks some requests and has a result. -/
def Run.Ends (h : Host σ) (m : Run (σ × List Request) α) (s : σ) (t : List Request) (a : α) : Prop :=
  ∀ asked log, ∃ log', m ⟨(s, asked), log⟩ = (a, ⟨(h.after s t, asked ++ t), log'⟩)

namespace Run.Ends

theorem pure {a : α} : Run.Ends h (Pure.pure a) s [] a := fun asked log => ⟨log, by rw [List.append_nil]; rfl⟩

theorem note {level : LogLevel} {logger event : String} {fields : List (String × Value)} :
    Run.Ends h (Run.note level logger event fields) s [] () := fun asked log => ⟨_, by rw [List.append_nil]; rfl⟩

theorem ask {r : Request} {x : Except Failure r.Reply} (hx : (h r s).1 = x) :
    Run.Ends h (Run.ask (recording h) r) s [r] x := by
  subst hx
  exact fun _ log => ⟨log, rfl⟩

theorem bind {m : Run (σ × List Request) α} {f : α → Run (σ × List Request) β} {a : α} {b : β} (hm : Run.Ends h m s t a)
    (hf : Run.Ends h (f a) (h.after s t) u b) : Run.Ends h (m >>= f) s (t ++ u) b := by
  intro asked log
  obtain ⟨log', he⟩ := hm asked log
  obtain ⟨log'', he'⟩ := hf (asked ++ t) log'
  refine ⟨log'', ?_⟩
  rw [after_append, ← List.append_assoc, ← he']
  change f (m ⟨(s, asked), log⟩).1 (m ⟨(s, asked), log⟩).2 = _
  rw [he]

theorem bind_quiet {m : Run (σ × List Request) α} {f : α → Run (σ × List Request) β} {a : α} {b : β}
    (hm : Run.Ends h m s t a) (hf : Run.Ends h (f a) (h.after s t) [] b) : Run.Ends h (m >>= f) s t b := by
  simpa using bind hm hf

theorem unique {m : Run (σ × List Request) α} {a a' : α} (hm : Run.Ends h m s t a) (hm' : Run.Ends h m s u a') :
    t = u ∧ a = a' := by
  obtain ⟨_, he⟩ := hm [] []
  obtain ⟨_, he'⟩ := hm' [] []
  obtain ⟨ha, hs⟩ := Prod.mk.inj (he.symm.trans he')
  exact ⟨(Prod.mk.inj (Session.mk.inj hs).1).2, ha⟩

end Run.Ends

/-- From a state of a host, what a recorded run asks is related to its result. -/
def Run.Leads (m : Run (σ × List Request) α) (s : σ) (T : List Request → α → Prop) : Prop :=
  ∀ asked log, ∃ t, (m ⟨(s, asked), log⟩).2.state.2 = asked ++ t ∧ T t (m ⟨(s, asked), log⟩).1

theorem Run.Leads.mono {m : Run (σ × List Request) α} {T U : List Request → α → Prop} (hm : m.Leads s T)
    (h : ∀ t a, T t a → U t a) : m.Leads s U := by
  intro asked log
  obtain ⟨t, ht, ha⟩ := hm asked log
  exact ⟨t, ht, h _ _ ha⟩

theorem Run.Ends.told {m : Run (σ × List Request) α} {a : α} (hm : Run.Ends h m s t a) :
    m.Leads s fun u b => u = t ∧ b = a := by
  intro asked log
  obtain ⟨log', he⟩ := hm asked log
  rw [he]
  exact ⟨t, rfl, rfl, rfl⟩

theorem Run.Records.leads {m : Run σ α} {m' : Run (σ × List Request) α} {T : List Request → α → Prop}
    (hm : Run.Records m m' T) : m'.Leads s T := by
  intro asked log
  obtain ⟨t, he, ht⟩ := hm ⟨s, log⟩ asked
  refine ⟨t, ?_⟩
  change (m' (Session.recorded ⟨s, log⟩ asked)).2.state.2 = _ ∧ T t (m' (Session.recorded ⟨s, log⟩ asked)).1
  rw [he]
  exact ⟨rfl, ht⟩

theorem Run.Ends.leads {m : Run (σ × List Request) α} {f : α → Run (σ × List Request) β} {a : α}
    {T : List Request → β → Prop} (hm : Run.Ends h m s t a) (hf : (f a).Leads (h.after s t) fun u b => T (t ++ u) b) :
    (m >>= f).Leads s T := by
  intro asked log
  obtain ⟨log', he⟩ := hm asked log
  obtain ⟨u, hu, hb⟩ := hf (asked ++ t) log'
  refine ⟨t ++ u, ?_⟩
  change (f (m ⟨(s, asked), log⟩).1 (m ⟨(s, asked), log⟩).2).2.state.2 = _ ∧
    T _ (f (m ⟨(s, asked), log⟩).1 (m ⟨(s, asked), log⟩).2).1
  rw [he]
  exact ⟨by rw [hu, List.append_assoc], hb⟩

/-! ## Checks -/

abbrev Check.Ends (h : Host σ) (m : Check (σ × List Request) α) (s : σ) (t : List Request) (x : Except Stop α) : Prop :=
  Run.Ends h m.run s t x

namespace Check.Ends

theorem pure {a : α} : Check.Ends h (Pure.pure a) s [] (.ok a) := Run.Ends.pure

theorem settled {x : Except Stop α} : Check.Ends h (ExceptT.mk (Pure.pure x)) s [] x := Run.Ends.pure

theorem reject {r : Rejection} : Check.Ends (α := α) h (Workflow.reject r) s [] (.error (.rejected r)) := Run.Ends.pure

theorem bind {m : Check (σ × List Request) α} {f : α → Check (σ × List Request) β} {a : α} {x : Except Stop β}
    (hm : Check.Ends h m s t (.ok a)) (hf : Check.Ends h (f a) (h.after s t) u x) : Check.Ends h (m >>= f) s (t ++ u) x := by
  rw [Check.Ends, ExceptT.run_bind]
  exact Run.Ends.bind hm hf

theorem bind_quiet {m : Check (σ × List Request) α} {f : α → Check (σ × List Request) β} {a : α} {x : Except Stop β}
    (hm : Check.Ends h m s t (.ok a)) (hf : Check.Ends h (f a) (h.after s t) [] x) : Check.Ends h (m >>= f) s t x := by
  simpa using bind hm hf

theorem stop {m : Check (σ × List Request) α} {f : α → Check (σ × List Request) β} {e : Stop}
    (hm : Check.Ends h m s t (.error e)) : Check.Ends h (m >>= f) s t (.error e) := by
  rw [Check.Ends, ExceptT.run_bind]
  exact Run.Ends.bind_quiet hm .pure

theorem expect {a : α} {r : Except ExpressionFault α} (hr : r = .ok a) :
    Check.Ends h (Workflow.expect r) s [] (.ok a) := by
  subst hr
  exact pure

theorem expect_stop {f : ExpressionFault} {r : Except ExpressionFault α} (hr : r = .error f) :
    Check.Ends h (Workflow.expect r) s [] (.error f.stop) := by
  subst hr
  exact Run.Ends.pure

theorem asked {r : Request} {x : Except Failure r.Reply} (hx : (h r s).1 = x) :
    Run.Ends h (liftM (Run.ask (recording h) r) : Check (σ × List Request) _).run s [r] (.ok x) := by
  subst hx
  exact fun _ log => ⟨log, rfl⟩

theorem demand {r : Request} {a : r.Reply} (ha : (h r s).1 = .ok a) :
    Check.Ends h (Workflow.demand (recording h) r) s [r] (.ok a) := bind_quiet (asked ha) pure

theorem demand_stop {r : Request} {f : Failure} (hf : (h r s).1 = .error f) :
    Check.Ends h (Workflow.demand (recording h) r) s [r] (.error f.stop) := bind_quiet (asked hf) Run.Ends.pure

theorem demand_bind {r : Request} {f : r.Reply → Check (σ × List Request) α} {x : r.Reply → Except Stop α}
    (hf : ∀ a, Check.Ends h (f a) (h r s).2 [] (x a)) :
    Check.Ends h (Workflow.demand (recording h) r >>= f) s [r] ((h r s).1.mapError Failure.stop >>= x) := by
  cases hr : (h r s).1 with
  | error e => exact stop (demand_stop hr)
  | ok a => exact bind_quiet (demand hr) (hf a)

end Check.Ends

end

end Workflow
