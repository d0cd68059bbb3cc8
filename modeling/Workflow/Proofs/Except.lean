import Mathlib.Data.List.Forall2

/-!
# Computations that can fail

A sequence of steps succeeds only if each of its steps does, and fails with the failure of one of them.
-/

namespace Workflow

section
variable {ε α β : Type}

@[simp] theorem ok_bind {a : α} {f : α → Except ε β} : (Except.ok a >>= f) = f a := rfl

@[simp] theorem error_bind {e : ε} {f : α → Except ε β} : (Except.error e >>= f) = .error e := rfl

@[simp] theorem pure_eq_ok {a : α} : (pure a : Except ε α) = .ok a := rfl

theorem bind_eq_ok {x : Except ε α} {f : α → Except ε β} {b : β} :
    (x >>= f) = .ok b ↔ ∃ a, x = .ok a ∧ f a = .ok b := by
  cases x with
  | error e => simp
  | ok a => simp

theorem bind_eq_error {x : Except ε α} {f : α → Except ε β} {e : ε} :
    (x >>= f) = .error e ↔ x = .error e ∨ ∃ a, x = .ok a ∧ f a = .error e := by
  cases x with
  | error e' => simp
  | ok a => simp

theorem map_eq_ok {f : α → β} {x : Except ε α} {b : β} : Except.map f x = .ok b ↔ ∃ a, x = .ok a ∧ f a = b := by
  cases x with
  | error e => simp [Except.map]
  | ok a => simp [Except.map]

theorem map_eq_error {f : α → β} {x : Except ε α} {e : ε} : Except.map f x = .error e ↔ x = .error e := by
  cases x with
  | error e' => simp [Except.map]
  | ok a => simp [Except.map]

theorem faults_bind {P : ε → Prop} {x : Except ε α} {f : α → Except ε β} (hx : ∀ e, x = .error e → P e)
    (hf : ∀ a, x = .ok a → ∀ e, f a = .error e → P e) : ∀ e, (x >>= f) = .error e → P e := by
  intro e he
  rcases bind_eq_error.mp he with he | ⟨a, ha, he⟩
  · exact hx e he
  · exact hf a ha e he

theorem forM_faults {P : ε → Prop} {f : α → Except ε Unit} {as : List α} (h : ∀ a ∈ as, ∀ e, f a = .error e → P e) :
    ∀ e, as.forM f = .error e → P e := by
  induction as with
  | nil => nofun
  | cons a as ih => exact faults_bind (h a (by simp)) fun _ _ => ih fun b hb => h b (by simp [hb])

theorem forM_eq_ok {f : α → Except ε Unit} {as : List α} (h : ∀ a ∈ as, f a = .ok ()) : as.forM f = .ok () := by
  induction as with
  | nil => rfl
  | cons a as ih =>
    obtain ⟨ha, has⟩ := List.forall_mem_cons.mp h
    change (f a >>= fun _ => as.forM f) = .ok ()
    rw [ha, ok_bind, ih has]

theorem mapError_eq_ok {δ : Type} {x : Except ε α} {f : ε → δ} {a : α} : x.mapError f = .ok a ↔ x = .ok a := by
  cases x with
  | error e => simp [Except.mapError]
  | ok a => simp [Except.mapError]

theorem mapError_eq_error {δ : Type} {x : Except ε α} {f : ε → δ} {d : δ} :
    x.mapError f = .error d ↔ ∃ e, x = .error e ∧ f e = d := by
  cases x with
  | error e => simp [Except.mapError]
  | ok a => simp [Except.mapError]

theorem mapError_bind_eq_ok {δ : Type} {x : Except ε α} {f : ε → δ} {g : α → Except δ β} {b : β} :
    (x.mapError f >>= g) = .ok b ↔ ∃ a, x = .ok a ∧ g a = .ok b := by
  simp only [bind_eq_ok, mapError_eq_ok]

theorem mapError_bind_eq_error {δ : Type} {x : Except ε α} {f : ε → δ} {g : α → Except δ β} {d : δ} :
    (x.mapError f >>= g) = .error d ↔ (∃ e, x = .error e ∧ f e = d) ∨ ∃ a, x = .ok a ∧ g a = .error d := by
  simp only [bind_eq_error, mapError_eq_error, mapError_eq_ok]

theorem mapM_cons_eq_ok {f : α → Except ε β} {a : α} {as : List α} {bs : List β} :
    (a :: as).mapM f = .ok bs ↔ ∃ b, f a = .ok b ∧ ∃ cs, as.mapM f = .ok cs ∧ bs = b :: cs := by
  rw [List.mapM_cons]
  simp only [bind_eq_ok, pure_eq_ok, Except.ok.injEq]
  constructor
  · rintro ⟨b, hb, cs, hcs, rfl⟩
    exact ⟨b, hb, cs, hcs, rfl⟩
  · rintro ⟨b, hb, cs, hcs, rfl⟩
    exact ⟨b, hb, cs, hcs, rfl⟩

theorem any_toOption {x : Except ε α} {p : α → Bool} : x.toOption.any p = true ↔ ∃ a, x = .ok a ∧ p a = true := by
  cases x with
  | error e => simp [Except.toOption]
  | ok a => simp [Except.toOption]

theorem eq_ok_of_toOption {σ : Type} {x : Except ε α × σ} {a : α} (h : x.1.toOption = some a) : ∃ s, x = (.ok a, s) := by
  obtain ⟨_ | b, s⟩ := x
  · cases h
  · cases h
    exact ⟨s, rfl⟩

theorem eq_error_of_toOption {σ : Type} {x : Except ε α × σ} (h : x.1.toOption = none) : ∃ e s, x = (.error e, s) := by
  obtain ⟨e | b, s⟩ := x
  · exact ⟨e, s, rfl⟩
  · cases h

def fault? : Except ε α → Option ε
  | .ok _ => none
  | .error e => some e

theorem fault?_eq_some {x : Except ε α} {e : ε} : fault? x = some e ↔ x = .error e := by
  cases x with
  | error e' => simp [fault?]
  | ok a => simp [fault?]

theorem any_fault? {x : Except ε α} {p : ε → Bool} : (fault? x).any p = true ↔ ∃ e, x = .error e ∧ p e = true := by
  cases x with
  | error e => simp [fault?]
  | ok a => simp [fault?]

theorem mapM_eq_ok {f : α → Except ε β} {as : List α} {bs : List β} :
    as.mapM f = .ok bs ↔ List.Forall₂ (fun a b => f a = .ok b) as bs := by
  induction as generalizing bs with
  | nil =>
    rw [List.mapM_nil, List.forall₂_nil_left_iff]
    simp [eq_comm]
  | cons a as ih =>
    rw [mapM_cons_eq_ok, List.forall₂_cons_left_iff]
    constructor
    · rintro ⟨b, hb, cs, hcs, rfl⟩
      exact ⟨b, cs, hb, ih.mp hcs, rfl⟩
    · rintro ⟨b, cs, hb, hcs, rfl⟩
      exact ⟨b, hb, cs, ih.mpr hcs, rfl⟩

theorem exists_of_forall₂ {γ δ : Type} {r : γ → δ → Prop} {as : List γ} {bs : List δ} (h : List.Forall₂ r as bs) :
    (∀ a ∈ as, ∃ b ∈ bs, r a b) ∧ ∀ b ∈ bs, ∃ a ∈ as, r a b := by
  induction h with
  | nil => simp
  | cons hab _ ih =>
    refine ⟨List.forall_mem_cons.mpr ⟨⟨_, by simp, hab⟩, fun a ha => ?_⟩,
      List.forall_mem_cons.mpr ⟨⟨_, by simp, hab⟩, fun b hb => ?_⟩⟩
    · obtain ⟨b, hb, hr⟩ := ih.1 a ha
      exact ⟨b, by simp [hb], hr⟩
    · obtain ⟨a, ha, hr⟩ := ih.2 b hb
      exact ⟨a, by simp [ha], hr⟩

theorem exists_mapM {f : α → Except ε β} {as : List α} (h : ∀ a ∈ as, ∃ b, f a = .ok b) : ∃ bs, as.mapM f = .ok bs := by
  induction as with
  | nil => exact ⟨[], rfl⟩
  | cons a as ih =>
    obtain ⟨⟨b, hb⟩, has⟩ := List.forall_mem_cons.mp h
    obtain ⟨bs, hbs⟩ := ih has
    exact ⟨b :: bs, mapM_cons_eq_ok.mpr ⟨b, hb, bs, hbs, rfl⟩⟩

/-- A function with one fault, that a test tells, has it on a list that has an item with the fault. -/
theorem mapM_guarded {f : α → Except ε β} {p : α → Bool} {g : α → β} {e : ε} {as : List α}
    (h : ∀ a ∈ as, f a = if p a then .ok (g a) else .error e) :
    as.mapM f = if as.all p then .ok (as.map g) else .error e := by
  induction as with
  | nil => rfl
  | cons a as ih =>
    obtain ⟨ha, has⟩ := List.forall_mem_cons.mp h
    rw [List.mapM_cons, ha, ih has, List.all_cons]
    cases p a with
    | false => rfl
    | true => cases as.all p <;> rfl

theorem map_ite {p : Bool} {a : α} {e : ε} (g : α → β) :
    Except.map g (if p then .ok a else .error e) = if p then .ok (g a) else .error e := by
  cases p <;> rfl

theorem ite_eq_ok {p : Bool} {a b : α} {e : ε} : (if p then .ok a else .error e : Except ε α) = .ok b ↔ p = true ∧ b = a := by
  cases p <;> simp [eq_comm]

theorem ite_eq_error {p : Bool} {a : α} {e e' : ε} :
    (if p then .ok a else .error e : Except ε α) = .error e' ↔ p = false ∧ e' = e := by
  cases p <;> simp [eq_comm]

theorem mapM_total {f : α → Option β} {g : α → β} {as : List α} (h : ∀ a ∈ as, f a = some (g a)) :
    as.mapM f = some (as.map g) := by
  induction as with
  | nil => rfl
  | cons a as ih =>
    obtain ⟨ha, has⟩ := List.forall_mem_cons.mp h
    simp [ha, ih has]

theorem mapM_eq_some {f : α → Option β} {as : List α} {bs : List β} :
    as.mapM f = some bs ↔ List.Forall₂ (fun a b => f a = some b) as bs := by
  induction as generalizing bs with
  | nil => simp [eq_comm]
  | cons a as ih =>
    rw [List.mapM_cons, List.forall₂_cons_left_iff]
    simp only [bind, pure, Option.bind_eq_some_iff, ih, Option.some.injEq]
    constructor
    · intro h
      obtain ⟨b, hb, cs, hcs, rfl⟩ := h
      exact ⟨b, cs, hb, hcs, rfl⟩
    · intro h
      obtain ⟨b, cs, hb, hcs, rfl⟩ := h
      exact ⟨b, hb, cs, hcs, rfl⟩

theorem exists_result {f : α → Except ε β} {as : List α} {bs : List β} (h : as.mapM f = .ok bs) :
    ∀ a ∈ as, ∃ b ∈ bs, f a = .ok b :=
  (exists_of_forall₂ (mapM_eq_ok.mp h)).1

theorem exists_argument {f : α → Except ε β} {as : List α} {bs : List β} (h : as.mapM f = .ok bs) :
    ∀ b ∈ bs, ∃ a ∈ as, f a = .ok b :=
  (exists_of_forall₂ (mapM_eq_ok.mp h)).2

/-- A function fails on a list with its failure on the first item where it fails. -/
theorem mapM_eq_error {f : α → Except ε β} {as : List α} {e : ε} : as.mapM f = .error e ↔
    ∃ before a after, as = before ++ a :: after ∧ (∀ b ∈ before, ∃ c, f b = .ok c) ∧ f a = .error e := by
  induction as with
  | nil =>
    rw [List.mapM_nil]
    simp
  | cons a as ih =>
    have hcons : (a :: as).mapM f = .error e ↔ f a = .error e ∨ ∃ c, f a = .ok c ∧ as.mapM f = .error e := by
      rw [List.mapM_cons, bind_eq_error]
      simp [bind_eq_error]
    rw [hcons, ih]
    constructor
    · rintro (h | ⟨c, hc, before, b, after, rfl, hbefore, h⟩)
      · exact ⟨[], a, as, rfl, by simp, h⟩
      · exact ⟨a :: before, b, after, rfl, List.forall_mem_cons.mpr ⟨⟨c, hc⟩, hbefore⟩, h⟩
    · rintro ⟨before, b, after, he, hbefore, h⟩
      cases before with
      | nil =>
        rw [List.nil_append, List.cons.injEq] at he
        exact .inl (he.1 ▸ h)
      | cons d before =>
        rw [List.cons_append, List.cons.injEq] at he
        obtain ⟨rfl, rfl⟩ := he
        obtain ⟨⟨c, hc⟩, hbefore⟩ := List.forall_mem_cons.mp hbefore
        exact .inr ⟨c, hc, before, b, after, rfl, hbefore, h⟩

/-- A fault of the first item of a list that has any. -/
def FirstFault (r : α → ε → Prop) (as : List α) (e : ε) : Prop :=
  ∃ before a after, as = before ++ a :: after ∧ (∀ b ∈ before, ∀ e, ¬ r b e) ∧ r a e

theorem not_firstFault_nil {r : α → ε → Prop} {e : ε} : ¬ FirstFault r [] e := by
  rintro ⟨before, a, after, h, -⟩
  simp at h

theorem firstFault_cons {r : α → ε → Prop} {a : α} {as : List α} {e : ε} :
    FirstFault r (a :: as) e ↔ r a e ∨ (∀ e, ¬ r a e) ∧ FirstFault r as e := by
  constructor
  · rintro ⟨before, b, after, h, hbefore, hb⟩
    cases before with
    | nil =>
      cases h
      exact .inl hb
    | cons c before =>
      obtain ⟨rfl, rfl⟩ := List.cons.inj h
      obtain ⟨hc, hbefore⟩ := List.forall_mem_cons.mp hbefore
      exact .inr ⟨hc, before, b, after, rfl, hbefore, hb⟩
  · rintro (h | ⟨ha, before, b, after, rfl, hbefore, hb⟩)
    · exact ⟨[], a, as, rfl, nofun, h⟩
    · exact ⟨a :: before, b, after, rfl, List.forall_mem_cons.mpr ⟨ha, hbefore⟩, hb⟩

theorem firstFault_append {r : α → ε → Prop} {as bs : List α} {e : ε} :
    FirstFault r (as ++ bs) e ↔ FirstFault r as e ∨ (∀ a ∈ as, ∀ e, ¬ r a e) ∧ FirstFault r bs e := by
  induction as with
  | nil => simp [not_firstFault_nil]
  | cons a as ih =>
    rw [List.cons_append, firstFault_cons, firstFault_cons, ih, List.forall_mem_cons]
    tauto

theorem not_firstFault {r : α → ε → Prop} {as : List α} : (∀ e, ¬ FirstFault r as e) ↔ ∀ a ∈ as, ∀ e, ¬ r a e := by
  induction as with
  | nil => simp [not_firstFault_nil]
  | cons a as ih =>
    simp only [firstFault_cons, List.forall_mem_cons, not_or, not_and, forall_and, ← ih]
    tauto

theorem firstFault_congr {r s : α → ε → Prop} {as : List α} (h : ∀ a ∈ as, ∀ e, r a e ↔ s a e) {e : ε} :
    FirstFault r as e ↔ FirstFault s as e := by
  induction as with
  | nil => simp [not_firstFault_nil]
  | cons a as ih =>
    obtain ⟨ha, has⟩ := List.forall_mem_cons.mp h
    simp only [firstFault_cons, ha, ih has]

theorem firstFault_singleton {r : α → ε → Prop} {a : α} {e : ε} : FirstFault r [a] e ↔ r a e := by
  simp [firstFault_cons, not_firstFault_nil]

theorem firstFault_flatMap {γ : Type} {r : β → ε → Prop} {g : γ → List β} {cs : List γ} {e : ε} :
    FirstFault r (cs.flatMap g) e ↔ FirstFault (fun c => FirstFault r (g c)) cs e := by
  induction cs with
  | nil => simp [not_firstFault_nil]
  | cons c cs ih => rw [List.flatMap_cons, firstFault_append, firstFault_cons, ih, not_firstFault]

theorem firstFault_map {r : β → ε → Prop} {g : α → β} {as : List α} {e : ε} :
    FirstFault r (as.map g) e ↔ FirstFault (fun a => r (g a)) as e := by
  induction as with
  | nil => simp [not_firstFault_nil]
  | cons a as ih => rw [List.map_cons, firstFault_cons, firstFault_cons, ih]

theorem firstFault_of_mapM {f : α → Except ε β} {as : List α} {e : ε} :
    as.mapM f = .error e ↔ FirstFault (fun a e => f a = .error e) as e := by
  rw [mapM_eq_error]
  refine exists_congr fun before => exists_congr fun a => exists_congr fun after => and_congr_right fun _ => ?_
  refine and_congr_left fun _ => forall₂_congr fun b _ => ?_
  cases hb : f b <;> simp [hb]

theorem firstFault_of_findSome? {g : α → Option ε} {as : List α} {e : ε} :
    as.findSome? g = some e ↔ FirstFault (fun a e => g a = some e) as e := by
  rw [List.findSome?_eq_some_iff]
  refine exists_congr fun before => exists_congr fun a => exists_congr fun after => and_congr_right fun _ => ?_
  rw [and_comm]
  simp only [Option.eq_none_iff_forall_ne_some]

theorem exists_fault {f : α → Except ε β} {as : List α} {e : ε} (h : as.mapM f = .error e) :
    ∃ a ∈ as, f a = .error e := by
  obtain ⟨before, a, after, rfl, -, ha⟩ := mapM_eq_error.mp h
  exact ⟨a, by simp, ha⟩

end

end Workflow
