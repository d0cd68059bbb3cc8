import Workflow.Check.References

/-!
# Lists of findings

A check yields a list of findings. It passes a manifest when none of them is an error under every setting; what is
left are warnings that some setting may turn into errors.
-/

namespace Workflow

/-- A finding that no setting makes acceptable. -/
def Finding.IsError (f : Finding) : Prop := ∀ settings, f.severity settings = .error

def Passes (found : List Located) : Prop := ∀ l ∈ found, ¬ l.finding.IsError

section
variable {α : Type} {f : Finding} {location : Location}

@[simp] theorem passes_nil : Passes [] := by simp [Passes]

@[simp] theorem passes_append {found more : List Located} : Passes (found ++ more) ↔ Passes found ∧ Passes more :=
  List.forall_mem_append

theorem passes_flatMap {as : List α} {check : α → List Located} :
    Passes (as.flatMap check) ↔ ∀ a ∈ as, Passes (check a) := by
  simp only [Passes, List.mem_flatMap]
  constructor
  · intro h a ha l hl
    exact h l ⟨a, ha, hl⟩
  · rintro h l ⟨a, ha, hl⟩
    exact h a ha l hl

theorem not_passes_singleton (hf : f.IsError) : ¬ Passes [⟨location, f⟩] :=
  fun h => h _ (List.mem_singleton_self _) hf

theorem passes_findIf {b : Bool} (hf : f.IsError) : Passes (findIf b location f) ↔ b = false := by
  cases b with
  | false => simp [findIf]
  | true => exact iff_of_false (not_passes_singleton hf) (by simp)

/-! ## Numbered lists -/

@[simp] theorem map_numbered {β : Type} (f : α → β) (n : Nat) (as : List α) :
    (numbered n as).map (fun e => f e.2) = as.map f := by
  induction as generalizing n with
  | nil => rfl
  | cons a as ih => rw [numbered, List.map_cons, ih, List.map_cons]

@[simp] theorem map_snd_numbered (n : Nat) (as : List α) : (numbered n as).map (fun e => e.2) = as :=
  (map_numbered id n as).trans (List.map_id as)

theorem mem_numbered {as : List α} {a : α} (ha : a ∈ as) (n : Nat) : ∃ i, (i, a) ∈ numbered n as := by
  rw [← map_snd_numbered n as] at ha
  obtain ⟨⟨i, _⟩, hi, rfl⟩ := List.mem_map.mp ha
  exact ⟨i, hi⟩

theorem passes_numbered {n : Nat} {as : List α} {check : Nat × α → List Located} {P : α → Prop}
    (h : Passes ((numbered n as).flatMap check)) (hc : ∀ i a, Passes (check (i, a)) → P a) : ∀ a ∈ as, P a := by
  intro a ha
  obtain ⟨i, hi⟩ := mem_numbered ha n
  exact hc i a (passes_flatMap.mp h _ hi)

end

/-! ## Diagnostics -/

theorem Located.diagnostics_eq_ok {settings : Settings} {found : List Located} {ds : List Diagnostic} :
    Located.diagnostics settings found = .ok ds ↔
      (∀ l ∈ found, l.finding.breakdown? = none) ∧ ds = found.map (Located.diagnostic settings) := by
  unfold Located.diagnostics
  cases h : found.findSome? fun l => l.finding.breakdown? with
  | some n =>
    obtain ⟨l, hl, hn⟩ := List.exists_of_findSome?_eq_some h
    simp only [reduceCtorEq, false_iff, not_and]
    intro hnone
    simp [hnone l hl] at hn
  | none =>
    rw [List.findSome?_eq_none_iff] at h
    simp only [Except.ok.injEq]
    exact ⟨fun he => ⟨h, he.symm⟩, fun he => he.2.symm⟩

theorem passes_of_errorsOf {settings : Settings} {found : List Located}
    (h : errorsOf (found.map (Located.diagnostic settings)) = []) : Passes found := by
  intro l hl he
  have hd := List.filter_eq_nil_iff.mp h _ (List.mem_map_of_mem hl)
  simp [Diagnostic.isError, Located.diagnostic, he settings] at hd

end Workflow
