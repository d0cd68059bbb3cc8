import Workflow.Proofs.Engine

/-!
# When a store is needed

A plan says that it requires a store where a step asks it for rows or writes to it. An engine asks for more: the custom
actions of a step are applied after its writes and by the same means, so a step that has nothing else to apply needs a
store as well. Where no step is like that, the two agree.
-/

namespace Workflow

/-- All that a plan may use is there, but for a store and a way to ask it. -/
structure Capabilities.Storeless (c : Capabilities) (p : Plan) : Prop where
  query : c.query = false
  store : c.store = false
  artifacts : c.artifacts = true
  custom : ∀ entry ∈ p.steps, ∀ a, .custom a ∈ entry.2.rules.persist → a.ref ∈ c.custom

/-- A step applies actions, and all of them are custom. -/
def Step.OnlyCustom (s : Step) : Prop := s.rules.persist ≠ [] ∧ ∀ a ∈ s.rules.persist, ∃ x, a = .custom x

/-- What a step without a store is refused for. -/
inductive NeedsStore : String × Step → CapabilityFault → Prop
  | query {name : String} {s : Step} : s.rules.input.exist ≠ none → NeedsStore (name, s) (.query name)
  | store {name : String} {s : Step} : s.rules.input.exist = none → s.rules.persist ≠ [] → NeedsStore (name, s) (.store name)

section
variable {plan : Plan} {c : Capabilities}

theorem engine_of_eq_error {f : CapabilityFault} :
    Engine.of plan c = .error f ↔ FirstFault (fun entry f => c.fault? entry.1 entry.2 = some f) plan.steps f := by
  have hcheck : Engine.of plan c = .error f ↔ c.check plan = .error f := by
    unfold Engine.of
    split
    · rename_i hc
      simp [hc]
    · rename_i g hc
      simp [hc]
  rw [hcheck, Capabilities.check, ← firstFault_of_findSome?]
  split
  · rename_i g hg
    simp [hg]
  · rename_i hg
    simp [hg]

theorem fault?_iff_needsStore (hc : c.Storeless plan) {entry : String × Step} (he : entry ∈ plan.steps) {f : CapabilityFault} :
    c.fault? entry.1 entry.2 = some f ↔ NeedsStore entry f := by
  obtain ⟨name, s⟩ := entry
  have hcustom : c.unregistered s.rules.persist = [] := unregistered_eq_nil.mpr (hc.custom _ he)
  have hfault : c.fault? name s = if s.rules.input.exist ≠ none then some (.query name)
      else if s.rules.persist ≠ [] then some (.store name) else none := by
    simp [Capabilities.fault?, hc.query, hc.artifacts, hc.store, hcustom, Option.isSome_iff_ne_none]
  rw [hfault]
  constructor
  · intro h
    split at h
    · rename_i hexist
      cases h
      exact .query hexist
    · rename_i hexist
      split at h
      · rename_i hpersist
        cases h
        exact .store (not_not.mp hexist) hpersist
      · cases h
  · intro h
    cases h with
    | query hexist => rw [if_pos hexist]
    | store hexist hpersist => rw [if_neg (not_not.mpr hexist), if_pos hpersist]

theorem usesStore_eq_false {s : Step} :
    s.usesStore = false ↔ s.rules.input.exist = none ∧ ∀ a ∈ s.rules.persist, ∃ x, a = .custom x := by
  have hwrites (a : PersistAction) : a.writes = false ↔ ∃ x, a = .custom x := by
    cases a <;> simp [PersistAction.writes]
  simp [Step.usesStore, hwrites]

theorem not_needsStore {entry : String × Step} :
    (∀ f, ¬ NeedsStore entry f) ↔ entry.2.usesStore = false ∧ ¬ entry.2.OnlyCustom := by
  obtain ⟨name, s⟩ := entry
  rw [usesStore_eq_false]
  constructor
  · intro h
    have hexist : s.rules.input.exist = none := by
      by_contra he
      exact h _ (.query he)
    have hpersist : s.rules.persist = [] := by
      by_contra hp
      exact h _ (.store hexist hp)
    refine ⟨⟨hexist, ?_⟩, fun h => h.1 hpersist⟩
    simp [hpersist]
  · rintro ⟨⟨hexist, hcustom⟩, honly⟩ f h
    cases h with
    | query he => exact he hexist
    | store _ hp => exact honly ⟨hp, hcustom⟩

/-- **What requiring a store means to an engine.** Where only a store and its queries are missing, an engine can be set up
exactly for the plans that require no store and have no step whose actions are all custom. Any other plan is refused for its
first step that asks for rows or has something to apply. -/
theorem storeless_engine (hc : c.Storeless plan) :
    ((∃ e, Engine.of plan c = .ok e) ↔ plan.requiresStore = false ∧ ∀ entry ∈ plan.steps, ¬ entry.2.OnlyCustom) ∧
      ∀ f, Engine.of plan c = .error f ↔ FirstFault NeedsStore plan.steps f := by
  have hrefused (f : CapabilityFault) : Engine.of plan c = .error f ↔ FirstFault NeedsStore plan.steps f :=
    engine_of_eq_error.trans (firstFault_congr fun _ he _ => fault?_iff_needsStore hc he)
  refine ⟨?_, hrefused⟩
  calc (∃ e, Engine.of plan c = .ok e)
      ↔ ∀ f, ¬ FirstFault NeedsStore plan.steps f := by
        simp only [← hrefused]
        cases Engine.of plan c <;> simp
    _ ↔ ∀ entry ∈ plan.steps, entry.2.usesStore = false ∧ ¬ entry.2.OnlyCustom := by
        simp only [not_firstFault, not_needsStore]
    _ ↔ plan.requiresStore = false ∧ ∀ entry ∈ plan.steps, ¬ entry.2.OnlyCustom := by
        simp only [Plan.requiresStore, List.any_eq_false, Bool.not_eq_true, imp_and, forall_and]

end

/-- All that is there of a host without a store. -/
def artifactsAndTell : Capabilities := ⟨false, true, false, ["tell"], []⟩

theorem artifactsAndTell_storeless {plan : Plan}
    (h : plan.steps.all (fun entry => artifactsAndTell.unregistered entry.2.rules.persist == []) = true) :
    artifactsAndTell.Storeless plan :=
  ⟨rfl, rfl, rfl, fun entry he => unregistered_eq_nil.mp (beq_iff_eq.mp (List.all_eq_true.mp h entry he))⟩

/-- A step with nothing to apply, and one that writes after it told. -/
theorem storeless_engine_ledger : ∃ idle writing, planOf (ledger []) = some idle ∧
    planOf (ledger [told, inserted "a"]) = some writing ∧
    artifactsAndTell.Storeless idle ∧ artifactsAndTell.Storeless writing ∧
    (idle.requiresStore = false ∧ ∀ entry ∈ idle.steps, ¬ entry.2.OnlyCustom) ∧
    FirstFault NeedsStore writing.steps (.store "take") := by
  have hidle : (planOf (ledger [])).any (fun plan => (Engine.of plan artifactsAndTell).toOption.any (fun _ => true) &&
      plan.steps.all (fun entry => artifactsAndTell.unregistered entry.2.rules.persist == [])) = true := by
    decide +kernel
  have hwriting : (planOf (ledger [told, inserted "a"])).any (fun plan =>
      (fault? (Engine.of plan artifactsAndTell)).any (fun f => f = .store "take") &&
      plan.steps.all (fun entry => artifactsAndTell.unregistered entry.2.rules.persist == [])) = true := by
    decide +kernel
  obtain ⟨idle, hi, h⟩ := (Option.any_eq_true ..).mp hidle
  obtain ⟨hset, hcustom⟩ := Bool.and_eq_true_iff.mp h
  obtain ⟨e, he, -⟩ := any_toOption.mp hset
  obtain ⟨writing, hw, h⟩ := (Option.any_eq_true ..).mp hwriting
  obtain ⟨hrefused, hcustom'⟩ := Bool.and_eq_true_iff.mp h
  obtain ⟨f, hf, h⟩ := any_fault?.mp hrefused
  obtain rfl := of_decide_eq_true h
  have hidle := artifactsAndTell_storeless hcustom
  have hwriting := artifactsAndTell_storeless hcustom'
  exact ⟨idle, writing, hi, hw, hidle, hwriting, (storeless_engine hidle).1.mp ⟨e, he⟩,
    ((storeless_engine hwriting).2 _).mp hf⟩

/-- A manifest that is accepted, whose plan requires no store and still needs one: its step only tells. -/
theorem storeless_engine_told : ∃ plan, planOf (ledger [told]) = some plan ∧ artifactsAndTell.Storeless plan ∧
    plan.requiresStore = false ∧ Engine.of plan artifactsAndTell = .error (.store "take") := by
  have htold : (planOf (ledger [told])).any (fun plan => !plan.requiresStore &&
      (fault? (Engine.of plan artifactsAndTell)).any (fun f => f = .store "take") &&
      plan.steps.all (fun entry => artifactsAndTell.unregistered entry.2.rules.persist == [])) = true := by
    decide +kernel
  obtain ⟨plan, hp, h⟩ := (Option.any_eq_true ..).mp htold
  obtain ⟨h, hcustom⟩ := Bool.and_eq_true_iff.mp h
  obtain ⟨hrequires, hrefused⟩ := Bool.and_eq_true_iff.mp h
  obtain ⟨f, hf, h⟩ := any_fault?.mp hrefused
  obtain rfl := of_decide_eq_true h
  exact ⟨plan, hp, artifactsAndTell_storeless hcustom, by simpa using hrequires, hf⟩

end Workflow
