import Workflow.Proofs.Policy.Rules

/-!
# What a table grants

The rules of a table are what its policies grant and nothing else. Each policy has one rule for each operation it
lists, in a fixed order, for its own actor; what none of them lists is denied. The first policy that has no actor, or
does not depend on one, keeps the table from having rules.
-/

namespace Workflow

/-- The parameter of the actor stands somewhere in a condition, and not as the start of a longer word. -/
def HasActor (condition : String) : Prop :=
  ∃ before after, condition.toList = before ++ (actorParameter ++ after) ∧
    ∀ c ∈ after.head?, CharSet.word.contains c = false

/-- Why a policy has no rules. -/
inductive AccessPolicy.Refused (table : String) (actors : List Actor) (a : AccessPolicy) : PolicyFault → Prop
  | undeclared : (∀ b ∈ actors, b.name ≠ a.actor) → Refused table actors a (.undeclaredActor table a.actor)
  | independent : (∃ b ∈ actors, b.name = a.actor) → ¬ HasActor a.condition →
      Refused table actors a (.noParameter table a.actor)

def AccessPolicy.Lists (a : AccessPolicy) (o : Operation) : Prop := .all ∈ a.grants ∨ .only o ∈ a.grants

/-- The rules of a policy are what it grants to its actor. -/
structure AccessPolicy.Grants (table : String) (actors : List Actor) (a : AccessPolicy) (rules : List AccessRule) :
    Prop where
  /-- One rule an operation, in the order of the operations. -/
  order : (rules.map AccessRule.operation).Sublist Operation.all
  operations : ∀ o, o ∈ rules.map AccessRule.operation ↔ a.Lists o
  rule : ∀ r ∈ rules, ∃ b ∈ actors, b.name = a.actor ∧
    r = ⟨table, a.actor, r.operation, substituteActor a.condition b.identifier, a.condition⟩

structure TablePolicies.Exact (tp : TablePolicies) (t : Table) (actors : List Actor) : Prop where
  table : tp.table = t.name
  rules : ∃ parts, List.Forall₂ (AccessPolicy.Grants t.name actors) t.access parts ∧ tp.rules = parts.flatten
  order : tp.uncovered.Sublist Operation.all
  uncovered : ∀ o, o ∈ tp.uncovered ↔ tp.rulesFor o = []
  denied : ∀ o, tp.rulesFor o = [] ↔ ∀ a ∈ t.access, ¬ a.Lists o

/-! ## Mentions -/

theorem occurrence_iff {cs : List Char} : (afterActor? cs).isSome = true ↔
    ∃ after, cs = actorParameter ++ after ∧ ∀ c ∈ after.head?, CharSet.word.contains c = false := by
  rw [afterActor?_isSome, Bool.and_eq_true, List.isPrefixOf_iff_prefix]
  constructor
  · rintro ⟨⟨after, rfl⟩, hw⟩
    rw [List.drop_left, Bool.not_eq_true'] at hw
    refine ⟨after, rfl, ?_⟩
    intro c hc
    rw [hc] at hw
    exact hw
  · rintro ⟨after, rfl, hw⟩
    refine ⟨List.prefix_append .., ?_⟩
    rw [List.drop_left]
    cases h : after.head? with
    | none => rfl
    | some c => simp [hw c h]

theorem mentionsActorChars_iff {cs : List Char} : mentionsActorChars cs = true ↔
    ∃ before after, cs = before ++ (actorParameter ++ after) ∧ ∀ c ∈ after.head?, CharSet.word.contains c = false := by
  induction cs with
  | nil => simp [mentionsActorChars, actorParameter]
  | cons c cs ih =>
    rw [mentionsActorChars, Bool.or_eq_true, occurrence_iff, ih]
    constructor
    · rintro (⟨after, h, hw⟩ | ⟨before, after, rfl, hw⟩)
      · exact ⟨[], after, h, hw⟩
      · exact ⟨c :: before, after, rfl, hw⟩
    · rintro ⟨before, after, h, hw⟩
      cases before with
      | nil => exact .inl ⟨after, h, hw⟩
      | cons d before =>
        rw [List.cons_append, List.cons.injEq] at h
        exact .inr ⟨before, after, h.2, hw⟩

theorem mentionsActor_iff {condition : String} : mentionsActor condition = true ↔ HasActor condition :=
  mentionsActorChars_iff

/-! ## One policy -/

section
variable {table : String} {actors : List Actor} {a : AccessPolicy} {f : PolicyFault}

theorem actorNamed?_eq_none {name : String} : actorNamed? actors name = none ↔ ∀ b ∈ actors, b.name ≠ name := by
  simp [actorNamed?]

theorem exists_named {name : String} (h : actorNamed? actors name ≠ none) : ∃ b ∈ actors, b.name = name := by
  obtain ⟨b, hb⟩ := Option.ne_none_iff_exists'.mp h
  obtain ⟨hm, hn⟩ := actorNamed?_eq_some hb
  exact ⟨b, hm, hn⟩

theorem rules_eq_error : a.rules table actors = .error f ↔ a.Refused table actors f := by
  unfold AccessPolicy.rules AccessPolicy.rulesBy
  constructor
  · intro h
    split at h
    · rename_i hb
      cases h
      exact .undeclared (actorNamed?_eq_none.mp hb)
    · rename_i b hb
      split at h
      · cases h
      · rename_i hm
        cases h
        have hb : actorNamed? actors a.actor ≠ none := by simp [hb]
        exact .independent (exists_named hb) (mentionsActor_iff.not.mp hm)
  · rintro (h | ⟨hb, hm⟩)
    · rw [actorNamed?_eq_none.mpr h]
    · have hm : mentionsActor a.condition = false := by
        rw [← Bool.not_eq_true]
        exact mentionsActor_iff.not.mpr hm
      obtain ⟨b, hb, hn⟩ := hb
      have hsome : actorNamed? actors a.actor ≠ none := fun h => actorNamed?_eq_none.mp h b hb hn
      obtain ⟨c, hc⟩ := Option.ne_none_iff_exists'.mp hsome
      simp [hc, hm]

theorem mem_operations {o : Operation} : o ∈ a.operations ↔ a.Lists o := by
  have ho : o ∈ Operation.all := by cases o <;> decide
  simp [AccessPolicy.operations, AccessPolicy.Lists, ho]

theorem rules_grants {rules : List AccessRule} (h : a.rules table actors = .ok rules) : a.Grants table actors rules := by
  obtain ⟨b, hb, hn, rfl⟩ := rules_eq_ok h
  have hoperations : (a.operations.map fun o =>
      (⟨table, b.name, o, substituteActor a.condition b.identifier, a.condition⟩ : AccessRule)).map
      AccessRule.operation = a.operations := by
    rw [List.map_map]
    exact List.map_id _
  refine ⟨?_, ?_, ?_⟩
  · rw [hoperations]
    exact List.filter_sublist
  · intro o
    rw [hoperations]
    exact mem_operations
  · intro r hr
    obtain ⟨o, -, rfl⟩ := List.mem_map.mp hr
    exact ⟨b, hb, hn, by rw [hn]⟩

end

/-! ## A table -/

section
variable {t : Table} {actors : List Actor}

theorem policies_eq_error (ha : t.access ≠ []) {f : PolicyFault} : t.policies actors = .error f ↔
    ∃ before a after, t.access = before ++ a :: after ∧ (∀ b ∈ before, ∀ g, ¬ b.Refused t.name actors g) ∧
      a.Refused t.name actors f := by
  have hrules : t.policies actors = .error f ↔ t.access.mapM (AccessPolicy.rules t.name actors) = .error f := by
    have he : t.access.isEmpty = false := List.isEmpty_eq_false_iff.mpr ha
    unfold Table.policies Table.policiesBy
    rw [he]
    change Except.map _ (t.access.mapM (AccessPolicy.rules t.name actors)) = _ ↔ _
    cases t.access.mapM (AccessPolicy.rules t.name actors) with
    | error g => simp [Except.map]
    | ok parts => simp [Except.map]
  rw [hrules, mapM_eq_error]
  simp only [rules_eq_error]
  constructor
  · rintro ⟨before, a, after, he, hbefore, h⟩
    refine ⟨before, a, after, he, ?_, h⟩
    intro b hb g hg
    obtain ⟨rules, hrules⟩ := hbefore b hb
    rw [rules_eq_error.mpr hg] at hrules
    cases hrules
  · rintro ⟨before, a, after, he, hbefore, h⟩
    refine ⟨before, a, after, he, ?_, h⟩
    intro b hb
    cases hr : b.rules t.name actors with
    | error g => exact absurd (rules_eq_error.mp hr) (hbefore b hb g)
    | ok rules => exact ⟨rules, rfl⟩

theorem exact_of_policies {tp : TablePolicies} (h : t.policies actors = .ok tp) : tp.Exact t actors := by
  obtain ⟨-, parts, hparts, rfl⟩ := policiesBy_eq_ok.mp h
  have hgrants : List.Forall₂ (AccessPolicy.Grants t.name actors) t.access parts := hparts.imp fun _ _ => rules_grants
  -- an operation has no rules exactly if no rule at all is for it
  have hnone (o : Operation) : (parts.flatten.filter fun r => r.operation == o) = [] ↔
      ∀ r ∈ parts.flatten, r.operation ≠ o := by
    simp only [List.filter_eq_nil_iff, beq_iff_eq, ne_eq]
  refine ⟨rfl, ⟨parts, hgrants, rfl⟩, List.filter_sublist, ?_, ?_⟩
  · intro o
    have ho : o ∈ Operation.all := by cases o <;> decide
    rw [TablePolicies.rulesFor, hnone, List.mem_filter, List.all_eq_true]
    simp only [ho, true_and, bne_iff_ne, ne_eq]
  · intro o
    rw [TablePolicies.rulesFor, hnone]
    obtain ⟨hpolicy, hpart⟩ := exists_of_forall₂ hgrants
    constructor
    · intro h a hm hl
      obtain ⟨part, hp, hg⟩ := hpolicy a hm
      obtain ⟨r, hr, rfl⟩ := List.mem_map.mp ((hg.operations o).mpr hl)
      exact h r (List.mem_flatten.mpr ⟨part, hp, hr⟩) rfl
    · intro h r hr ho
      obtain ⟨part, hp, hr⟩ := List.mem_flatten.mp hr
      obtain ⟨a, hm, hg⟩ := hpart part hp
      exact h a hm ((hg.operations o).mp (ho ▸ List.mem_map_of_mem hr))

/-- Actors with distinct names are found alike in their list and by their names, however these are ordered. -/
theorem get?_of_perm (hn : (actors.map Actor.name).Nodup) {index : Index Actor}
    (h : index.Perm (actors.map fun b => (b.name, b))) (name : String) : index.get? name = actorNamed? actors name := by
  have hmem (b : Actor) : (b.name, b) ∈ index ↔ b ∈ actors := by
    rw [h.mem_iff]
    simp
  cases hi : index.get? name with
  | none =>
    refine (actorNamed?_eq_none.mpr ?_).symm
    intro b hb hname
    have hm : (name, b) ∈ index := by
      rw [← hname]
      exact (hmem b).mpr hb
    have : index.find? (fun e => e.1 == name) = none := Option.map_eq_none_iff.mp hi
    simpa using List.find?_eq_none.mp this _ hm
  | some b =>
    obtain ⟨e, he, rfl⟩ := Option.map_eq_some_iff.mp hi
    obtain ⟨c, hc, rfl⟩ := List.mem_map.mp (h.mem_iff.mp (List.mem_of_find?_eq_some he))
    have hname : c.name = name := by simpa using List.find?_some he
    cases hb : actorNamed? actors name with
    | none => exact absurd hname (actorNamed?_eq_none.mp hb c hc)
    | some d =>
      obtain ⟨hd, hdname⟩ := actorNamed?_eq_some hb
      have : c = d := List.inj_on_of_nodup_map hn hc hd (hname.trans hdname.symm)
      rw [this]

/-- The policies of a table compile to exactly what they grant, unless one of them is refused. -/
theorem policies_exact (ha : t.access ≠ []) (hn : (actors.map Actor.name).Nodup) :
    (∀ f, t.policies actors = .error f ↔
      ∃ before a after, t.access = before ++ a :: after ∧ (∀ b ∈ before, ∀ g, ¬ b.Refused t.name actors g) ∧
        a.Refused t.name actors f) ∧
    ((∀ a ∈ t.access, ∀ f, ¬ a.Refused t.name actors f) → ∃ tp, t.policies actors = .ok tp ∧ tp.Exact t actors) ∧
    ∀ index : Index Actor, index.Perm (actors.map fun b => (b.name, b)) → t.policiesIn index = t.policies actors := by
  refine ⟨fun f => policies_eq_error ha, ?_, ?_⟩
  · intro h
    cases hp : t.policies actors with
    | ok tp => exact ⟨tp, rfl, exact_of_policies hp⟩
    | error f =>
      obtain ⟨before, a, after, he, -, hr⟩ := (policies_eq_error ha).mp hp
      exact absurd hr (h a (by simp [he]) f)
  · intro index hi
    have hlookup : index.get? = actorNamed? actors := funext (get?_of_perm hn hi)
    rw [Table.policiesIn, hlookup, Table.policies]

end

/-- A table that two actors share; one policy lists an operation twice and another lists all of them. -/
def sharedTable : Table where
  name := "leads"
  columns := none
  access := [
    ⟨"tenant", [.only .update, .only .select, .only .update], "org_id = :actor"⟩,
    ⟨"owner", [.all, .only .insert], "owner_id = :actor AND note != ':actor'"⟩]

def sharingActors : List Actor := [⟨"tenant", "current_tenant()", none⟩, ⟨"owner", "auth.uid()", none⟩]

theorem policies_exact_shared : sharedTable.access ≠ [] ∧ (sharingActors.map Actor.name).Nodup ∧
    (∀ f, sharedTable.policies sharingActors = .error f ↔
      ∃ before a after, sharedTable.access = before ++ a :: after ∧
        (∀ b ∈ before, ∀ g, ¬ b.Refused sharedTable.name sharingActors g) ∧ a.Refused sharedTable.name sharingActors f) ∧
    ((∀ a ∈ sharedTable.access, ∀ f, ¬ a.Refused sharedTable.name sharingActors f) →
      ∃ tp, sharedTable.policies sharingActors = .ok tp ∧ tp.Exact sharedTable sharingActors) ∧
    ∀ index : Index Actor, index.Perm (sharingActors.map fun b => (b.name, b)) →
      sharedTable.policiesIn index = sharedTable.policies sharingActors := by
  have ha : sharedTable.access ≠ [] := by simp [sharedTable]
  have hn : (sharingActors.map Actor.name).Nodup := by decide
  exact ⟨ha, hn, policies_exact ha hn⟩

end Workflow
