import Workflow.Proofs.Policy.Grants

/-!
# The names of policies

The name of a rule tells its actor and its operation. A table has several rules of a name exactly if two of its policies
list an operation for the same actor; no check of a manifest keeps them from it.
-/

namespace Workflow

/-- No two policies of a table list an operation for the same actor. -/
def Table.Exclusive (t : Table) : Prop :=
  t.access.Pairwise fun a b => a.actor = b.actor → ∀ o, ¬ (a.Lists o ∧ b.Lists o)

/-- What a rule is for. -/
def AccessRule.purpose (r : AccessRule) : String × Operation := (r.actor, r.operation)

/-! ## Purposes -/

section
variable {t : Table} {actors : List Actor} {tp : TablePolicies}

theorem purposes_flatten {table : String} {access : List AccessPolicy} {parts : List (List AccessRule)}
    (h : List.Forall₂ (fun (a : AccessPolicy) part => a.rules table actors = .ok part) access parts) :
    parts.flatten.map AccessRule.purpose = access.flatMap fun a => a.operations.map fun o => (a.actor, o) := by
  induction h with
  | nil => rfl
  | cons hrules _ ih =>
    obtain ⟨b, -, hn, rfl⟩ := rules_eq_ok hrules
    rw [List.flatten_cons, List.map_append, ih, List.flatMap_cons, List.map_map, ← hn]
    rfl

theorem nodup_operations (a : AccessPolicy) : a.operations.Nodup := by
  have hall : Operation.all.Nodup := by decide
  exact hall.filter _

theorem disjoint_purposes {a b : AccessPolicy} :
    List.Disjoint (a.operations.map fun o => (a.actor, o)) (b.operations.map fun o => (b.actor, o)) ↔
      (a.actor = b.actor → ∀ o, ¬ (a.Lists o ∧ b.Lists o)) := by
  simp only [List.disjoint_left, List.mem_map, ← mem_operations]
  constructor
  · intro h hn o ⟨ha, hb⟩
    exact h ⟨o, ha, rfl⟩ ⟨o, hb, by rw [hn]⟩
  · rintro h _ ⟨o, ha, rfl⟩ ⟨o', hb, he⟩
    obtain ⟨hn, rfl⟩ := Prod.mk.inj he
    exact h hn.symm o' ⟨ha, hb⟩

theorem nodup_purposes (h : t.policies actors = .ok tp) : (tp.rules.map AccessRule.purpose).Nodup ↔ t.Exclusive := by
  obtain ⟨-, parts, hparts, rfl⟩ := policiesBy_eq_ok.mp h
  rw [purposes_flatten hparts, List.nodup_flatMap]
  have hpolicy : ∀ a ∈ t.access, (a.operations.map fun o => (a.actor, o)).Nodup := fun a _ =>
    (nodup_operations a).map fun _ _ he => (Prod.mk.inj he).2
  have hpair := List.Pairwise.iff_of_mem (l := t.access) fun {a b} _ _ => disjoint_purposes (a := a) (b := b)
  exact ⟨fun hn => hpair.mp hn.2, fun he => ⟨hpolicy, hpair.mpr he⟩⟩

end

/-! ## Names -/

theorem operation_lower_length (o : Operation) : o.name.toLower.toList.length = 6 := by
  cases o <;> with_unfolding_all rfl

theorem operation_lower_inj {o o' : Operation} (h : o.name.toLower = o'.name.toLower) : o = o' := by
  revert h
  cases o <;> cases o' <;> with_unfolding_all decide

theorem name_inj {r r' : AccessRule} (ht : r.table = r'.table) : r.name = r'.name ↔ r.purpose = r'.purpose := by
  constructor
  · intro h
    rw [AccessRule.name, AccessRule.name, ht, ← String.toList_inj] at h
    simp only [String.toList_append] at h
    -- the names of the operations are equally long, so the names of the rules split at the same place
    have hlength : r.operation.name.toLower.toList.length = r'.operation.name.toLower.toList.length :=
      (operation_lower_length _).trans (operation_lower_length _).symm
    obtain ⟨hfront, hoperation⟩ := List.append_inj' h hlength
    have hactor : r.actor = r'.actor := by simpa [String.toList_inj] using hfront
    exact Prod.ext hactor (operation_lower_inj (String.toList_inj.mp hoperation))
  · intro h
    obtain ⟨hactor, hoperation⟩ := Prod.mk.inj h
    rw [AccessRule.name, AccessRule.name, ht, hactor, hoperation]

theorem nodup_names {rules : List AccessRule} {table : String} (h : ∀ r ∈ rules, r.table = table) :
    (rules.map AccessRule.name).Nodup ↔ (rules.map AccessRule.purpose).Nodup := by
  rw [List.Nodup, List.Nodup, List.pairwise_map, List.pairwise_map]
  refine List.Pairwise.iff_of_mem fun hr hr' => ?_
  exact (name_inj ((h _ hr).trans (h _ hr').symm)).not

/-! ## Plans -/

section
variable {settings : Settings} {custom : Option (List String)} {source : Option String}
  {loaded : Except (List Diagnostic) Manifest} {c : Compilation} {p : Plan}

/-- **One rule for each actor and operation.** The rules of a table of an accepted manifest are for different actors or
operations, and so their names are different, if and only if no two policies of the table list an operation for one
actor. -/
theorem compile_exclusive (h : compile settings custom source loaded = .ok c) (hp : c.plan = some p) :
    ∀ t ∈ p.manifest.database.tables, ∃ tp, (t.name, tp) ∈ p.policies ∧ tp.table = t.name ∧
      ((tp.rules.map AccessRule.purpose).Nodup ↔ t.Exclusive) ∧ ((tp.rules.map AccessRule.name).Nodup ↔ t.Exclusive) := by
  intro t ht
  obtain ⟨⟨name, tp⟩, he, rfl, hpolicies⟩ := (exists_of_forall₂ (compile_indexes h hp).policies).1 t ht
  have htable : ∀ r ∈ tp.rules, r.table = t.name := by
    intro r hr
    obtain ⟨a, -, b, -, hfrom, -⟩ := rule_from hpolicies r hr
    exact hfrom.table
  exact ⟨tp, he, (exact_of_policies hpolicies).table, nodup_purposes hpolicies,
    (nodup_names htable).trans (nodup_purposes hpolicies)⟩

end

open Plan

/-- A document with one table, which has some policies for two actors. -/
def tenancy (policies : List Value) : Value :=
  .mapping [
    entry "product" (.mapping [
      entry "name" (.text "tenancy"), entry "description" (.text ""), entry "version" (.text "1")]),
    entry "state_machine" (.mapping [
      entry "initial" (.text "open"),
      entry "states" (.list [.mapping [entry "name" (.text "open"), entry "terminal" (.bool true)]])]),
    entry "events" (.mapping [entry "namespace" (.text "tenancy"), entry "definitions" (.list [])]),
    entry "database" (.mapping [
      entry "actors" (.list [actor "tenant", actor "owner"]),
      entry "tables" (.list [.mapping [entry "name" (.text "leads"), entry "access" (.list policies)]])])]
where
  actor (name : String) : Value := .mapping [entry "name" (.text name), entry "identifier" (.text "auth.uid()")]

def policy (actor : String) (operations : List String) (condition : String) : Value :=
  .mapping [
    entry "actor" (.text actor), entry "operations" (names operations), entry "condition" (.text condition)]

def separateTenancy : Value :=
  tenancy [policy "tenant" ["SELECT", "INSERT"] "org = :actor", policy "owner" ["ALL"] "owner = :actor",
    policy "tenant" ["UPDATE"] "org = :actor AND frozen = false"]

theorem compile_exclusive_separate : ∃ c p,
    compile .standard none none (Manifest.load separateTenancy) = .ok c ∧ c.plan = some p ∧
    ∀ t ∈ p.manifest.database.tables, ∃ tp, (t.name, tp) ∈ p.policies ∧ tp.table = t.name ∧
      ((tp.rules.map AccessRule.purpose).Nodup ↔ t.Exclusive) ∧ ((tp.rules.map AccessRule.name).Nodup ↔ t.Exclusive) := by
  have hc : (compile .standard none none (Manifest.load separateTenancy)).toOption.any (fun c => c.plan.isSome) = true := by
    decide +kernel
  obtain ⟨c, h, hp⟩ := any_toOption.mp hc
  obtain ⟨p, hp⟩ := Option.isSome_iff_exists.mp hp
  exact ⟨c, p, h, hp, compile_exclusive h hp⟩

/-- Two policies let the same actor read: both rules have the same name, and the manifest is accepted. -/
theorem compile_exclusive_shared : ∃ c p,
    compile .standard none none (Manifest.load
      (tenancy [policy "tenant" ["ALL"] "org = :actor", policy "tenant" ["SELECT"] "public = :actor"])) = .ok c ∧
    c.plan = some p ∧ ∃ e ∈ p.policies, ¬ (e.2.rules.map AccessRule.purpose).Nodup ∧
      ¬ (e.2.rules.map AccessRule.name).Nodup := by
  have hc : (compile .standard none none (Manifest.load
      (tenancy [policy "tenant" ["ALL"] "org = :actor", policy "tenant" ["SELECT"] "public = :actor"]))).toOption.any
      (fun c => c.plan.any fun p => p.policies.any fun e =>
        ¬ (e.2.rules.map AccessRule.purpose).Nodup ∧ ¬ (e.2.rules.map AccessRule.name).Nodup) = true := by
    decide +kernel
  obtain ⟨c, h, hp⟩ := any_toOption.mp hc
  obtain ⟨p, hp, he⟩ := (Option.any_eq_true ..).mp hp
  obtain ⟨e, he, hn⟩ := List.any_eq_true.mp he
  exact ⟨c, p, h, hp, e, he, by simpa using hn⟩

end Workflow
