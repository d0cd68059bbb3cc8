import Workflow.Proofs.Reordered.Findings

/-!
# Plans of reordered declarations

Whether a manifest has a plan does not depend on the order of its declarations: order matters only among several
declarations of one name, and these are refused. The plan has the same triggers in any order, and the same rules for each
table.
-/

namespace Workflow

theorem mapM_perm {ε α β : Type} {f : α → Except ε β} {as as' : List α} {bs : List β} (hp : as'.Perm as)
    (h : as.mapM f = .ok bs) : ∃ bs', as'.mapM f = .ok bs' ∧ bs'.Perm bs := by
  obtain ⟨bs', hbs, hperm⟩ := List.perm_comp_forall₂ hp (mapM_eq_ok.mp h)
  exact ⟨bs', mapM_eq_ok.mpr hbs, hperm⟩

theorem Index.get?_perm {α : Type} {index index' : Index α} (hn : index.names.Nodup) (hp : index'.Perm index) (name : String) :
    index'.get? name = index.get? name :=
  congrArg (Option.map Prod.snd) (find?_perm hp hn name)

section
variable {settings : Settings} {custom : Option (List String)} {source : Option String} {m m' : Manifest}
  {policies : Index TablePolicies} {p p' : Plan}

/-- A manifest is compiled to a plan. -/
def Manifest.Compiles (settings : Settings) (custom : Option (List String)) (source : Option String) (m : Manifest)
    (p : Plan) : Prop :=
  ∃ c, compile settings custom source (.ok m) = .ok c ∧ c.plan = some p

theorem plan_eq_ok (ds : List Diagnostic) :
    (∃ p, m.plan ds = .ok p) ↔ (∃ f, m.fingerprint = .ok f) ∧ ∃ policies, m.tablePolicies = .ok policies := by
  unfold Manifest.plan
  cases m.fingerprint with
  | error f => simp
  | ok f =>
    cases m.tablePolicies with
    | error f => simp
    | ok policies => simp

theorem compiles_iff : (∃ p, m.Compiles settings custom source p) ↔ Acceptable settings (m.checkReferences custom) ∧
    (∃ f, m.fingerprint = .ok f) ∧ ∃ policies, m.tablePolicies = .ok policies := by
  rw [← diagnose_acceptable]
  constructor
  · rintro ⟨p, c, h, hp⟩
    obtain ⟨_, ⟨⟩, hd, he, hplan⟩ := plan_of_compile h hp
    exact ⟨⟨c.diagnostics, hd, he⟩, (plan_eq_ok _).mp ⟨p, hplan⟩⟩
  · rintro ⟨⟨ds, hd, he⟩, hplan⟩
    obtain ⟨p, hp⟩ := (plan_eq_ok ds).mpr hplan
    exact ⟨p, acceptance source p ds, by simp [compile, hd, he, hp], rfl⟩

/-! ## Policies -/

theorem names_of_index {tables : List Table} {actors : List Actor}
    (h : List.Forall₂ (fun t e => e.1 = t.name ∧ t.policies actors = .ok e.2) tables policies) :
    policies.names = tables.map Table.name := by
  induction h with
  | nil => rfl
  | cons he _ ih => rw [Index.names, List.map_cons, List.map_cons, he.1, ← ih, Index.names]

theorem Manifest.Reordered.tablePolicies (h : m.Reordered m') (hd : m.Distinct) (hp : m.tablePolicies = .ok policies) :
    ∃ policies', m'.tablePolicies = .ok policies' ∧ policies'.Perm policies := by
  have hactors : actorNamed? m'.database.actors = actorNamed? m.database.actors := funext (h.sameNames hd).actorNamed?
  unfold Manifest.tablePolicies Table.policies at hp ⊢
  rw [Index.of_eq_map (h.distinct hd).tables, hactors]
  rw [Index.of_eq_map hd.tables] at hp
  exact mapM_perm (h.tables.map _) hp

/-! ## Plans -/

theorem Manifest.Reordered.compiles (h : m.Reordered m') (hf : ∃ f, m'.fingerprint = .ok f)
    (hm : ∃ p, m.Compiles settings custom source p) : ∃ p, m'.Compiles settings custom source p := by
  obtain ⟨ha, -, policies, hp⟩ := compiles_iff.mp hm
  have hd := distinct_of_acceptable ha
  obtain ⟨policies', hp', -⟩ := h.tablePolicies hd hp
  exact compiles_iff.mpr ⟨ha.same (h.checkReferences hd custom), hf, policies', hp'⟩

theorem plan_of_compiles (h : m.Compiles settings custom source p) : m.Distinct ∧ m.tablePolicies = .ok p.policies ∧
    p.triggers = m.eventGraph.triggers?.getD [] := by
  obtain ⟨c, h, hp⟩ := h
  obtain ⟨_, ⟨⟩, hd, he, hplan⟩ := plan_of_compile h hp
  obtain ⟨-, -, -, hpolicies, -, -, -, -, -, htriggers⟩ := plan_contents hplan
  exact ⟨(sound_of_diagnose hd he).distinct, hpolicies, htriggers⟩

theorem same_policies (h : m.Reordered m') (hp : m.Compiles settings custom source p)
    (hp' : m'.Compiles settings custom source p') (table : String) : p'.policies.get? table = p.policies.get? table := by
  obtain ⟨hd, hpolicies, -⟩ := plan_of_compiles hp
  obtain ⟨-, hpolicies', -⟩ := plan_of_compiles hp'
  obtain ⟨policies, hr, hperm⟩ := h.tablePolicies hd hpolicies
  obtain rfl : policies = p'.policies := Except.ok.inj (hr.symm.trans hpolicies')
  refine Index.get?_perm ?_ hperm table
  rw [names_of_index (tablePolicies_index hd.tables hpolicies)]
  exact hd.tables

theorem same_triggers (h : m.Reordered m') (hp : m.Compiles settings custom source p)
    (hp' : m'.Compiles settings custom source p') : p'.triggers = p.triggers := by
  obtain ⟨-, -, htriggers⟩ := plan_of_compiles hp
  obtain ⟨-, -, htriggers'⟩ := plan_of_compiles hp'
  rw [htriggers, htriggers', (EventGraph.eventGraph_alike h).triggers?]

/-- **The order of declarations decides nothing.** A manifest whose declarations are listed in another order has a plan
if and only if the manifest has one, and both plans have the same triggers and the same rules for every table. -/
theorem compile_reordered (h : m.Reordered m') (hf : ∃ f, m.fingerprint = .ok f) (hf' : ∃ f, m'.fingerprint = .ok f) :
    ((∃ p, m.Compiles settings custom source p) ↔ ∃ p, m'.Compiles settings custom source p) ∧
    ∀ p p', m.Compiles settings custom source p → m'.Compiles settings custom source p' →
      p'.triggers = p.triggers ∧ ∀ table, p'.policies.get? table = p.policies.get? table :=
  ⟨⟨h.compiles hf', h.symm.compiles hf⟩, fun _ _ hp hp' => ⟨same_triggers h hp hp', same_policies h hp hp'⟩⟩

end

/-- A manifest with every list of declarations from its end. -/
def Manifest.reversed (m : Manifest) : Manifest :=
  { m with
    stateMachine := { m.stateMachine with states := m.stateMachine.states.reverse }
    events := { m.events with definitions := m.events.definitions.reverse }
    agents := m.agents.reverse
    functions := m.functions.reverse
    database := { m.database with actors := m.database.actors.reverse, tables := m.database.tables.reverse }
    crons := m.crons.reverse
    webhooks := m.webhooks.reverse }

theorem reversed_reordered (m : Manifest) : m.Reordered m.reversed where
  product := rfl
  infrastructure := rfl
  tenancy := rfl
  initial := rfl
  topic := rfl
  migrationsDir := rfl
  observability := rfl
  states := List.reverse_perm _
  events := List.reverse_perm _
  agents := List.reverse_perm _
  functions := List.reverse_perm _
  tables := List.reverse_perm _
  actors := List.reverse_perm _
  webhooks := List.reverse_perm _
  crons := List.reverse_perm _

theorem compile_reordered_workshop : ∃ m, Manifest.load (workshop "owner = :actor" 1000) = .ok m ∧
    m.Reordered m.reversed ∧ m ≠ m.reversed ∧ (∃ f, m.fingerprint = .ok f) ∧ (∃ f, m.reversed.fingerprint = .ok f) ∧
    (∃ p, m.Compiles .standard none none p) ∧
    ((∃ p, m.Compiles .standard none none p) ↔ ∃ p, m.reversed.Compiles .standard none none p) ∧
    ∀ p p', m.Compiles .standard none none p → m.reversed.Compiles .standard none none p' →
      p'.triggers = p.triggers ∧ ∀ table, p'.policies.get? table = p.policies.get? table := by
  have hload : (Manifest.load (workshop "owner = :actor" 1000)).toOption.any (fun m =>
      m ≠ m.reversed ∧ m.fingerprint.toOption.any (fun _ => true) ∧ m.reversed.fingerprint.toOption.any (fun _ => true) ∧
      (compile .standard none none (.ok m)).toOption.any fun c => c.plan.isSome) = true := by
    decide +kernel
  obtain ⟨m, hm, h⟩ := any_toOption.mp hload
  obtain ⟨hne, hf, hf', hc⟩ := of_decide_eq_true h
  obtain ⟨f, hf, -⟩ := any_toOption.mp hf
  obtain ⟨f', hf', -⟩ := any_toOption.mp hf'
  obtain ⟨c, hc, hp⟩ := any_toOption.mp hc
  obtain ⟨p, hp⟩ := Option.isSome_iff_exists.mp hp
  exact ⟨m, hm, reversed_reordered m, hne, ⟨f, hf⟩, ⟨f', hf'⟩, ⟨p, c, hc, hp⟩,
    compile_reordered (reversed_reordered m) ⟨f, hf⟩ ⟨f', hf'⟩⟩

end Workflow
