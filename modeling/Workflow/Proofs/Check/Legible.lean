import Workflow.Proofs.Check.Closed
import Workflow.Proofs.Manifest

/-!
# Breakdowns that end a check

A number that breaks down is no finding: it ends the check of the manifest that it stands in. That happens exactly if one of
the expressions that are checked has such a number.
-/

namespace Workflow

def Template.Legible (source : String) : Prop := ∀ f, Template.parse source = .error f → f.breakdown? = none

def Predicate.Legible (expression : String) : Prop := ∀ f, Predicate.parse expression = .error f → f.breakdown? = none

structure PersistAction.Legible (a : PersistAction) : Prop where
  values : ∀ e ∈ a.assignments, ∀ source, e.2 = .text source → Template.Legible source
  clause : ∀ e ∈ a.clause?, Predicate.Legible e

def PersistAction.OnTable (tables : List Table) (a : PersistAction) : Prop :=
  ∃ name ∈ a.table?, (tableNamed? tables name).isSome

structure Contract.Legible (c : Contract) : Prop where
  sources : ∀ d ∈ c.contextIn.fromDb, ∀ source ∈ d.template, Template.Legible source
  artifacts : ∀ a ∈ c.contextOut.artifacts, Template.Legible a.file

/-- The expressions of an action are read only if its table is declared. -/
structure Step.Legible (tables : List Table) (s : Step) : Prop where
  contract : ∀ c ∈ s.contract?, c.Legible
  exist : ∀ e ∈ s.rules.input.exist, Predicate.Legible e
  state : ∀ e ∈ s.rules.input.state, Predicate.Legible e
  files : ∀ source ∈ s.rules.input.files, Template.Legible source
  persist : ∀ a ∈ s.rules.persist, a.OnTable tables → a.Legible

structure Manifest.Legible (m : Manifest) : Prop where
  policies : ∀ t ∈ m.database.tables, ∀ a ∈ t.access, Predicate.Legible a.condition
  steps : ∀ s ∈ m.agents.map Step.agent ++ m.functions.map Step.function, s.Legible m.database.tables

/-! ## Lists of findings -/

def Clear (found : List Located) : Prop := ∀ l ∈ found, l.finding.breakdown? = none

section
variable {α : Type} {location path : Location} {f : Finding}

@[simp] theorem clear_nil : Clear [] := by simp [Clear]

@[simp] theorem clear_singleton : Clear [⟨location, f⟩] ↔ f.breakdown? = none := by simp [Clear]

@[simp] theorem clear_append {found more : List Located} : Clear (found ++ more) ↔ Clear found ∧ Clear more :=
  List.forall_mem_append

theorem clear_flatMap {as : List α} {check : α → List Located} {P : α → Prop} (h : ∀ a ∈ as, Clear (check a) ↔ P a) :
    Clear (as.flatMap check) ↔ ∀ a ∈ as, P a := by
  simp only [Clear, List.mem_flatMap]
  constructor
  · exact fun hc a ha => (h a ha).mp fun l hl => hc l ⟨a, ha, hl⟩
  · rintro hp l ⟨a, ha, hl⟩
    exact (h a ha).mpr (hp a ha) l hl

theorem clear_numbered {as : List α} {check : Nat × α → List Located} {P : α → Prop} {n : Nat}
    (h : ∀ i, ∀ a, Clear (check (i, a)) ↔ P a) : Clear ((numbered n as).flatMap check) ↔ ∀ a ∈ as, P a := by
  rw [clear_flatMap (P := fun e => P e.2) fun e _ => h e.1 e.2]
  exact (List.forall_mem_map (f := fun e : Nat × α => e.2)).symm.trans (by rw [map_snd_numbered])

theorem clear_of_flatMap {as : List α} {check : α → List Located} (h : ∀ a ∈ as, Clear (check a)) :
    Clear (as.flatMap check) :=
  (clear_flatMap (P := fun _ => True) fun a ha => iff_of_true (h a ha) trivial).mpr fun _ _ => trivial

theorem clear_map {as : List α} {g : α → Located} (h : ∀ a, (g a).finding.breakdown? = none) : Clear (as.map g) := by
  simp [Clear, h]

theorem clear_findIf {b : Bool} (h : f.breakdown? = none) : Clear (findIf b location f) := by
  cases b with
  | false => simp [findIf]
  | true => simpa [findIf] using h

/-! ## Expressions -/

theorem checkTemplate_clear {source : String} : Clear (checkTemplate location source) ↔ Template.Legible source := by
  unfold checkTemplate Template.Legible
  cases h : Template.parse source with
  | ok t => simp
  | error f => simp [Finding.breakdown?]

theorem checkAssignments_clear {t : Table} {values : Assignments} : Clear (checkAssignments t path values) ↔
    ∀ e ∈ values, ∀ source, e.2 = .text source → Template.Legible source := by
  refine clear_flatMap fun e _ => ?_
  rw [clear_append, and_iff_right (by exact clear_findIf rfl)]
  cases e.2 with
  | text source => simp [checkTemplate_clear]
  | _ => simp

theorem predicateOn_breakdown? {expression : String} {fallback : Option String} {f : ExpressionFault}
    (h : predicateOn expression fallback = .error f) : f.breakdown? = none ↔ Predicate.Legible expression := by
  unfold predicateOn at h
  unfold Predicate.Legible
  cases hp : Predicate.parse expression with
  | error g =>
    rw [hp] at h
    cases h
    simp
  | ok p =>
    simp only [hp, ok_bind] at h
    split at h
    · cases h
    · cases h
      simp [ExpressionFault.breakdown?]

theorem legible_of_predicateOn {expression target : String} {fallback : Option String} {p : Predicate}
    (h : predicateOn expression fallback = .ok (p, target)) : Predicate.Legible expression := by
  intro f hf
  rw [(predicateOn_eq_ok.mp h).1] at hf
  cases hf

theorem checkClause_clear {t : Table} {clause : String} : Clear (checkClause t path clause) ↔ Predicate.Legible clause := by
  unfold checkClause
  split
  · rename_i f hf
    rw [clear_singleton]
    exact predicateOn_breakdown? hf
  · rename_i p target hp
    -- what is found in a clause after it was read is about names only
    refine iff_of_true ?_ (legible_of_predicateOn hp)
    exact clear_append.mpr ⟨clear_findIf rfl, clear_of_flatMap fun _ _ => clear_findIf rfl⟩

theorem checkPredicate_clear {t : Table} {expression : String} :
    Clear (Manifest.checkPredicate location expression t) ↔ Predicate.Legible expression := by
  unfold Manifest.checkPredicate
  split
  · rename_i f hf
    rw [clear_singleton]
    exact predicateOn_breakdown? hf
  · rename_i p target hp
    refine iff_of_true ?_ (legible_of_predicateOn hp)
    split
    · simp [Finding.breakdown?]
    · exact clear_of_flatMap fun _ _ => clear_findIf rfl

/-! ## Actions -/

variable {tables : List Table} {custom : Option (List String)}

theorem checkOnTable_clear {name : String} {check : Table → List Located} {P : Prop} (h : ∀ t, Clear (check t) ↔ P) :
    Clear (checkOnTable tables path name check) ↔ ((tableNamed? tables name).isSome → P) := by
  unfold checkOnTable
  split
  · rename_i hn
    simp [hn, Finding.breakdown?]
  · rename_i t hn
    simp [hn, h]

theorem checkAction_clear {a : PersistAction} :
    Clear (checkAction tables custom path a) ↔ (a.OnTable tables → a.Legible) := by
  cases a with
  | update u =>
    refine (checkOnTable_clear (P := (PersistAction.update u).Legible) fun t => ?_).trans ?_
    · rw [clear_append, checkAssignments_clear]
      refine (and_congr_right' (c := ∀ e ∈ u.clause, Predicate.Legible e) ?_).trans ?_
      · cases u.clause with
        | none => simp [Finding.breakdown?]
        | some clause => simp [checkClause_clear]
      · exact ⟨fun h => ⟨h.1, h.2⟩, fun h => ⟨h.values, h.clause⟩⟩
    · simp [PersistAction.OnTable, PersistAction.table?]
  | insert r =>
    refine (checkOnTable_clear (P := (PersistAction.insert r).Legible) fun t => checkAssignments_clear.trans ?_).trans ?_
    · exact ⟨fun h => ⟨h, by rintro _ ⟨⟩⟩, fun h => h.values⟩
    · simp [PersistAction.OnTable, PersistAction.table?]
  | log r =>
    refine (checkOnTable_clear (P := (PersistAction.log r).Legible) fun t => checkAssignments_clear.trans ?_).trans ?_
    · exact ⟨fun h => ⟨h, by rintro _ ⟨⟩⟩, fun h => h.values⟩
    · simp [PersistAction.OnTable, PersistAction.table?]
  | custom c => exact iff_of_true (clear_findIf rfl) fun _ => ⟨by rintro _ ⟨⟩, by rintro _ ⟨⟩⟩

theorem checkActions_clear {actions : List PersistAction} :
    Clear (checkActions tables custom path actions) ↔ ∀ a ∈ actions, a.OnTable tables → a.Legible :=
  clear_numbered fun _ _ => checkAction_clear

/-! ## Steps -/

variable {m : Manifest}

theorem checkEvent_clear {name : String} : Clear (m.checkEvent location name) := clear_findIf rfl

theorem checkSites_clear {sites : List EventSite} : Clear (m.checkSites path sites) :=
  clear_of_flatMap fun _ _ => checkEvent_clear

theorem checkDbSource_clear {d : DbSource} :
    Clear (m.checkDbSource path d) ↔ ∀ source ∈ d.template, Template.Legible source := by
  unfold Manifest.checkDbSource
  rw [clear_append, and_iff_right]
  · cases d.template with
    | none => simp
    | some source => simp [checkTemplate_clear]
  · split
    · simp [Finding.breakdown?]
    · exact clear_of_flatMap fun _ _ => clear_findIf rfl

theorem checkStateOut_clear {c : Contract} : Clear (m.checkStateOut path c) := by
  unfold Manifest.checkStateOut
  split
  · refine clear_of_flatMap fun _ _ => ?_
    split
    · exact clear_findIf rfl
    · exact clear_nil
  · exact clear_nil

theorem checkContract_clear {c : Contract} : Clear (m.checkContract path c) ↔ c.Legible := by
  unfold Manifest.checkContract
  rw [clear_append, clear_append, clear_append, clear_append,
    clear_numbered (P := fun d : DbSource => ∀ source ∈ d.template, Template.Legible source) fun _ _ => checkDbSource_clear,
    clear_numbered (P := fun a : ArtifactSpec => Template.Legible a.file) fun _ _ => checkTemplate_clear]
  constructor
  · rintro ⟨⟨-, hs⟩, ha⟩
    exact ⟨hs, ha⟩
  · intro h
    exact ⟨⟨⟨⟨clear_of_flatMap fun _ _ => clear_findIf rfl, clear_findIf rfl⟩, checkStateOut_clear⟩, h.sources⟩,
      h.artifacts⟩

theorem checkExists_clear {e : String} : Clear (m.checkExists location e) ↔ Predicate.Legible e := by
  unfold Manifest.checkExists
  split
  · rename_i f hf
    rw [clear_singleton]
    exact predicateOn_breakdown? hf
  · rename_i p target hp
    split
    · exact iff_of_true (by simp [Finding.breakdown?]) (legible_of_predicateOn hp)
    · exact checkPredicate_clear

theorem checkStatePredicate_clear {e : String} : Clear (m.checkStatePredicate location e) ↔ Predicate.Legible e := by
  unfold Manifest.checkStatePredicate Predicate.Legible
  cases Predicate.parse e with
  | error f => simp [Finding.breakdown?]
  | ok p =>
    refine iff_of_true ?_ nofun
    simp only [clear_append]
    exact ⟨⟨clear_findIf rfl, clear_map fun _ => rfl⟩, clear_of_flatMap fun _ _ => clear_findIf rfl⟩

theorem checkInput_clear {s : Step} {triggers : List EventDefinition} : Clear (m.checkInput path s triggers) ↔
    (∀ e ∈ s.rules.input.exist, Predicate.Legible e) ∧ (∀ e ∈ s.rules.input.state, Predicate.Legible e) ∧
      ∀ source ∈ s.rules.input.files, Template.Legible source := by
  have hpayload : Clear (Manifest.checkPayload path s triggers) := by
    unfold Manifest.checkPayload
    split
    · exact clear_of_flatMap fun _ _ => clear_findIf rfl
    · exact clear_nil
  unfold Manifest.checkInput
  simp only [clear_append, hpayload, true_and, and_assoc]
  refine and_congr ?_ (and_congr ?_ (clear_numbered (P := Template.Legible) fun _ _ => checkTemplate_clear))
  · cases s.rules.input.exist with
    | none => simp
    | some e => simp [checkExists_clear]
  · cases s.rules.input.state with
    | none => simp
    | some e => simp [checkStatePredicate_clear]

theorem checkSource_clear {s : Step} : Clear (m.checkSource path s) := by
  cases s with
  | agent a => exact clear_nil
  | function f =>
    simp only [Manifest.checkSource]
    split
    · exact clear_findIf rfl
    · exact clear_findIf rfl
    · exact clear_nil

theorem checkTriggerKeys_clear {s : Step} {triggers : List EventDefinition} :
    Clear (Manifest.checkTriggerKeys path triggers s) := by
  cases s with
  | agent a => exact clear_nil
  | function f =>
    simp only [Manifest.checkTriggerKeys]
    split
    · exact clear_of_flatMap fun _ _ => clear_findIf rfl
    · exact clear_of_flatMap fun _ _ => clear_findIf rfl
    · exact clear_nil

theorem checkStep_clear {s : Step} : Clear (m.checkStep custom path s) ↔ s.Legible m.database.tables := by
  unfold Manifest.checkStep
  simp only [clear_append, checkSource_clear, checkSites_clear, checkTriggerKeys_clear, true_and, checkInput_clear,
    checkActions_clear]
  refine (and_congr_left' (and_congr_left' (b := ∀ c ∈ s.contract?, c.Legible) ?_)).trans ?_
  · cases s.contract? with
    | none => simp
    | some c => simp [checkContract_clear]
  · exact ⟨fun ⟨⟨hcontract, hexist, hstate, hfiles⟩, hpersist⟩ => ⟨hcontract, hexist, hstate, hfiles, hpersist⟩,
      fun h => ⟨⟨h.contract, h.exist, h.state, h.files⟩, h.persist⟩⟩

/-! ## Manifests -/

theorem checkUnique_clear {what : String} {seen : List String} {sites : List (Location × String)} :
    Clear (checkUnique what seen sites) := by
  induction sites generalizing seen with
  | nil => exact clear_nil
  | cons site sites ih => exact clear_append.mpr ⟨clear_findIf rfl, ih⟩

theorem checkDuplicates_clear : Clear m.checkDuplicates := by
  unfold Manifest.checkDuplicates
  simp only [clear_append, checkUnique_clear, true_and]
  exact clear_of_flatMap fun _ _ => checkUnique_clear

theorem checkStates_clear : Clear m.checkStates := by
  unfold Manifest.checkStates Manifest.checkTransitions
  simp only [clear_append]
  exact ⟨⟨⟨clear_findIf rfl, clear_of_flatMap fun _ _ => clear_of_flatMap fun _ _ => clear_findIf rfl⟩,
    clear_map fun _ => rfl⟩, clear_map fun _ => rfl⟩

theorem checkEvents_clear : Clear m.checkEvents := by
  refine clear_of_flatMap fun e _ => ?_
  dsimp only
  split
  · exact clear_findIf rfl
  · exact clear_nil

theorem checkWebhooksAndCrons_clear : Clear m.checkWebhooksAndCrons := by
  refine clear_append.mpr ⟨clear_of_flatMap fun w _ => ?_, clear_of_flatMap fun _ _ => clear_findIf rfl⟩
  dsimp only
  unfold Manifest.checkWebhook
  split
  · exact checkEvent_clear
  · split
    · simp [Finding.breakdown?]
    · exact clear_findIf rfl

theorem checkPolicies_clear :
    Clear m.checkPolicies ↔ ∀ t ∈ m.database.tables, ∀ a ∈ t.access, Predicate.Legible a.condition := by
  refine clear_numbered fun _ t => clear_numbered fun _ a => ?_
  unfold Manifest.checkPolicy
  rw [clear_append, checkPredicate_clear, and_iff_right]
  exact clear_append.mpr ⟨clear_findIf rfl, clear_findIf rfl⟩

/-- No breakdown ends the search for findings exactly if there is none in the expressions that are read. -/
theorem findings_clear (settings : Settings) (custom : Option (List String)) :
    Clear (m.findings settings custom) ↔ m.Legible := by
  have hunconsumed : Clear (if settings.reportUnconsumed then m.checkUnconsumed else []) := by
    split
    · exact clear_map fun _ => rfl
    · exact clear_nil
  have hsteps : Clear (m.steps.flatMap fun e => m.checkStep custom e.1 e.2) ↔
      ∀ s ∈ m.agents.map Step.agent ++ m.functions.map Step.function, s.Legible m.database.tables := by
    rw [clear_flatMap (P := fun e => e.2.Legible m.database.tables) fun _ _ => checkStep_clear, ← map_snd_steps]
    exact List.forall_mem_map.symm
  unfold Manifest.findings Manifest.checkReferences
  simp only [clear_append]
  constructor
  · rintro ⟨⟨⟨-, hpolicies⟩, hs⟩, -⟩
    exact ⟨checkPolicies_clear.mp hpolicies, hsteps.mp hs⟩
  · intro h
    exact ⟨⟨⟨⟨⟨⟨checkDuplicates_clear, checkStates_clear⟩, checkEvents_clear⟩, checkWebhooksAndCrons_clear⟩,
      checkPolicies_clear.mpr h.policies⟩, hsteps.mpr h.steps⟩, hunconsumed⟩

theorem diagnose_isOk_iff {settings : Settings} : (∃ ds, m.diagnose settings custom = .ok ds) ↔ m.Legible := by
  rw [← findings_clear settings custom]
  unfold Manifest.diagnose
  simp only [Located.diagnostics_eq_ok]
  exact ⟨fun ⟨_, h, _⟩ => h, fun h => ⟨_, h, rfl⟩⟩

end

end Workflow
