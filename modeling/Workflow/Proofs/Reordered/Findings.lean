import Mathlib.Data.List.Perm.Basic
import Workflow.Proofs.Reordered.Graphs
import Workflow.Proofs.Verdict

/-!
# Findings of reordered declarations

The same things are found in the declarations of a manifest in whatever order they are listed, as long as every name
stands for the same declaration. Only their places change: each check is compared with itself at another place.
-/

namespace Workflow

def SameFindings (found more : List Located) : Prop := (found.map Located.finding).Perm (more.map Located.finding)

section
variable {α : Type} {found found' more more' : List Located} {location location' : Location} {f : Finding}

theorem SameFindings.refl (found : List Located) : SameFindings found found := List.Perm.refl _

theorem SameFindings.symm (h : SameFindings found more) : SameFindings more found := List.Perm.symm h

theorem SameFindings.trans (h : SameFindings found more) (h' : SameFindings more more') : SameFindings found more' :=
  List.Perm.trans h h'

theorem SameFindings.append (h : SameFindings found more) (h' : SameFindings found' more') :
    SameFindings (found ++ found') (more ++ more') := by
  unfold SameFindings
  rw [List.map_append, List.map_append]
  exact List.Perm.append h h'

theorem sameFindings_singleton : SameFindings [⟨location', f⟩] [⟨location, f⟩] := List.Perm.refl _

theorem sameFindings_findIf {b : Bool} : SameFindings (findIf b location' f) (findIf b location f) := by
  cases b with
  | false => exact .refl _
  | true => exact sameFindings_singleton

theorem sameFindings_map {as as' : List α} {finding : α → Finding} {site site' : α → Location} (h : as'.Perm as) :
    SameFindings (as'.map fun a => ⟨site' a, finding a⟩) (as.map fun a => ⟨site a, finding a⟩) := by
  unfold SameFindings
  rw [List.map_map, List.map_map]
  exact h.map finding

theorem SameFindings.flatMap {as as' : List α} {check check' : α → List Located} (h : as'.Perm as)
    (hc : ∀ a, SameFindings (check' a) (check a)) : SameFindings (as'.flatMap check') (as.flatMap check) := by
  unfold SameFindings
  rw [List.map_flatMap, List.map_flatMap]
  exact h.flatMap fun a _ => hc a

theorem sameFindings_numbered {as : List α} {n : Nat} {check : Nat × α → List Located} {whole : α → List Located}
    (hc : ∀ i a, SameFindings (check (i, a)) (whole a)) :
    SameFindings ((numbered n as).flatMap check) (as.flatMap whole) := by
  induction as generalizing n with
  | nil => exact .refl _
  | cons a as ih =>
    rw [numbered, List.flatMap_cons, List.flatMap_cons]
    exact (hc n a).append ih

theorem SameFindings.numbered {as as' : List α} {check check' : Nat × α → List Located} (h : as'.Perm as)
    (hc : ∀ i j a, SameFindings (check' (i, a)) (check (j, a))) :
    SameFindings ((numbered 0 as').flatMap check') ((Workflow.numbered 0 as).flatMap check) := by
  have hleft : SameFindings ((Workflow.numbered 0 as').flatMap check') (as'.flatMap fun a => check (0, a)) :=
    sameFindings_numbered fun i a => hc i 0 a
  have hright : SameFindings ((Workflow.numbered 0 as).flatMap check) (as.flatMap fun a => check (0, a)) :=
    sameFindings_numbered fun i a => (hc 0 i a).symm.trans (hc 0 0 a)
  exact hleft.trans ((flatMap h fun a => .refl _).trans hright.symm)

end

/-! ## Steps -/

section
variable {m m' : Manifest} {location location' path path' : Location}

theorem checkTemplate_same {source : String} :
    SameFindings (checkTemplate location' source) (checkTemplate location source) := by
  unfold checkTemplate
  cases Template.parse source with
  | ok t => exact .refl _
  | error f => exact sameFindings_singleton

theorem checkPredicate_same {expression : String} {t : Table} :
    SameFindings (Manifest.checkPredicate location' expression t) (Manifest.checkPredicate location expression t) := by
  unfold Manifest.checkPredicate
  cases predicateOn expression (some t.name) with
  | error f => exact sameFindings_singleton
  | ok r =>
    dsimp only
    split
    · exact sameFindings_singleton
    · exact .flatMap (.refl _) fun c => sameFindings_findIf

section
variable {tables tables' : List Table}

theorem checkAssignments_same {t : Table} {values : Assignments} :
    SameFindings (checkAssignments t path' values) (checkAssignments t path values) := by
  refine .flatMap (.refl _) fun (column, value) => .append sameFindings_findIf ?_
  cases value with
  | text source => exact checkTemplate_same
  | _ => exact .refl _

theorem checkClause_same {t : Table} {clause : String} :
    SameFindings (checkClause t path' clause) (checkClause t path clause) := by
  unfold checkClause
  cases predicateOn clause (some t.name) with
  | error f => exact sameFindings_singleton
  | ok r => exact .append sameFindings_findIf (.flatMap (.refl _) fun c => sameFindings_findIf)

theorem checkOnTable_same {name : String} {check check' : Table → List Located}
    (ht : tableNamed? tables' name = tableNamed? tables name) (hc : ∀ t, SameFindings (check' t) (check t)) :
    SameFindings (checkOnTable tables' path' name check') (checkOnTable tables path name check) := by
  unfold checkOnTable
  rw [ht]
  cases tableNamed? tables name with
  | none => exact sameFindings_singleton
  | some t => exact hc t

theorem checkAction_same {custom : Option (List String)} (ht : ∀ name, tableNamed? tables' name = tableNamed? tables name)
    (a : PersistAction) : SameFindings (checkAction tables' custom path' a) (checkAction tables custom path a) := by
  cases a with
  | update u =>
    refine checkOnTable_same (ht u.table) fun t => .append checkAssignments_same ?_
    cases u.clause with
    | none => exact sameFindings_singleton
    | some clause => exact checkClause_same
  | insert r => exact checkOnTable_same (ht r.table) fun t => checkAssignments_same
  | log r => exact checkOnTable_same (ht r.table) fun t => checkAssignments_same
  | custom c => exact sameFindings_findIf

end

namespace Manifest.SameNames

theorem checkState (h : m.SameNames m') (name : String) :
    SameFindings (m'.checkState location' name) (m.checkState location name) := by
  unfold Manifest.checkState
  rw [h.hasState]
  exact sameFindings_findIf

theorem checkEvent (h : m.SameNames m') (name : String) :
    SameFindings (m'.checkEvent location' name) (m.checkEvent location name) := by
  unfold Manifest.checkEvent
  rw [h.eventNamed?]
  exact sameFindings_findIf

theorem checkSites (h : m.SameNames m') (sites : List EventSite) :
    SameFindings (m'.checkSites path' sites) (m.checkSites path sites) :=
  .flatMap (.refl _) fun s => h.checkEvent s.event

theorem checkSource (h : m.SameNames m') (s : Step) : SameFindings (m'.checkSource path' s) (m.checkSource path s) := by
  cases s with
  | agent a => exact .refl _
  | function f =>
    simp only [Manifest.checkSource, h.cron, h.webhook]
    cases f.trigger with
    | cron t => exact sameFindings_findIf
    | webhook t => exact sameFindings_findIf
    | _ => exact .refl _

theorem triggersOf (h : m.SameNames m') (s : Step) : m'.triggersOf s = m.triggersOf s := by
  unfold Manifest.triggersOf
  rw [funext h.eventNamed?]

theorem checkTriggerKeys {triggers : List EventDefinition} (s : Step) :
    SameFindings (Manifest.checkTriggerKeys path' triggers s) (Manifest.checkTriggerKeys path triggers s) := by
  cases s with
  | agent a => exact .refl _
  | function f =>
    simp only [Manifest.checkTriggerKeys]
    cases f.trigger with
    | fanIn t => exact .flatMap (.refl _) fun e => sameFindings_findIf
    | routing t => exact .flatMap (.refl _) fun e => sameFindings_findIf
    | _ => exact .refl _

theorem checkStateOut (h : m.SameNames m') (c : Contract) :
    SameFindings (m'.checkStateOut path' c) (m.checkStateOut path c) := by
  unfold Manifest.checkStateOut
  rw [h.hasState]
  split
  · refine .flatMap (.refl _) fun name => ?_
    rw [h.stateNamed?]
    cases m.stateNamed? name with
    | none => exact .refl _
    | some s => exact sameFindings_findIf
  · exact .refl _

theorem checkDbSource (h : m.SameNames m') (s : DbSource) :
    SameFindings (m'.checkDbSource path' s) (m.checkDbSource path s) := by
  unfold Manifest.checkDbSource
  rw [h.tableNamed?]
  refine .append ?_ ?_
  · cases Workflow.tableNamed? m.database.tables s.table with
    | none => exact sameFindings_singleton
    | some t => exact .numbered (.refl _) fun i j c => sameFindings_findIf
  · cases s.template with
    | none => exact .refl _
    | some source => exact checkTemplate_same

theorem checkContract (h : m.SameNames m') (c : Contract) :
    SameFindings (m'.checkContract path' c) (m.checkContract path c) := by
  refine .append (.append (.append (.append ?_ (h.checkState _)) (h.checkStateOut c)) ?_) ?_
  · exact .numbered (.refl _) fun i j name => h.checkState name
  · exact .numbered (.refl _) fun i j s => h.checkDbSource s
  · exact .numbered (.refl _) fun i j a => checkTemplate_same

theorem checkPayload {triggers : List EventDefinition} (s : Step) :
    SameFindings (Manifest.checkPayload path' s triggers) (Manifest.checkPayload path s triggers) := by
  unfold Manifest.checkPayload
  split
  · exact .numbered (.refl _) fun i j name => sameFindings_findIf
  · exact .refl _

theorem checkExists (h : m.SameNames m') (expression : String) :
    SameFindings (m'.checkExists location' expression) (m.checkExists location expression) := by
  unfold Manifest.checkExists
  cases predicateOn expression none with
  | error f => exact sameFindings_singleton
  | ok r =>
    simp only [h.tableNamed?]
    cases Workflow.tableNamed? m.database.tables r.2 with
    | none => exact sameFindings_singleton
    | some t => exact checkPredicate_same

theorem checkStatePredicate (h : m.SameNames m') (expression : String) :
    SameFindings (m'.checkStatePredicate location' expression) (m.checkStatePredicate location expression) := by
  unfold Manifest.checkStatePredicate
  cases Predicate.parse expression with
  | error f => exact sameFindings_singleton
  | ok p =>
    refine .append (.append sameFindings_findIf ?_) (.flatMap (.refl _) fun s => h.checkState _)
    exact sameFindings_map (.refl _)

theorem checkInput (h : m.SameNames m') {triggers : List EventDefinition} (s : Step) :
    SameFindings (m'.checkInput path' s triggers) (m.checkInput path s triggers) := by
  refine .append (.append (.append (checkPayload s) ?_) ?_) ?_
  · cases s.rules.input.exist with
    | none => exact .refl _
    | some e => exact h.checkExists e
  · cases s.rules.input.state with
    | none => exact .refl _
    | some e => exact h.checkStatePredicate e
  · exact .numbered (.refl _) fun i j source => checkTemplate_same

theorem checkStep (h : m.SameNames m') (custom : Option (List String)) (s : Step) :
    SameFindings (m'.checkStep custom path' s) (m.checkStep custom path s) := by
  unfold Manifest.checkStep
  rw [h.triggersOf]
  refine .append (.append (.append (.append (.append (.append (h.checkSource s) (h.checkSites _)) (h.checkSites _))
    (checkTriggerKeys s)) ?_) (h.checkInput s)) ?_
  · cases s.contract? with
    | none => exact .refl _
    | some c => exact h.checkContract c
  · exact .numbered (.refl _) fun i j a => checkAction_same h.tableNamed? a

theorem checkWebhook (h : m.SameNames m') (w : Webhook) :
    SameFindings (m'.checkWebhook path' w) (m.checkWebhook path w) := by
  unfold Manifest.checkWebhook
  cases w.target with
  | event r => exact h.checkEvent r.emits
  | function r =>
    simp only [h.functionNamed?]
    cases m.functionNamed? r.function with
    | none => exact sameFindings_singleton
    | some f => exact sameFindings_findIf

theorem checkPolicy (h : m.SameNames m') (t : Table) (p : AccessPolicy) :
    SameFindings (m'.checkPolicy path' t p) (m.checkPolicy path t p) := by
  unfold Manifest.checkPolicy
  rw [h.actor]
  exact .append (.append sameFindings_findIf sameFindings_findIf) checkPredicate_same

end Manifest.SameNames

end

/-! ## Manifests -/

theorem checkUnique_eq_nil {what : String} {seen : List String} {sites : List (Location × String)}
    (hn : (sites.map Prod.snd).Nodup) (hs : ∀ name ∈ sites.map Prod.snd, name ∉ seen) : checkUnique what seen sites = [] := by
  induction sites generalizing seen with
  | nil => rfl
  | cons site sites ih =>
    obtain ⟨location, name⟩ := site
    obtain ⟨hname, hrest⟩ := List.nodup_cons.mp hn
    obtain ⟨hseen, hs⟩ := List.forall_mem_cons.mp hs
    have hcontains : seen.contains name = false := by simpa using hseen
    rw [checkUnique, hcontains, ih hrest]
    · rfl
    · intro other ho hmem
      rcases List.mem_cons.mp hmem with rfl | hmem
      · exact hname ho
      · exact hs other ho hmem

theorem checkUnique_nameSites {α : Type} {what : String} {path : Location} {name : α → String} {as : List α}
    (h : (as.map name).Nodup) : checkUnique what [] (nameSites path name as) = [] :=
  checkUnique_eq_nil (map_snd_nameSites path name as ▸ h) (by simp)

theorem Manifest.Distinct.checkDuplicates {m : Manifest} (hd : m.Distinct) : m.checkDuplicates = [] := by
  have hsteps : ((m.steps.map fun x => (x.1 ++ [PathStep.key "name"], x.2.name)).map Prod.snd).Nodup := by
    rw [List.map_map]
    exact hd.steps
  unfold Manifest.checkDuplicates
  rw [checkUnique_nameSites hd.states, checkUnique_nameSites hd.events, checkUnique_eq_nil hsteps (by simp),
    checkUnique_nameSites hd.tables, checkUnique_nameSites hd.actors, checkUnique_nameSites hd.webhooks,
    checkUnique_nameSites hd.crons]
  simp only [List.nil_append, List.flatMap_eq_nil_iff]
  rintro ⟨i, t⟩ ht
  refine checkUnique_nameSites ?_
  have ht : t ∈ m.database.tables := by
    rw [← map_snd_numbered 0 m.database.tables]
    exact List.mem_map_of_mem ht
  cases hc : t.columns with
  | none => simp
  | some columns => exact hd.columns t ht _ (by rw [Table.columnNames?, hc]; rfl)

namespace Manifest.Reordered

section
variable {m m' : Manifest}

theorem checkStates (h : m.Reordered m') (hn : m.SameNames m') : SameFindings m'.checkStates m.checkStates := by
  have hgraph := StateMachine.graph_alike h.initial h.states
  unfold Manifest.checkStates
  simp only [h.initial, hn.hasState]
  refine .append (.append (.append sameFindings_findIf ?_) (sameFindings_map hgraph.deadEnds))
    (sameFindings_map hgraph.unreachable)
  refine .numbered h.states fun i j s => .numbered (.refl _) fun k l target => ?_
  simp only [hn.hasState]
  exact sameFindings_findIf

theorem checkEvents (h : m.Reordered m') : SameFindings m'.checkEvents m.checkEvents := by
  refine .numbered h.events fun i j e => ?_
  dsimp only
  cases e.idempotencyKey with
  | none => exact .refl _
  | some key => exact sameFindings_findIf

theorem checkWebhooksAndCrons (h : m.Reordered m') (hn : m.SameNames m') :
    SameFindings m'.checkWebhooksAndCrons m.checkWebhooksAndCrons := by
  refine .append (.numbered h.webhooks fun i j w => hn.checkWebhook w) (.numbered h.crons fun i j c => ?_)
  simp only [hn.functionNamed?]
  exact sameFindings_findIf

theorem checkPolicies (h : m.Reordered m') (hn : m.SameNames m') : SameFindings m'.checkPolicies m.checkPolicies :=
  .numbered h.tables fun _ _ t => .numbered (.refl _) fun _ _ p => hn.checkPolicy t p

theorem checkSteps (h : m.Reordered m') (hn : m.SameNames m') (custom : Option (List String)) :
    SameFindings (m'.steps.flatMap fun (path, s) => m'.checkStep custom path s)
      (m.steps.flatMap fun (path, s) => m.checkStep custom path s) := by
  have hplaces : SameFindings (m'.steps.flatMap fun (path, s) => m'.checkStep custom path s)
      ((m'.steps.map Prod.snd).flatMap fun s => m.checkStep custom [] s) := by
    rw [List.flatMap_map]
    exact .flatMap (.refl _) fun (path, s) => hn.checkStep custom s
  have hplaces' : SameFindings (m.steps.flatMap fun (path, s) => m.checkStep custom path s)
      ((m.steps.map Prod.snd).flatMap fun s => m.checkStep custom [] s) := by
    rw [List.flatMap_map]
    refine .flatMap (.refl _) fun (path, s) => ?_
    have hroot : SameFindings (m'.checkStep custom [] s) (m.checkStep custom path s) := hn.checkStep custom s
    exact hroot.symm.trans (hn.checkStep custom s)
  exact hplaces.trans ((SameFindings.flatMap h.steps fun s => .refl _).trans hplaces'.symm)

/-- The checks find the same in a manifest with distinct names, whatever the order of its declarations. -/
theorem checkReferences (h : m.Reordered m') (hd : m.Distinct) (custom : Option (List String)) :
    SameFindings (m'.checkReferences custom) (m.checkReferences custom) := by
  have hn := h.sameNames hd
  unfold Manifest.checkReferences
  rw [hd.checkDuplicates, (h.distinct hd).checkDuplicates, List.nil_append, List.nil_append]
  exact .append (.append (.append (.append (h.checkStates hn) h.checkEvents) (h.checkWebhooksAndCrons hn))
    (h.checkPolicies hn)) (h.checkSteps hn custom)

end

end Manifest.Reordered

/-! ## Acceptable findings -/

def Acceptable (settings : Settings) (found : List Located) : Prop :=
  ∀ l ∈ found, l.finding.breakdown? = none ∧ l.finding.severity settings ≠ .error

section
variable {m m' : Manifest} {settings : Settings} {custom : Option (List String)} {found more : List Located}

theorem Acceptable.same (h : SameFindings more found) (ha : Acceptable settings found) : Acceptable settings more := by
  intro l hl
  obtain ⟨k, hk, hf⟩ := List.mem_map.mp (h.mem_iff.mp (List.mem_map_of_mem hl))
  rw [← hf]
  exact ha k hk

theorem acceptable_unconsumed : Acceptable settings m.checkUnconsumed := by
  intro l hl
  obtain ⟨e, -, rfl⟩ := List.mem_map.mp hl
  exact ⟨rfl, by simp [Finding.severity]⟩

theorem acceptable_findings :
    Acceptable settings (m.findings settings custom) ↔ Acceptable settings (m.checkReferences custom) := by
  have hunconsumed : Acceptable settings (if settings.reportUnconsumed then m.checkUnconsumed else []) := by
    split
    · exact acceptable_unconsumed
    · exact nofun
  rw [Manifest.findings, Acceptable, List.forall_mem_append]
  exact and_iff_left hunconsumed

theorem diagnose_acceptable :
    (∃ ds, m.diagnose settings custom = .ok ds ∧ errorsOf ds = []) ↔ Acceptable settings (m.checkReferences custom) := by
  have hds : ∀ ds, m.diagnose settings custom = .ok ds ↔ (∀ l ∈ m.findings settings custom, l.finding.breakdown? = none) ∧
      ds = (m.findings settings custom).map (Located.diagnostic settings) := fun ds => Located.diagnostics_eq_ok
  rw [← acceptable_findings]
  constructor
  · rintro ⟨ds, hd, he⟩
    obtain ⟨hunbroken, hfound⟩ := (hds ds).mp hd
    rw [hfound] at he
    exact fun l hl => ⟨hunbroken l hl, List.forall_mem_map.mp (errorsOf_eq_nil.mp he) l hl⟩
  · intro h
    exact ⟨_, (hds _).mpr ⟨fun l hl => (h l hl).1, rfl⟩,
      errorsOf_eq_nil.mpr (List.forall_mem_map.mpr fun l hl => (h l hl).2)⟩

theorem distinct_of_acceptable (h : Acceptable settings (m.checkReferences custom)) : m.Distinct := by
  obtain ⟨ds, hd, he⟩ := diagnose_acceptable.mpr h
  exact (sound_of_diagnose hd he).distinct

end

end Workflow
