import Workflow.Persist
import Workflow.Proofs.Check.Findings
import Workflow.Proofs.Except

/-!
# Expressions that pass their checks

A template that passes can be read, and a predicate that passes can be read, is about the table it is checked against,
and names columns of that table. The same reader is used when a step runs.
-/

namespace Workflow

def Template.Readable (source : String) : Prop := ∃ t, Template.parse source = .ok t

namespace Table

/-- Where a table declares its columns, a column is one of them. -/
def Declares (t : Table) (column : String) : Prop := ∀ names, t.columnNames? = some names → column ∈ names

/-- An expression is a predicate on the rows of a table: the table is the one it is about, and has its columns. -/
structure Fits (t : Table) (fallback : Option String) (expression : String) (p : Predicate) : Prop where
  parse : Predicate.parse expression = .ok p
  target : p.target fallback = .ok t.name
  columns : ∀ c ∈ p.columns, t.Declares c.name

theorem mayHave_iff {t : Table} {column : String} : t.mayHave column = true ↔ t.Declares column := by
  unfold mayHave Declares
  cases t.columnNames? with
  | none => simp
  | some names => simp

end Table

/-- A predicate on the state of an entity: it names no table, and needs no order. -/
structure IsStatePredicate (expression : String) (p : Predicate) : Prop where
  parse : Predicate.parse expression = .ok p
  table : p.table = none
  operators : ∀ column op o, .comparison column op o ∈ p.conditions → op.isOrder = false

section
variable {location path : Location} {t : Table}

theorem checkTemplate_passes {source : String} : Passes (checkTemplate location source) ↔ Template.Readable source := by
  unfold checkTemplate Template.Readable
  cases h : Template.parse source with
  | ok m => simp
  | error f => exact iff_of_false (not_passes_singleton fun _ => rfl) (by simp)

theorem checkAssignments_passes {values : Assignments} (h : Passes (checkAssignments t path values)) :
    ∀ a ∈ values, t.Declares a.1 ∧ ∀ source, a.2 = .text source → Template.Readable source := by
  rintro ⟨column, value⟩ ha
  obtain ⟨hc, ht⟩ := passes_append.mp (passes_flatMap.mp h _ ha)
  rw [passes_findIf fun _ => rfl, Bool.not_eq_false', Table.mayHave_iff] at hc
  refine ⟨hc, ?_⟩
  rintro source rfl
  exact checkTemplate_passes.mp ht

theorem predicateOn_eq_ok {expression target : String} {fallback : Option String} {p : Predicate} :
    predicateOn expression fallback = .ok (p, target) ↔
      Predicate.parse expression = .ok p ∧ p.target fallback = .ok target := by
  unfold predicateOn
  rw [bind_eq_ok]
  constructor
  · rintro ⟨q, hq, hr⟩
    cases ht : q.target fallback with
    | error c => simp [ht, throw, throwThe, MonadExceptOf.throw] at hr
    | ok target' =>
      simp only [ht, pure_eq_ok, Except.ok.injEq, Prod.mk.injEq] at hr
      obtain ⟨rfl, rfl⟩ := hr
      exact ⟨hq, ht⟩
  · rintro ⟨hp, ht⟩
    exact ⟨p, hp, by simp [ht]⟩

theorem columns_declared {p : Predicate} {f : Predicate.Column → Finding} (hf : ∀ c, (f c).IsError)
    (h : Passes (p.columns.flatMap fun c => findIf (!t.mayHave c.name) location (f c))) :
    ∀ c ∈ p.columns, t.Declares c.name := by
  intro c hc
  have hm := passes_flatMap.mp h c hc
  rwa [passes_findIf (hf c), Bool.not_eq_false', Table.mayHave_iff] at hm

theorem checkClause_passes {clause : String} (h : Passes (checkClause t path clause)) :
    ∃ p, t.Fits (some t.name) clause p := by
  unfold checkClause at h
  split at h
  · exact absurd h (not_passes_singleton fun _ => rfl)
  · rename_i p target ho
    obtain ⟨ht, hc⟩ := passes_append.mp h
    rw [passes_findIf fun _ => rfl, bne_eq_false_iff_eq] at ht
    subst ht
    obtain ⟨hp, ht⟩ := predicateOn_eq_ok.mp ho
    exact ⟨p, hp, ht, columns_declared (fun _ _ => rfl) hc⟩

theorem checkPredicate_passes {expression : String} (h : Passes (Manifest.checkPredicate location expression t)) :
    ∃ p, t.Fits (some t.name) expression p := by
  unfold Manifest.checkPredicate at h
  split at h
  · exact absurd h (not_passes_singleton fun _ => rfl)
  · rename_i p target ho
    split at h
    · exact absurd h (not_passes_singleton fun _ => rfl)
    · rename_i ht
      rw [Decidable.not_not] at ht
      subst ht
      obtain ⟨hp, ht⟩ := predicateOn_eq_ok.mp ho
      exact ⟨p, hp, ht, columns_declared (fun _ _ => rfl) h⟩

theorem tableNamed?_eq_some {tables : List Table} {name : String} (h : tableNamed? tables name = some t) :
    t ∈ tables ∧ t.name = name :=
  ⟨List.mem_of_find?_eq_some h, by simpa using List.find?_some h⟩

theorem checkExists_passes {m : Manifest} {expression : String} (h : Passes (m.checkExists location expression)) :
    ∃ t ∈ m.database.tables, ∃ p, t.Fits none expression p := by
  unfold Manifest.checkExists at h
  split at h
  · exact absurd h (not_passes_singleton fun _ => rfl)
  · rename_i p target ho
    split at h
    · exact absurd h (not_passes_singleton fun _ => rfl)
    · rename_i t ht
      obtain ⟨hm, rfl⟩ := tableNamed?_eq_some ht
      obtain ⟨hp, htarget⟩ := predicateOn_eq_ok.mp ho
      -- the table that the predicate names was found; its columns were checked in a second reading
      obtain ⟨p', hf⟩ := checkPredicate_passes h
      cases hp.symm.trans hf.parse
      exact ⟨t, hm, p, hp, htarget, hf.columns⟩

theorem checkStatePredicate_passes {m : Manifest} {expression : String}
    (h : Passes (m.checkStatePredicate location expression)) : ∃ p, IsStatePredicate expression p := by
  unfold Manifest.checkStatePredicate at h
  split at h
  · exact absurd h (not_passes_singleton fun _ => rfl)
  · rename_i p hp
    obtain ⟨h, -⟩ := passes_append.mp h
    obtain ⟨ht, ho⟩ := passes_append.mp h
    rw [passes_findIf fun _ => rfl, Option.isSome_eq_false_iff, Option.isNone_iff_eq_none] at ht
    refine ⟨p, hp, ht, fun column op o hc => ?_⟩
    by_contra hop
    rw [Bool.not_eq_false] at hop
    have hm : op ∈ Manifest.orderOperators p := by
      simp only [Manifest.orderOperators, List.mem_filterMap]
      exact ⟨_, hc, by simp [hop]⟩
    exact ho _ (List.mem_map_of_mem hm) fun _ => rfl

end

/-! ## Persist actions -/

namespace PersistAction

structure Readable (a : PersistAction) : Prop where
  values : ∀ v ∈ a.assignments, ∀ source, v.2 = .text source → Template.Readable source
  clause : ∀ e, a.clause? = some e → ∃ p, Predicate.parse e = .ok p

def Closed (tables : List Table) : PersistAction → Prop
  | update u => ∃ t ∈ tables, t.name = u.table ∧ (∀ v ∈ u.values, t.Declares v.1) ∧
      ∀ e, u.clause = some e → ∃ p, t.Fits (some t.name) e p
  | insert r => ∃ t ∈ tables, t.name = r.table ∧ ∀ v ∈ r.values, t.Declares v.1
  | log r => ∃ t ∈ tables, t.name = r.table ∧ ∀ v ∈ r.values, t.Declares v.1
  | custom _ => True

end PersistAction

section
variable {tables : List Table} {custom : Option (List String)} {path : Location}

theorem checkOnTable_passes {name : String} {check : Table → List Located}
    (h : Passes (checkOnTable tables path name check)) : ∃ t ∈ tables, t.name = name ∧ Passes (check t) := by
  unfold checkOnTable at h
  split at h
  · exact absurd h (not_passes_singleton fun _ => rfl)
  · rename_i t ht
    obtain ⟨hm, hn⟩ := tableNamed?_eq_some ht
    exact ⟨t, hm, hn, h⟩

theorem checkAction_passes {a : PersistAction} (h : Passes (checkAction tables custom path a)) :
    a.Closed tables ∧ a.Readable := by
  cases a with
  | update u =>
    obtain ⟨t, ht, hn, h⟩ := checkOnTable_passes h
    obtain ⟨hv, hc⟩ := passes_append.mp h
    have hv := checkAssignments_passes hv
    have hc : ∀ e, u.clause = some e → ∃ p, t.Fits (some t.name) e p := by
      intro e he
      rw [he] at hc
      exact checkClause_passes hc
    refine ⟨⟨t, ht, hn, fun v hm => (hv v hm).1, hc⟩, fun v hm => (hv v hm).2, fun e he => ?_⟩
    obtain ⟨p, hf⟩ := hc e he
    exact ⟨p, hf.parse⟩
  | insert r =>
    obtain ⟨t, ht, hn, h⟩ := checkOnTable_passes h
    have hv := checkAssignments_passes h
    exact ⟨⟨t, ht, hn, fun v hm => (hv v hm).1⟩, fun v hm => (hv v hm).2, nofun⟩
  | log r =>
    obtain ⟨t, ht, hn, h⟩ := checkOnTable_passes h
    have hv := checkAssignments_passes h
    exact ⟨⟨t, ht, hn, fun v hm => (hv v hm).1⟩, fun v hm => (hv v hm).2, nofun⟩
  | custom c => exact ⟨trivial, nofun, nofun⟩

theorem checkActions_passes {actions : List PersistAction} (h : Passes (checkActions tables custom path actions)) :
    ∀ a ∈ actions, a.Closed tables ∧ a.Readable :=
  passes_numbered h fun _ _ => checkAction_passes

end

end Workflow
