import Workflow.Compile
import Workflow.Proofs.Check.Findings
import Workflow.Proofs.Except
import Workflow.Proofs.Index

/-!
# Distinct names

The declarations of a kind that pass have distinct names, so that an index of them has one entry for each, in the order
of the declarations.
-/

namespace Workflow

/-- No two declarations of a kind share their name; agents and functions are of one kind. -/
structure Manifest.Distinct (m : Manifest) : Prop where
  states : m.stateMachine.names.Nodup
  events : m.events.names.Nodup
  steps : (m.steps.map fun s => s.2.name).Nodup
  tables : (m.database.tables.map Table.name).Nodup
  actors : (m.database.actors.map Actor.name).Nodup
  webhooks : (m.webhooks.map fun w => w.name).Nodup
  crons : (m.crons.map Cron.name).Nodup
  columns : ∀ t ∈ m.database.tables, ∀ names, t.columnNames? = some names → names.Nodup

theorem checkUnique_passes {what : String} {seen : List String} {sites : List (Location × String)}
    (h : Passes (checkUnique what seen sites)) :
    (sites.map Prod.snd).Nodup ∧ ∀ name ∈ sites.map Prod.snd, name ∉ seen := by
  -- `seen` are the names of the sites before these
  induction sites generalizing seen with
  | nil => simp
  | cons site sites ih =>
    obtain ⟨location, name⟩ := site
    obtain ⟨hn, hr⟩ := passes_append.mp h
    rw [passes_findIf fun _ => rfl] at hn
    obtain ⟨hd, hs⟩ := ih hr
    have hname : name ∉ seen := by simpa using hn
    refine ⟨List.nodup_cons.mpr ⟨fun hm => hs name hm (by simp), hd⟩, ?_⟩
    refine List.forall_mem_cons.mpr ⟨hname, fun x hx hm => hs x hx (by simp [hm])⟩

theorem map_snd_nameSites {α : Type} (path : Location) (name : α → String) (as : List α) :
    (nameSites path name as).map Prod.snd = as.map name := by
  rw [nameSites, List.map_map]
  exact map_numbered name 0 as

theorem nameSites_passes {α : Type} {what : String} {path : Location} {name : α → String} {as : List α}
    (h : Passes (checkUnique what [] (nameSites path name as))) : (as.map name).Nodup :=
  map_snd_nameSites path name as ▸ (checkUnique_passes h).1

theorem checkDuplicates_passes {m : Manifest} (h : Passes m.checkDuplicates) : m.Distinct := by
  unfold Manifest.checkDuplicates at h
  simp only [passes_append] at h
  obtain ⟨⟨⟨⟨⟨⟨⟨hstates, hevents⟩, hsteps⟩, htables⟩, hactors⟩, hwebhooks⟩, hcrons⟩, hcolumns⟩ := h
  have hsteps := (checkUnique_passes hsteps).1
  rw [List.map_map] at hsteps
  refine ⟨nameSites_passes hstates, nameSites_passes hevents, hsteps, nameSites_passes htables, nameSites_passes hactors,
    nameSites_passes hwebhooks, nameSites_passes hcrons, fun t ht names hn => ?_⟩
  have hc := passes_numbered hcolumns (P := fun t => ((t.columns.getD []).map Column.name).Nodup)
    (fun _ _ => nameSites_passes) t ht
  cases hcol : t.columns with
  | none => simp [Table.columnNames?, hcol] at hn
  | some columns =>
    simp only [Table.columnNames?, hcol, Option.map_some, Option.some.injEq] at hn
    rw [hcol, Option.getD_some] at hc
    exact hn ▸ hc

end Workflow
