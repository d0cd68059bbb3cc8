import Workflow.Proofs.Plan

/-!
# Declarations in another order

A declaration is looked up by its name. Among declarations with distinct names the same one is found in whatever order
they are listed.
-/

namespace Workflow

/-- The declarations of the lists of a manifest in some other order, and everything else as it was. -/
structure Manifest.Reordered (m m' : Manifest) : Prop where
  product : m'.product = m.product
  infrastructure : m'.infrastructure = m.infrastructure
  tenancy : m'.tenancy = m.tenancy
  initial : m'.stateMachine.initial = m.stateMachine.initial
  topic : m'.events.topic = m.events.topic
  migrationsDir : m'.database.migrationsDir = m.database.migrationsDir
  observability : m'.observability = m.observability
  states : m'.stateMachine.states.Perm m.stateMachine.states
  events : m'.events.definitions.Perm m.events.definitions
  agents : m'.agents.Perm m.agents
  functions : m'.functions.Perm m.functions
  tables : m'.database.tables.Perm m.database.tables
  actors : m'.database.actors.Perm m.database.actors
  webhooks : m'.webhooks.Perm m.webhooks
  crons : m'.crons.Perm m.crons

theorem Manifest.Reordered.symm {m m' : Manifest} (h : m.Reordered m') : m'.Reordered m where
  product := h.product.symm
  infrastructure := h.infrastructure.symm
  tenancy := h.tenancy.symm
  initial := h.initial.symm
  topic := h.topic.symm
  migrationsDir := h.migrationsDir.symm
  observability := h.observability.symm
  states := h.states.symm
  events := h.events.symm
  agents := h.agents.symm
  functions := h.functions.symm
  tables := h.tables.symm
  actors := h.actors.symm
  webhooks := h.webhooks.symm
  crons := h.crons.symm

/-! ## Keyed lists -/

section
variable {α : Type} {key : α → String} {as as' : List α}

theorem find?_perm (hp : as'.Perm as) (hn : (as.map key).Nodup) (name : String) :
    (as'.find? fun a => key a == name) = as.find? fun a => key a == name := by
  have hn' : (as'.map key).Nodup := (hp.map key).nodup_iff.mpr hn
  refine Option.ext fun a => ?_
  rw [find?_keyed hn', find?_keyed hn, hp.mem_iff]

theorem contains_perm {names names' : List String} (hp : names'.Perm names) (name : String) :
    names'.contains name = names.contains name :=
  List.Perm.contains_eq hp

end

/-! ## Manifests -/

structure Manifest.SameNames (m m' : Manifest) : Prop where
  hasState : ∀ name, m'.hasState name = m.hasState name
  stateNamed? : ∀ name, m'.stateNamed? name = m.stateNamed? name
  eventNamed? : ∀ name, m'.eventNamed? name = m.eventNamed? name
  functionNamed? : ∀ name, m'.functionNamed? name = m.functionNamed? name
  tableNamed? : ∀ name, tableNamed? m'.database.tables name = tableNamed? m.database.tables name
  actorNamed? : ∀ name, actorNamed? m'.database.actors name = actorNamed? m.database.actors name
  actor : ∀ name, (m'.database.actors.map Actor.name).contains name = (m.database.actors.map Actor.name).contains name
  webhook : ∀ name, (m'.webhooks.map fun w => w.name).contains name = (m.webhooks.map fun w => w.name).contains name
  cron : ∀ name, (m'.crons.map Cron.name).contains name = (m.crons.map Cron.name).contains name

section
variable {m m' : Manifest}

theorem Manifest.Distinct.functions (hd : m.Distinct) : (m.functions.map fun f => f.name).Nodup := by
  have hsteps := hd.steps
  rw [← Function.comp_def Step.name Prod.snd, ← List.map_map, map_snd_steps, List.map_append, List.map_map,
    List.map_map] at hsteps
  exact (List.nodup_append.mp hsteps).2.1

namespace Manifest.Reordered

theorem steps (h : m.Reordered m') : (m'.steps.map Prod.snd).Perm (m.steps.map Prod.snd) := by
  rw [map_snd_steps, map_snd_steps]
  exact (h.agents.map _).append (h.functions.map _)

theorem distinct (h : m.Reordered m') (hd : m.Distinct) : m'.Distinct where
  states := (h.states.map _).nodup_iff.mpr hd.states
  events := (h.events.map _).nodup_iff.mpr hd.events
  steps := by
    have hp := h.steps.map Step.name
    rw [List.map_map, List.map_map] at hp
    exact hp.nodup_iff.mpr hd.steps
  tables := (h.tables.map _).nodup_iff.mpr hd.tables
  actors := (h.actors.map _).nodup_iff.mpr hd.actors
  webhooks := (h.webhooks.map _).nodup_iff.mpr hd.webhooks
  crons := (h.crons.map _).nodup_iff.mpr hd.crons
  columns := fun t ht => hd.columns t (h.tables.mem_iff.mp ht)

theorem sameNames (h : m.Reordered m') (hd : m.Distinct) : m.SameNames m' where
  hasState := contains_perm (h.states.map _)
  stateNamed? := find?_perm h.states hd.states
  eventNamed? := find?_perm h.events hd.events
  functionNamed? := find?_perm h.functions hd.functions
  tableNamed? := find?_perm h.tables hd.tables
  actorNamed? := by
    -- of several actors the last one counts, so they are looked up from the end
    have hreverse : m'.database.actors.reverse.Perm m.database.actors.reverse :=
      (List.reverse_perm _).trans (h.actors.trans (List.reverse_perm _).symm)
    refine find?_perm hreverse ?_
    rw [List.map_reverse]
    exact List.nodup_reverse.mpr hd.actors
  actor := contains_perm (h.actors.map _)
  webhook := contains_perm (h.webhooks.map _)
  cron := contains_perm (h.crons.map _)

end Manifest.Reordered

end

end Workflow
