import Workflow.Compile
import Workflow.Proofs.Check.Closed
import Workflow.Proofs.EventGraph

/-!
# Plans

A plan comes of a manifest in which no error was found. So the manifest of a plan is sound, and the indexes of the plan
list its declarations one for one.
-/

namespace Workflow

/-- Each index of a plan has one entry for every declaration, under its name and in the order of the declarations. -/
structure Plan.Indexes (p : Plan) : Prop where
  states : p.states = p.manifest.stateMachine.states.map fun s => (s.name, s)
  events : p.events = p.manifest.events.definitions.map fun e => (e.name, e)
  steps : p.steps = (p.manifest.agents.map Step.agent ++ p.manifest.functions.map Step.function).map fun s => (s.name, s)
  tables : p.tables = p.manifest.database.tables.map fun t => (t.name, t)
  actors : p.actors = p.manifest.database.actors.map fun a => (a.name, a)
  policies : List.Forall₂ (fun t e => e.1 = t.name ∧ t.policies p.manifest.database.actors = .ok e.2)
    p.manifest.database.tables p.policies
  triggers : p.triggers.names.Nodup ∧ ∀ e ∈ p.triggers.names, e ∈ p.manifest.events.names

section
variable {settings : Settings} {custom : Option (List String)} {source : Option String}
  {loaded : Except (List Diagnostic) Manifest} {c : Compilation} {m : Manifest} {ds : List Diagnostic} {p : Plan}

theorem plan_of_compile (h : compile settings custom source loaded = .ok c) (hp : c.plan = some p) :
    ∃ m, loaded = .ok m ∧ m.diagnose settings custom = .ok c.diagnostics ∧ errorsOf c.diagnostics = [] ∧
      m.plan c.diagnostics = .ok p := by
  unfold compile at h
  split at h
  · cases h
    cases hp
  · rename_i m
    split at h
    · cases h
    · rename_i ds hd
      split at h
      · rename_i he
        split at h
        · rename_i p' hplan
          cases h
          cases hp
          exact ⟨m, rfl, hd, List.isEmpty_iff.mp he, hplan⟩
        · cases h
          cases hp
        · cases h
      · cases h
        cases hp

theorem plan_contents (h : m.plan ds = .ok p) : p.manifest = m ∧ p.warnings = ds ∧ m.fingerprint = .ok p.fingerprint ∧
    m.tablePolicies = .ok p.policies ∧ p.states = Index.of StateDefinition.name m.stateMachine.states ∧
    p.events = Index.of EventDefinition.name m.events.definitions ∧ p.steps = Index.of Step.name (m.steps.map Prod.snd) ∧
    p.tables = Index.of Table.name m.database.tables ∧ p.actors = Index.of Actor.name m.database.actors ∧
    p.triggers = m.eventGraph.triggers?.getD [] := by
  unfold Manifest.plan at h
  split at h
  · cases h
  · cases h
  · rename_i hf hp
    cases h
    exact ⟨rfl, rfl, hf, hp, rfl, rfl, rfl, rfl, rfl, rfl⟩

theorem sound_of_diagnose (hd : m.diagnose settings custom = .ok ds) (he : errorsOf ds = []) : m.Sound := by
  obtain ⟨-, hds⟩ := Located.diagnostics_eq_ok.mp hd
  have hpass := passes_of_errorsOf (hds ▸ he)
  exact checkReferences_passes (passes_append.mp hpass).1

theorem compile_sound (h : compile settings custom source loaded = .ok c) (hp : c.plan = some p) :
    loaded = .ok p.manifest ∧ p.manifest.Sound := by
  obtain ⟨m, hl, hd, he, hplan⟩ := plan_of_compile h hp
  obtain ⟨rfl, -⟩ := plan_contents hplan
  exact ⟨hl, sound_of_diagnose hd he⟩

theorem tablePolicies_index {policies : Index TablePolicies} (hd : (m.database.tables.map Table.name).Nodup)
    (h : m.tablePolicies = .ok policies) :
    List.Forall₂ (fun t e => e.1 = t.name ∧ t.policies m.database.actors = .ok e.2) m.database.tables policies := by
  unfold Manifest.tablePolicies at h
  rw [Index.of_eq_map hd, mapM_eq_ok, List.forall₂_map_left_iff] at h
  refine h.imp fun t e he => ?_
  cases hr : t.policies m.database.actors with
  | error f => simp [hr, Except.map] at he
  | ok rules =>
    simp only [hr, Except.map, Except.ok.injEq] at he
    subst he
    exact ⟨rfl, rfl⟩

theorem triggers_index : (Index.names (m.eventGraph.triggers?.getD [])).Nodup ∧
    ∀ e ∈ Index.names (m.eventGraph.triggers?.getD []), e ∈ m.events.names := by
  cases h : m.eventGraph.triggers? with
  | none => simp [Index.names]
  | some index => exact (EventGraph.eventGraph_within m).nodup_triggers h

theorem compile_indexes (h : compile settings custom source loaded = .ok c) (hp : c.plan = some p) : p.Indexes := by
  obtain ⟨-, hsound⟩ := compile_sound h hp
  have hdistinct := hsound.distinct
  obtain ⟨m, -, -, -, hplan⟩ := plan_of_compile h hp
  obtain ⟨rfl, -, -, hpolicies, hstates, hevents, hsteps, htables, hactors, htriggers⟩ := plan_contents hplan
  rw [map_snd_steps] at hsteps
  have hnames := hdistinct.steps
  rw [← Function.comp_def Step.name Prod.snd, ← List.map_map, map_snd_steps] at hnames
  exact ⟨hstates.trans (Index.of_eq_map hdistinct.states), hevents.trans (Index.of_eq_map hdistinct.events),
    hsteps.trans (Index.of_eq_map hnames), htables.trans (Index.of_eq_map hdistinct.tables),
    hactors.trans (Index.of_eq_map hdistinct.actors), tablePolicies_index hdistinct.tables hpolicies,
    htriggers ▸ triggers_index⟩

theorem Plan.Indexes.declared (h : p.Indexes) {name : String} {s : Step} (hs : p.step name = .ok s) :
    s ∈ p.manifest.agents.map Step.agent ++ p.manifest.functions.map Step.function := by
  unfold Plan.step at hs
  split at hs
  · rename_i s' hg
    cases hs
    unfold Index.get? at hg
    obtain ⟨entry, hf, rfl⟩ := Option.map_eq_some_iff.mp hg
    have hm := List.mem_of_find?_eq_some hf
    rw [h.steps] at hm
    obtain ⟨s, hs, rfl⟩ := List.mem_map.mp hm
    exact hs
  · cases hs

/-- The manifest of a plan is the one that was read; its declarations are distinct and each has its entry, and every name
in it is declared. -/
theorem compile_closed (h : compile settings custom source loaded = .ok c) (hp : c.plan = some p) :
    loaded = .ok p.manifest ∧ p.manifest.Distinct ∧ p.Indexes ∧ p.manifest.Closed := by
  obtain ⟨hl, hsound⟩ := compile_sound h hp
  exact ⟨hl, hsound.distinct, compile_indexes h hp, hsound.closed⟩

end

open Plan

/-- A document with a step, a trigger and a webhook of every kind, and every kind of action. Its one policy has some
condition, and its one agent may use some number of tokens. -/
def workshop (condition : String) (tokens : Int) : Value :=
  .mapping [
    entry "product" (.mapping [
      entry "name" (.text "workshop"), entry "description" (.text ""), entry "version" (.text "1")]),
    entry "state_machine" (.mapping [
      entry "initial" (.text "open"),
      entry "states" (.list [
        .mapping [entry "name" (.text "open"), entry "transitions_to" (names ["done"])],
        .mapping [entry "name" (.text "done"), entry "terminal" (.bool true)]])]),
    entry "events" (.mapping [
      entry "namespace" (.text "workshop"),
      entry "definitions" (.list [event "ordered", event "paid", event "late", event "packed"])]),
    entry "agents" (.list [.mapping [
      entry "name" (.text "clerk"),
      entry "description" (.text ""),
      entry "triggers" (.list [.mapping [entry "event" (.text "ordered")]]),
      entry "emits" (.list [.mapping [entry "event" (.text "paid")]]),
      entry "contract" (.mapping [
        entry "state_in" (.text "open"),
        entry "state_out" (.text "done"),
        entry "context_in" (.mapping [entry "from_db" (.list [.mapping [
          entry "table" (.text "orders"), entry "as" (.text "order"), entry "must_have" (names ["id"])]])]),
        entry "output_schema" (.text "order")]),
      entry "config" (.mapping [entry "model" (.text "haiku")]),
      entry "limits" (.mapping [entry "max_tokens" (.int tokens)]),
      entry "validate_input" (.mapping [
        entry "exists" (.text "EXISTS orders WHERE id = {{ id }}"), entry "state" (.text "state = open")])]]),
    entry "functions" (.list [
      function "pack" "fan-in" [entry "primary" (.text "late"), entry "wait_for" (names ["packed"]),
        entry "correlation_key" (.text "id")] [
        entry "persist" (.list [
          .mapping [entry "action" (.text "update"), entry "table" (.text "orders"),
            entry "set" (.mapping [entry "owner" (.text "{{ id }}")]), entry "where" (.text "id = {{ id }}")],
          .mapping [entry "action" (.text "insert"), entry "table" (.text "orders"),
            entry "values" (.mapping [entry "id" (.text "{{ id }}")])],
          .mapping [entry "action" (.text "log"), entry "table" (.text "orders")],
          .mapping [entry "action" (.text "custom"), entry "ref" (.text "tell")]])],
      function "split" "routing" [entry "event" (.text "paid"), entry "route_on" (.text "id"),
        entry "routes" (.mapping [
          entry "late" (.mapping [entry "emit" (.text "late"), entry "then" (.text "packed")])])] [],
      function "sweep" "cron" [entry "cron" (.text "nightly"), entry "schedule" (.text "0 0 * * *")] [],
      function "receive" "inngest-first-webhook" [entry "webhook" (.text "bank")] [
        entry "emits" (names ["paid"])]]),
    entry "database" (.mapping [
      entry "actors" (.list [.mapping [entry "name" (.text "owner"), entry "identifier" (.text "auth.uid()")]]),
      entry "tables" (.list [.mapping [
        entry "name" (.text "orders"),
        entry "columns" (.list [
          .mapping [entry "name" (.text "id"), entry "type" (.text "text")],
          .mapping [entry "name" (.text "owner"), entry "type" (.text "text")]]),
        entry "access" (.list [.mapping [
          entry "actor" (.text "owner"),
          entry "operations" (names ["ALL"]),
          entry "condition" (.text condition)]])]])]),
    entry "crons" (.list [.mapping [
      entry "name" (.text "nightly"), entry "schedule" (.text "0 0 * * *"), entry "function" (.text "sweep")]]),
    entry "webhooks" (.list [
      webhook "door" "event" [entry "emits" (.text "ordered")],
      webhook "bank" "function" [entry "function" (.text "receive")]])]
where
  event (name : String) : Value := .mapping [
    entry "name" (.text name),
    entry "payload" (.mapping [entry "id" (.mapping [entry "type" (.text "string")])])]
  function (name pattern : String) (trigger rest : Members) : Value := .mapping ([
    entry "name" (.text name),
    entry "pattern" (.text pattern),
    entry "description" (.text ""),
    entry "trigger" (.mapping trigger)] ++ rest)
  webhook (name routing : String) (target : Members) : Value := .mapping ([
    entry "name" (.text name),
    entry "path" (.text ("/" ++ name)),
    entry "auth" (.text "none"),
    entry "routing" (.text routing)] ++ target)

theorem compile_closed_workshop : ∃ c p,
    compile .standard none none (Manifest.load (workshop "owner = :actor" 1000)) = .ok c ∧ c.plan = some p ∧
    Manifest.load (workshop "owner = :actor" 1000) = .ok p.manifest ∧ p.manifest.Distinct ∧ p.Indexes ∧
    p.manifest.Closed := by
  have hc : (compile .standard none none (Manifest.load (workshop "owner = :actor" 1000))).toOption.any
      (fun c => c.plan.isSome) = true := by
    decide +kernel
  obtain ⟨c, h, hp⟩ := any_toOption.mp hc
  obtain ⟨p, hp⟩ := Option.isSome_iff_exists.mp hp
  exact ⟨c, p, h, hp, compile_closed h hp⟩

end Workflow
