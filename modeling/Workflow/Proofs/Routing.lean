import Mathlib.Data.List.Sort
import Mathlib.Data.String.Basic
import Workflow.Proofs.Check.Codes
import Workflow.Proofs.Plan

/-!
# Which steps an event starts

The graph of a manifest leads from an event to exactly the steps that it starts, and to an event from exactly the steps and
webhooks that emit it, whatever names they share. So a plan lists exactly the steps that each event starts, and the events
that start none are exactly those that are reported.
-/

namespace Workflow

/-! ## Rules -/

/-- A step is started by an event: by any trigger of an agent, by the trigger of a function, and by each of the events that
a function waits for together. -/
inductive Step.StartsOn : Step → String → Prop
  | agent {a : Agent} {t : TriggerRef} : t ∈ a.triggers → StartsOn (.agent a) t.event
  | simple {f : Function} {t : TriggerRef} : f.trigger = .simple t → StartsOn (.function f) t.event
  | routing {f : Function} {t : RoutingTrigger} : f.trigger = .routing t → StartsOn (.function f) t.event
  | primary {f : Function} {t : FanInTrigger} : f.trigger = .fanIn t → StartsOn (.function f) t.primary
  | waitFor {f : Function} {t : FanInTrigger} {e : String} : f.trigger = .fanIn t → e ∈ t.waitFor → StartsOn (.function f) e

/-- A step may emit an event: an agent or a function as it says, and a function that routes also what its routes say. -/
inductive Step.MayEmit : Step → String → Prop
  | agent {a : Agent} {x : EmitSpec} : x ∈ a.emits → MayEmit (.agent a) x.event
  | function {f : Function} {e : String} : e ∈ f.emits → MayEmit (.function f) e
  | route {f : Function} {t : RoutingTrigger} {r : String × Route} : f.trigger = .routing t → r ∈ t.routes →
      MayEmit (.function f) r.2.emit
  | next {f : Function} {t : RoutingTrigger} {r : String × Route} {e : String} : f.trigger = .routing t → r ∈ t.routes →
      r.2.next = some e → MayEmit (.function f) e

def Webhook.Emits (w : Webhook) (e : String) : Prop := ∃ r, w.target = .event r ∧ r.emits = e

namespace Manifest

/-- An event starts a step of some name. -/
def Starts (m : Manifest) (e name : String) : Prop :=
  ∃ s ∈ m.agents.map Step.agent ++ m.functions.map Step.function, s.name = name ∧ s.StartsOn e

/-- An event is emitted under some name: by a step of that name, or by a webhook. -/
def EmittedBy (m : Manifest) (e name : String) : Prop :=
  (∃ s ∈ m.agents.map Step.agent ++ m.functions.map Step.function, s.name = name ∧ s.MayEmit e) ∨
    ∃ w ∈ m.webhooks, w.Emits e ∧ "webhook:" ++ w.name = name

def unconsumedDiagnostic (m : Manifest) (e : String) : Diagnostic where
  location := declarationPath definitionsPath m.events.names e
  kind := .crossReference
  code := "unconsumed_event"
  message := s!"no step is triggered by event '{e}'"
  severity := .info

end Manifest

section
variable {s : Step} {e : String}

theorem mem_triggerEvents : e ∈ s.triggerEvents ↔ s.StartsOn e := by
  constructor
  · intro h
    cases s with
    | agent a =>
      obtain ⟨t, ht, rfl⟩ := List.mem_map.mp h
      exact .agent ht
    | function f =>
      change e ∈ f.trigger.events at h
      cases ht : f.trigger with
      | simple t =>
        rw [ht, Trigger.events] at h
        exact List.mem_singleton.mp h ▸ .simple ht
      | fanIn t =>
        rw [ht, Trigger.events] at h
        rcases List.mem_cons.mp h with rfl | h
        · exact .primary ht
        · exact .waitFor ht h
      | cron t => simp [ht, Trigger.events] at h
      | routing t =>
        rw [ht, Trigger.events] at h
        exact List.mem_singleton.mp h ▸ .routing ht
      | webhook t => simp [ht, Trigger.events] at h
  · intro h
    cases h with
    | agent ht => exact List.mem_map_of_mem ht
    | simple ht => simp [Step.triggerEvents, Trigger.events, ht]
    | routing ht => simp [Step.triggerEvents, Trigger.events, ht]
    | primary ht => simp [Step.triggerEvents, Trigger.events, ht]
    | waitFor ht he => simp [Step.triggerEvents, Trigger.events, ht, he]

theorem mem_events_sites {r : String × Route} : e ∈ (Route.sites r).map EventSite.event ↔ r.2.emit = e ∨ r.2.next = some e := by
  cases hn : r.2.next with
  | none => simp [Route.sites, hn, eq_comm]
  | some n => simp [Route.sites, hn, eq_comm]

theorem mem_emitted : e ∈ s.emitted.map EventSite.event ↔ s.MayEmit e := by
  cases s with
  | agent a =>
    have hevents : (Step.agent a).emitted.map EventSite.event = a.emits.map EmitSpec.event := by
      simp [Step.emitted, Function.comp_def]
    rw [hevents, List.mem_map]
    constructor
    · rintro ⟨x, hx, rfl⟩
      exact .agent hx
    · rintro ⟨hx⟩
      exact ⟨_, hx, rfl⟩
  | function f =>
    have hevents : (Step.function f).emitted.map EventSite.event = f.emits ++ f.trigger.emitted.map EventSite.event := by
      simp [Step.emitted, Function.comp_def]
    rw [hevents, List.mem_append]
    constructor
    · rintro (he | he)
      · exact .function he
      · unfold Trigger.emitted at he
        split at he
        · rename_i t ht
          rw [List.map_flatMap, List.mem_flatMap] at he
          obtain ⟨r, hr, he⟩ := he
          rcases mem_events_sites.mp he with rfl | he
          · exact .route ht hr
          · exact .next ht hr he
        · cases he
    · intro h
      have hroute {t : RoutingTrigger} {r : String × Route} (ht : f.trigger = .routing t) (hr : r ∈ t.routes)
          (he : r.2.emit = e ∨ r.2.next = some e) : e ∈ f.trigger.emitted.map EventSite.event := by
        rw [ht, Trigger.emitted, List.map_flatMap, List.mem_flatMap]
        exact ⟨r, hr, mem_events_sites.mpr he⟩
      cases h with
      | function he => exact .inl he
      | route ht hr => exact .inr (hroute ht hr (.inl rfl))
      | next ht hr he => exact .inr (hroute ht hr (.inr he))

end

instance (s : Step) (e : String) : Decidable (s.StartsOn e) := decidable_of_iff _ mem_triggerEvents

instance (s : Step) (e : String) : Decidable (s.MayEmit e) := decidable_of_iff _ mem_emitted

instance (m : Manifest) (e name : String) : Decidable (m.Starts e name) :=
  inferInstanceAs (Decidable (∃ s ∈ m.agents.map Step.agent ++ m.functions.map Step.function, s.name = name ∧ s.StartsOn e))

namespace EventGraph

/-! ## Edges -/

section
variable {declared : List String} {s : Step} {w : Webhook} {m : Manifest} {x : EventNode × EventNode} {n : EventNode}
  {e name : String}

theorem mem_edges_addStepEvents : x ∈ (Manifest.addStepEvents declared empty s).edges ↔
    (∃ e ∈ declared, s.StartsOn e ∧ x = (.event e, .step s.name)) ∨
    ∃ e ∈ declared, s.MayEmit e ∧ x = (.step s.name, .event e) := by
  have hconsumer (g : EventGraph) (e : String) :
      x ∈ (g.addConsumer e s.name).edges ↔ x ∈ g.edges ∨ x = (.event e, .step s.name) := mem_insertOnce.trans or_comm
  have hproducer (g : EventGraph) (e : String) :
      x ∈ (g.addProducer s.name e).edges ↔ x ∈ g.edges ∨ x = (.step s.name, .event e) := mem_insertOnce.trans or_comm
  unfold Manifest.addStepEvents
  dsimp only
  rw [foldl_iff (P := fun g : EventGraph => x ∈ g.edges) hproducer, foldl_iff (P := fun g : EventGraph => x ∈ g.edges) hconsumer]
  have hnone : x ∉ (empty.addStep s.name).edges := List.not_mem_nil
  simp only [List.mem_filter, List.contains_iff_mem, mem_triggerEvents, mem_emitted, hnone, false_or, and_comm, and_assoc]

theorem mem_edges_addWebhookEvent : x ∈ (Manifest.addWebhookEvent declared empty w).edges ↔
    ∃ e ∈ declared, w.Emits e ∧ x = (.step ("webhook:" ++ w.name), .event e) := by
  unfold Manifest.addWebhookEvent Webhook.Emits
  split
  · rename_i r hr
    have hedge : x ∈ ((empty.addStep ("webhook:" ++ w.name)).addProducer ("webhook:" ++ w.name) r.emits).edges ↔
        x = (.step ("webhook:" ++ w.name), .event r.emits) := by
      simp [addStep, addNode, addProducer, addEdge, mem_insertOnce, empty]
    split
    · rename_i he
      rw [hedge]
      simp_all
    · rename_i he
      simp_all [empty]
  · rename_i r hr
    simp [hr, empty]

/-- Edges lead from declared events to the steps that these start, and to declared events from whatever emits them. -/
theorem mem_edges : x ∈ m.eventGraph.edges ↔ ∃ e ∈ m.events.names, ∃ name,
    m.Starts e name ∧ x = (.event e, .step name) ∨ m.EmittedBy e name ∧ x = (.step name, .event e) := by
  have h := has_eventGraph m (.edge x)
  simp only [Has, mem_edges_addStepEvents, mem_edges_addWebhookEvent, map_snd_steps] at h
  rw [h]
  constructor
  · rintro (⟨e, -, he⟩ | ⟨s, hs, ⟨e, he, hstart, rfl⟩ | ⟨e, he, hemit, rfl⟩⟩ | ⟨w, hw, e, he, hemit, rfl⟩)
    · cases he
    · exact ⟨e, he, s.name, .inl ⟨⟨s, hs, rfl, hstart⟩, rfl⟩⟩
    · exact ⟨e, he, s.name, .inr ⟨.inl ⟨s, hs, rfl, hemit⟩, rfl⟩⟩
    · exact ⟨e, he, _, .inr ⟨.inr ⟨w, hw, hemit, rfl⟩, rfl⟩⟩
  · rintro ⟨e, he, _, ⟨⟨s, hs, rfl, hstart⟩, rfl⟩ | ⟨⟨s, hs, rfl, hemit⟩ | ⟨w, hw, hemit, rfl⟩, rfl⟩⟩
    · exact .inr (.inl ⟨s, hs, .inl ⟨e, he, hstart, rfl⟩⟩)
    · exact .inr (.inl ⟨s, hs, .inr ⟨e, he, hemit, rfl⟩⟩)
    · exact .inr (.inr ⟨w, hw, e, he, hemit, rfl⟩)

/-! ## Entries -/

theorem has_addNode (g : EventGraph) (n : EventNode) : (g.addNode n).Has (.entry n) := by
  change n ∈ insertOnce n g.entries
  exact mem_insertOnce.mpr (.inl rfl)

theorem entry_event (he : e ∈ m.events.names) : .event e ∈ m.eventGraph.entries :=
  (has_eventGraph m (.entry (.event e))).mpr (.inl ⟨e, he, has_addNode empty (.event e)⟩)

theorem entry_step (hs : s ∈ m.agents.map Step.agent ++ m.functions.map Step.function) :
    .step s.name ∈ m.eventGraph.entries := by
  apply (has_eventGraph m (.entry (.step s.name))).mpr
  have hentries : (Manifest.addStepEvents m.events.names empty s).entries = (empty.addStep s.name).entries :=
    (foldl_fixed (f := entries) (by intros; rfl) _ _).trans (foldl_fixed (f := entries) (by intros; rfl) _ _)
  refine .inr (.inl ⟨s, map_snd_steps m ▸ hs, ?_⟩)
  rw [Has, hentries]
  exact has_addNode empty (.step s.name)

theorem entry_webhook (hw : w ∈ m.webhooks) (hemit : w.Emits e) (he : e ∈ m.events.names) :
    .step ("webhook:" ++ w.name) ∈ m.eventGraph.entries := by
  apply (has_eventGraph m (.entry (.step ("webhook:" ++ w.name)))).mpr
  obtain ⟨r, hr, rfl⟩ := hemit
  refine .inr (.inr ⟨w, hw, ?_⟩)
  unfold Manifest.addWebhookEvent
  rw [hr, Has]
  dsimp only
  rw [if_pos (by simpa using he)]
  exact has_addNode empty (.step ("webhook:" ++ w.name))

theorem entry_of_starts (h : m.Starts e name) : .step name ∈ m.eventGraph.entries := by
  obtain ⟨s, hs, rfl, -⟩ := h
  exact entry_step hs

theorem entry_of_emittedBy (h : m.EmittedBy e name) (he : e ∈ m.events.names) : .step name ∈ m.eventGraph.entries := by
  rcases h with ⟨s, hs, rfl, -⟩ | ⟨w, hw, hemit, rfl⟩
  · exact entry_step hs
  · exact entry_webhook hw hemit he

/-! ## What is asked of the graph -/

theorem names?_of_steps {g : EventGraph} {ns : List EventNode} {P : String → Prop} (hn : ns.Nodup)
    (hP : ∀ x, x ∈ ns ↔ ∃ name, P name ∧ x = .step name) (he : ∀ name, P name → .step name ∈ g.entries) :
    ∃ names, g.names? ns = some names ∧ names.SortedLT ∧ ∀ name, name ∈ names ↔ P name := by
  have hentries : ns.all g.entries.contains = true := by
    rw [List.all_eq_true]
    intro x hx
    obtain ⟨name, hname, rfl⟩ := (hP x).mp hx
    exact List.contains_iff_mem.mpr (he name hname)
  have hdistinct : (ns.map EventNode.name).Nodup := by
    apply (List.nodup_map_iff_inj_on hn).mpr
    intro x hx y hy hxy
    obtain ⟨_, -, rfl⟩ := (hP x).mp hx
    obtain ⟨_, -, rfl⟩ := (hP y).mp hy
    exact congrArg _ hxy
  refine ⟨(ns.map EventNode.name).mergeSort, by rw [names?, if_pos hentries], ?_, fun name => ?_⟩
  · exact List.sortedLE_mergeSort.sortedLT_of_nodup ((List.mergeSort_perm ..).nodup_iff.mpr hdistinct)
  · rw [List.mem_mergeSort, List.mem_map]
    constructor
    · rintro ⟨x, hx, rfl⟩
      obtain ⟨name, hname, rfl⟩ := (hP x).mp hx
      exact hname
    · intro hname
      exact ⟨.step name, (hP _).mpr ⟨name, hname, rfl⟩, rfl⟩

theorem nodup_ends {edges : List (EventNode × EventNode)} {kept other : EventNode × EventNode → EventNode}
    (hends : ∀ x y, kept x = kept y → other x = other y → x = y) (h : edges.Nodup) (n : EventNode) :
    ((edges.filter fun x => other x == n).map kept).Nodup := by
  apply (List.nodup_map_iff_inj_on (h.filter _)).mpr
  intro x hx y hy hxy
  have hx := beq_iff_eq.mp (List.mem_filter.mp hx).2
  have hy := beq_iff_eq.mp (List.mem_filter.mp hy).2
  exact hends x y hxy (hx.trans hy.symm)

theorem consumers?_eq (m : Manifest) (e : String) : ∃ names, m.eventGraph.consumers? e = some names ∧ names.SortedLT ∧
    ∀ name, name ∈ names ↔ e ∈ m.events.names ∧ m.Starts e name := by
  apply names?_of_steps (nodup_ends (fun _ _ htarget hsource => Prod.ext hsource htarget) (nodup_edges m) _)
  · intro n
    simp only [List.mem_map, List.mem_filter, beq_iff_eq, mem_edges]
    constructor
    · rintro ⟨x, ⟨⟨e, he, name, ⟨hstart, rfl⟩ | ⟨-, rfl⟩⟩, hx⟩, rfl⟩
      · cases hx
        exact ⟨name, ⟨he, hstart⟩, rfl⟩
      · cases hx
    · rintro ⟨name, ⟨he, hstart⟩, rfl⟩
      exact ⟨_, ⟨⟨e, he, name, .inl ⟨hstart, rfl⟩⟩, rfl⟩, rfl⟩
  · rintro name ⟨-, h⟩
    exact entry_of_starts h

theorem producers?_eq (m : Manifest) (e : String) : ∃ names, m.eventGraph.producers? e = some names ∧ names.SortedLT ∧
    ∀ name, name ∈ names ↔ e ∈ m.events.names ∧ m.EmittedBy e name := by
  apply names?_of_steps (nodup_ends (fun _ _ hsource htarget => Prod.ext hsource htarget) (nodup_edges m) _)
  · intro n
    simp only [List.mem_map, List.mem_filter, beq_iff_eq, mem_edges]
    constructor
    · rintro ⟨x, ⟨⟨e, he, name, ⟨-, rfl⟩ | ⟨hemit, rfl⟩⟩, hx⟩, rfl⟩
      · cases hx
      · cases hx
        exact ⟨name, ⟨he, hemit⟩, rfl⟩
    · rintro ⟨name, ⟨he, hemit⟩, rfl⟩
      exact ⟨_, ⟨⟨e, he, name, .inr ⟨hemit, rfl⟩⟩, rfl⟩, rfl⟩
  · rintro name ⟨he, h⟩
    exact entry_of_emittedBy h he

theorem mem_events : e ∈ m.eventGraph.events ↔ e ∈ m.events.names := by
  constructor
  · intro h
    exact (eventGraph_within m).events e (event_of_mem h)
  · intro h
    have hnode : .event e ∈ m.eventGraph.nodes := by
      refine (has_eventGraph m (.node (.event e))).mpr (.inl ⟨e, h, ?_⟩)
      change EventNode.event e ∈ insertOnce (.event e) empty.nodes
      exact mem_insertOnce.mpr (.inl rfl)
    apply List.mem_filterMap.mpr
    exact ⟨.event e, hnode, by simp [entry_event h]⟩

/-! ## The index of events -/

def started (m : Manifest) (e : String) : List String := (m.eventGraph.consumers? e).getD []

theorem started_spec (m : Manifest) (e : String) : m.eventGraph.consumers? e = some (started m e) ∧ (started m e).SortedLT ∧
    ∀ name, name ∈ started m e ↔ e ∈ m.events.names ∧ m.Starts e name := by
  obtain ⟨names, h, hsorted, hnames⟩ := consumers?_eq m e
  have hstarted : started m e = names := by rw [started, h, Option.getD_some]
  exact ⟨hstarted ▸ h, hstarted ▸ hsorted, hstarted ▸ hnames⟩

theorem started_ne_nil : started m e ≠ [] ↔ e ∈ m.events.names ∧ ∃ name, m.Starts e name := by
  constructor
  · intro h
    obtain ⟨name, hname⟩ := List.exists_mem_of_ne_nil _ h
    obtain ⟨he, hstart⟩ := ((started_spec m e).2.2 name).mp hname
    exact ⟨he, name, hstart⟩
  · rintro ⟨he, name, hstart⟩
    exact List.ne_nil_of_mem (((started_spec m e).2.2 name).mpr ⟨he, hstart⟩)

theorem consumersOf?_eq (m : Manifest) (events : List String) :
    m.eventGraph.consumersOf? events = some (events.map fun e => (e, started m e)) := by
  apply mapM_total
  intro e _
  rw [(started_spec m e).1, Option.map_some]

theorem triggers?_eq (m : Manifest) : m.eventGraph.triggers? =
    some ((m.eventGraph.events.mergeSort.filter fun e => !(started m e).isEmpty).map fun e => (e, started m e)) := by
  unfold triggers?
  rw [consumersOf?_eq, Option.map_some, List.filter_map]
  rfl

theorem unconsumed?_eq (m : Manifest) :
    m.eventGraph.unconsumed? = some (m.eventGraph.events.filter fun e => (started m e).isEmpty) := by
  unfold unconsumed?
  rw [consumersOf?_eq, Option.map_some, List.filter_map, List.map_map]
  exact congrArg some (List.map_id' _)

end

end EventGraph

/-! ## Plans -/

section
variable {settings : Settings} {custom : Option (List String)} {source : Option String}
  {loaded : Except (List Diagnostic) Manifest} {c : Compilation} {m : Manifest} {p : Plan} {ds : List Diagnostic}
  {e : String}

theorem get?_listed (names : List String) (f : String → List String) (h : e ∉ names → f e = []) :
    (Index.get? ((names.filter fun n => !(f n).isEmpty).map fun n => (n, f n)) e).getD [] = f e := by
  unfold Index.get?
  cases hfind : ((names.filter fun n => !(f n).isEmpty).map fun n => (n, f n)).find? fun entry => entry.1 == e with
  | none =>
    have hout := List.find?_eq_none.mp hfind
    by_cases hlisted : e ∈ names ∧ f e ≠ []
    · have hmem : (e, f e) ∈ (names.filter fun n => !(f n).isEmpty).map fun n => (n, f n) :=
        List.mem_map.mpr ⟨e, List.mem_filter.mpr ⟨hlisted.1, by simpa using hlisted.2⟩, rfl⟩
      exact absurd (beq_self_eq_true e) (hout _ hmem)
    · have hnil : f e = [] := by
        by_contra hne
        exact hlisted ⟨by_contra fun hn => hne (h hn), hne⟩
      exact hnil.symm
  | some entry =>
    obtain ⟨n, -, rfl⟩ := List.mem_map.mp (List.mem_of_find?_eq_some hfind)
    obtain rfl : n = e := by simpa using List.find?_some hfind
    rfl

theorem consumers_eq (ht : p.triggers = m.eventGraph.triggers?.getD []) (e : String) :
    p.consumers e = EventGraph.started m e := by
  unfold Plan.consumers
  rw [ht, EventGraph.triggers?_eq, Option.getD_some]
  apply get?_listed
  intro he
  by_contra hne
  exact he (List.mem_mergeSort.mpr (EventGraph.mem_events.mpr (EventGraph.started_ne_nil.mp hne).1))

theorem triggers_sorted (ht : p.triggers = m.eventGraph.triggers?.getD []) : p.triggers.names.SortedLT ∧
    ∀ e, e ∈ p.triggers.names ↔ e ∈ m.events.names ∧ ∃ name, m.Starts e name := by
  have hnames : p.triggers.names = m.eventGraph.events.mergeSort.filter fun e => !(EventGraph.started m e).isEmpty := by
    rw [ht, EventGraph.triggers?_eq, Option.getD_some, Index.names, List.map_map]
    exact List.map_id' _
  have hsorted : m.eventGraph.events.mergeSort.SortedLT :=
    List.sortedLE_mergeSort.sortedLT_of_nodup
      ((List.mergeSort_perm ..).nodup_iff.mpr (EventGraph.eventGraph_within m).nodup_events)
  rw [hnames]
  constructor
  · exact (hsorted.pairwise.filter _).sortedLT
  · intro e
    rw [List.mem_filter, List.mem_mergeSort, EventGraph.mem_events]
    constructor
    · rintro ⟨-, hne⟩
      exact EventGraph.started_ne_nil.mp (by simpa using hne)
    · intro h
      exact ⟨h.1, by simpa using EventGraph.started_ne_nil.mpr h⟩

theorem unconsumed_reported (hs : settings.reportUnconsumed = true) (hd : m.diagnose settings custom = .ok ds) :
    Reports ds unconsumedCode m.unconsumedDiagnostic fun e => e ∈ m.events.names ∧ ¬ ∃ name, m.Starts e name := by
  obtain ⟨-, rfl⟩ := Located.diagnostics_eq_ok.mp hd
  apply reports_of_coded (fun e => ⟨Manifest.declarationPath definitionsPath m.events.names e, .unconsumed e⟩)
    ((EventGraph.eventGraph_within m).nodup_events.filter fun e => (EventGraph.started m e).isEmpty)
  · intro e
    rw [List.mem_filter, EventGraph.mem_events]
    apply and_congr_right
    intro he
    rw [List.isEmpty_iff, ← not_iff_not, not_not]
    exact EventGraph.started_ne_nil.trans (and_iff_right he)
  · intro e
    rfl
  · unfold Manifest.findings
    rw [if_pos hs, coded_append, coded_of_other checkReferences_codes unconsumedCode_not_mem, coded_of_same checkUnconsumed_codes]
    unfold Manifest.checkUnconsumed
    rw [EventGraph.unconsumed?_eq]
    rfl

theorem declared_of_emittedBy {name : String} (hm : m.Closed) (h : m.EmittedBy e name) : e ∈ m.events.names := by
  rcases h with ⟨s, hs, -, hemit⟩ | ⟨w, hw, ⟨r, hr, rfl⟩, -⟩
  · rcases List.mem_append.mp hs with hs | hs
    · obtain ⟨a, ha, rfl⟩ := List.mem_map.mp hs
      cases hemit with
      | agent hx => exact (hm.agents a ha).emits _ hx
    · obtain ⟨f, hf, rfl⟩ := List.mem_map.mp hs
      have htrigger := (hm.functions f hf).trigger
      cases hemit with
      | function he => exact (hm.functions f hf).emits _ he
      | route ht hr =>
        rw [ht] at htrigger
        exact (htrigger.2 _ hr).1
      | next ht hr he =>
        rw [ht] at htrigger
        exact (htrigger.2 _ hr).2 _ he
  · have htarget := hm.webhooks w hw
    rw [hr] at htarget
    exact htarget

theorem declared_of_starts {name : String} (hm : m.Closed) (h : m.Starts e name) : e ∈ m.events.names := by
  obtain ⟨s, hs, -, hstart⟩ := h
  rcases List.mem_append.mp hs with hs | hs
  · obtain ⟨a, ha, rfl⟩ := List.mem_map.mp hs
    cases hstart with
    | agent ht => exact (hm.agents a ha).triggers _ ht
  · obtain ⟨f, hf, rfl⟩ := List.mem_map.mp hs
    have htrigger := (hm.functions f hf).trigger
    cases hstart with
    | simple ht =>
      rw [ht] at htrigger
      exact htrigger
    | routing ht =>
      rw [ht] at htrigger
      exact htrigger.1
    | primary ht =>
      rw [ht] at htrigger
      exact htrigger.1
    | waitFor ht he =>
      rw [ht] at htrigger
      exact htrigger.2 _ he

/-- **Events are routed as they are declared.** The plan of a manifest lists, for each event, exactly the steps that it
starts, and has an entry for exactly the declared events that start some step, both in ascending order; the other declared
events are reported, each once. The graph of the manifest lists exactly what emits each event. -/
theorem compile_routes (h : compile settings custom source loaded = .ok c) (hp : c.plan = some p) :
    (∀ e, (p.consumers e).SortedLT ∧ ∀ name, name ∈ p.consumers e ↔ p.manifest.Starts e name) ∧
    (p.triggers.names.SortedLT ∧
      ∀ e, e ∈ p.triggers.names ↔ e ∈ p.manifest.events.names ∧ ∃ name, p.manifest.Starts e name) ∧
    (settings.reportUnconsumed = true → Reports c.diagnostics "unconsumed_event" p.manifest.unconsumedDiagnostic fun e =>
      e ∈ p.manifest.events.names ∧ ¬ ∃ name, p.manifest.Starts e name) ∧
    ∀ e, ∃ names, p.manifest.eventGraph.producers? e = some names ∧ names.SortedLT ∧
      ∀ name, name ∈ names ↔ p.manifest.EmittedBy e name := by
  obtain ⟨m, -, hd, he, hplan⟩ := plan_of_compile h hp
  obtain ⟨rfl, -, -, -, -, -, -, -, -, ht⟩ := plan_contents hplan
  have hclosed := (sound_of_diagnose hd he).closed
  refine ⟨fun e => ?_, triggers_sorted ht, fun hs => unconsumed_reported hs hd, fun e => ?_⟩
  · obtain ⟨-, hsorted, hnames⟩ := EventGraph.started_spec p.manifest e
    rw [consumers_eq ht]
    exact ⟨hsorted, fun name => (hnames name).trans (and_iff_right_of_imp (declared_of_starts hclosed))⟩
  · obtain ⟨names, hproducers, hsorted, hnames⟩ := EventGraph.producers?_eq p.manifest e
    exact ⟨names, hproducers, hsorted, fun name => (hnames name).trans (and_iff_right_of_imp (declared_of_emittedBy hclosed))⟩

end

open Plan

/-- A document in which an event has the name of a step, and a step the name that a webhook emits under. -/
def namesakes : Value := .mapping [
  entry "product" (.mapping [
    entry "name" (.text "namesakes"), entry "description" (.text ""), entry "version" (.text "1")]),
  entry "state_machine" (.mapping [
    entry "initial" (.text "open"),
    entry "states" (.list [.mapping [entry "name" (.text "open"), entry "terminal" (.bool true)]])]),
  entry "events" (.mapping [
    entry "namespace" (.text "namesakes"),
    entry "definitions" (.list (["take", "ordered", "late", "idle"].map workshop.event))]),
  entry "functions" (.list [
    workshop.function "webhook:door" "fan-in" [entry "primary" (.text "take"), entry "wait_for" (names ["ordered", "ordered"]),
      entry "correlation_key" (.text "id")] [entry "emits" (names ["ordered"])],
    workshop.function "take" "simple" [entry "event" (.text "late")] [entry "emits" (names ["take"])]]),
  entry "webhooks" (.list [workshop.webhook "door" "event" [entry "emits" (.text "ordered")]])]

theorem compile_routes_namesakes : ∃ c p, compile .standard none none (Manifest.load namesakes) = .ok c ∧ c.plan = some p ∧
    Settings.standard.reportUnconsumed = true ∧ "webhook:door" ∈ p.consumers "ordered" ∧ (p.consumers "ordered").SortedLT ∧
    "idle" ∈ p.manifest.events.names ∧
    (∀ e, e ∈ p.triggers.names ↔ e ∈ p.manifest.events.names ∧ ∃ name, p.manifest.Starts e name) ∧
    (Reports c.diagnostics "unconsumed_event" p.manifest.unconsumedDiagnostic fun e =>
      e ∈ p.manifest.events.names ∧ ¬ ∃ name, p.manifest.Starts e name) ∧
    ∃ names, p.manifest.eventGraph.producers? "ordered" = some names ∧ names.SortedLT ∧ "webhook:door" ∈ names := by
  have hc : (compile .standard none none (Manifest.load namesakes)).toOption.any (fun c => c.plan.any fun p =>
      decide ("idle" ∈ p.manifest.events.names ∧ p.manifest.Starts "ordered" "webhook:door" ∧
        ∃ s ∈ p.manifest.functions.map Step.function, s.name = "webhook:door" ∧ s.MayEmit "ordered")) = true := by
    decide +kernel
  obtain ⟨c, h, hc⟩ := any_toOption.mp hc
  obtain ⟨p, hp, hc⟩ := (Option.any_eq_true ..).mp hc
  obtain ⟨hidle, hstart, s, hs, hname, hemit⟩ := of_decide_eq_true hc
  obtain ⟨hconsumers, htriggers, hunconsumed, hproducers⟩ := compile_routes h hp
  obtain ⟨hsorted, hconsumer⟩ := hconsumers "ordered"
  obtain ⟨names, hnames, hascending, hproducer⟩ := hproducers "ordered"
  have hemitted : p.manifest.EmittedBy "ordered" "webhook:door" := .inl ⟨s, List.mem_append.mpr (.inr hs), hname, hemit⟩
  exact ⟨c, p, h, hp, rfl, (hconsumer _).mpr hstart, hsorted, hidle, htriggers.2, hunconsumed rfl, names, hnames,
    hascending, (hproducer _).mpr hemitted⟩

end Workflow
