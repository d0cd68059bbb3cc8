import Workflow.EventGraph
import Workflow.Proofs.StateGraph

/-!
# The graph of events

The graph of a manifest has each of its nodes once, and no events but the declared ones. So an event is listed at most
once among those that start steps. What each declaration brings to the graph does not depend on the others.
-/

namespace Workflow

namespace EventGraph

structure Within (declared : List String) (g : EventGraph) : Prop where
  nodup : g.nodes.Nodup
  events : ∀ e, .event e ∈ g.nodes → e ∈ declared

section
variable {declared : List String} {g : EventGraph} {n source target : EventNode}

theorem Within.addNode (hg : g.Within declared) (hn : ∀ e, n = .event e → e ∈ declared) :
    (g.addNode n).Within declared := by
  refine ⟨nodup_insertOnce hg.nodup, fun e he => ?_⟩
  rcases mem_insertOnce.mp he with he | he
  · exact hn e he.symm
  · exact hg.events e he

theorem Within.addEdge (hg : g.Within declared) (hs : ∀ e, source = .event e → e ∈ declared)
    (ht : ∀ e, target = .event e → e ∈ declared) : (g.addEdge source target).Within declared := by
  refine ⟨nodup_insertOnce (nodup_insertOnce hg.nodup), fun e he => ?_⟩
  rcases mem_insertOnce.mp he with he | he
  · exact ht e he.symm
  · rcases mem_insertOnce.mp he with he | he
    · exact hs e he.symm
    · exact hg.events e he

theorem Within.addStep {s : String} (hg : g.Within declared) : (g.addStep s).Within declared := hg.addNode nofun

theorem Within.addProducer {s e : String} (hg : g.Within declared) (he : e ∈ declared) :
    (g.addProducer s e).Within declared := hg.addEdge nofun (by rintro _ ⟨⟩; exact he)

theorem Within.addConsumer {s e : String} (hg : g.Within declared) (he : e ∈ declared) :
    (g.addConsumer e s).Within declared := hg.addEdge (by rintro _ ⟨⟩; exact he) nofun

theorem Within.foldl {α : Type} {add : EventGraph → α → EventGraph} {as : List α} (hg : g.Within declared)
    (h : ∀ g, g.Within declared → ∀ a ∈ as, (add g a).Within declared) : (as.foldl add g).Within declared := by
  induction as generalizing g with
  | nil => exact hg
  | cons a as ih => exact ih (h g hg a (by simp)) fun g hg b hb => h g hg b (by simp [hb])

theorem Within.addStepEvents {s : Step} (hg : g.Within declared) :
    (Manifest.addStepEvents declared g s).Within declared := by
  unfold Manifest.addStepEvents
  refine .foldl (.foldl hg.addStep fun g hg e he => hg.addConsumer ?_) fun g hg e he => hg.addProducer ?_
  · simpa using (List.mem_filter.mp he).2
  · simpa using (List.mem_filter.mp he).2

theorem Within.addWebhookEvent {w : Webhook} (hg : g.Within declared) :
    (Manifest.addWebhookEvent declared g w).Within declared := by
  unfold Manifest.addWebhookEvent
  split
  · split
    · rename_i he
      exact hg.addStep.addProducer (by simpa using he)
    · exact hg
  · exact hg

theorem eventGraph_within (m : Manifest) : m.eventGraph.Within m.events.names := by
  have hempty : EventGraph.empty.Within m.events.names := ⟨by simp [empty], by simp [empty]⟩
  have hevents : (m.events.names.foldl addEvent empty).Within m.events.names :=
    hempty.foldl fun g hg e he => hg.addNode (by rintro _ ⟨⟩; exact he)
  have hsteps : ((m.steps.map Prod.snd).foldl (Manifest.addStepEvents m.events.names)
      (m.events.names.foldl addEvent empty)).Within m.events.names :=
    hevents.foldl fun g hg s _ => hg.addStepEvents
  exact hsteps.foldl fun g hg w _ => hg.addWebhookEvent

/-! ## Events -/

theorem event_of_mem {name : String} (h : name ∈ g.events) : .event name ∈ g.nodes := by
  obtain ⟨n, hn, he⟩ := List.mem_filterMap.mp h
  cases n with
  | event e =>
    simp only [Option.ite_none_right_eq_some, Option.some.injEq] at he
    exact he.2 ▸ hn
  | step s => cases he

theorem Within.nodup_events (hg : g.Within declared) : g.events.Nodup := by
  unfold EventGraph.events
  refine List.Nodup.filterMap (fun n n' name hn hn' => ?_) hg.nodup
  cases n <;> cases n' <;> simp_all

theorem consumersOf?_names {events : List String} {index : List (String × List String)}
    (h : g.consumersOf? events = some index) : index.map Prod.fst = events := by
  unfold consumersOf? at h
  induction events generalizing index with
  | nil =>
    cases h
    rfl
  | cons e events ih =>
    rw [List.mapM_cons] at h
    simp only [Option.bind_eq_bind, Option.bind_eq_some_iff, Option.map_eq_some_iff] at h
    obtain ⟨_, ⟨ss, -, rfl⟩, index, hi, he⟩ := h
    cases he
    rw [List.map_cons, ih hi]

theorem Within.nodup_triggers {index : List (String × List String)} (hg : g.Within declared)
    (h : g.triggers? = some index) : (index.map Prod.fst).Nodup ∧ ∀ e ∈ index.map Prod.fst, e ∈ declared := by
  obtain ⟨all, ha, rfl⟩ := Option.map_eq_some_iff.mp h
  have hnames := consumersOf?_names ha
  -- of the sorted events only those that start something are listed
  have hsub : ((all.filter fun e => !e.2.isEmpty).map Prod.fst).Sublist (all.map Prod.fst) :=
    (List.filter_sublist ..).map _
  rw [hnames] at hsub
  refine ⟨hsub.nodup ((List.mergeSort_perm ..).nodup_iff.mpr hg.nodup_events), fun e he => ?_⟩
  exact hg.events e (event_of_mem (List.mem_mergeSort.mp (hsub.subset he)))

end

/-! ## Parts -/

inductive Part where
  | node (n : EventNode)
  | entry (n : EventNode)
  | edge (e : EventNode × EventNode)

def Has (g : EventGraph) : Part → Prop
  | .node n => n ∈ g.nodes
  | .entry n => n ∈ g.entries
  | .edge e => e ∈ g.edges

/-- A step of building a graph: what it adds does not depend on what is there. -/
def Additive (add : EventGraph → EventGraph) : Prop := ∀ g x, (add g).Has x ↔ g.Has x ∨ (add empty).Has x

section
variable {β : Type} {f h : EventGraph → EventGraph} {add : EventGraph → β → EventGraph} {g g' : EventGraph} {x : Part}

theorem not_has_empty : ¬ empty.Has x := by
  cases x <;> simp [Has, empty]

theorem additive_id : Additive fun g => g := by
  intro g x
  simp [not_has_empty]

theorem additive_addNode (n : EventNode) : Additive fun g => g.addNode n := by
  intro g x
  cases x <;> simp [Has, EventGraph.addNode, mem_insertOnce, empty, or_comm]

theorem additive_addEdge (source target : EventNode) : Additive fun g => g.addEdge source target := by
  intro g x
  cases x with
  | node n =>
    simp only [Has, EventGraph.addEdge, mem_insertOnce, empty, List.not_mem_nil, or_false]
    tauto
  | entry n => simp [Has, EventGraph.addEdge, empty]
  | edge e => simp [Has, EventGraph.addEdge, mem_insertOnce, empty, or_comm]

theorem Additive.comp (hf : Additive f) (hh : Additive h) : Additive fun g => h (f g) := by
  intro g x
  rw [hh (f g), hh (f empty), hf g, or_assoc]

theorem Additive.foldl (ha : ∀ b, Additive fun g => add g b) (bs : List β) : Additive fun g => bs.foldl add g := by
  induction bs with
  | nil => exact additive_id
  | cons b bs ih => exact (ha b).comp ih

theorem additive_addStepEvents (declared : List String) (s : Step) :
    Additive fun g => Manifest.addStepEvents declared g s := by
  have hconsumed := (additive_addNode (.step s.name)).comp
    (.foldl (fun e => additive_addEdge (.event e) (.step s.name)) (s.triggerEvents.filter declared.contains))
  exact hconsumed.comp (.foldl (fun e => additive_addEdge (.step s.name) (.event e)) _)

theorem additive_addWebhookEvent (declared : List String) (w : Webhook) :
    Additive fun g => Manifest.addWebhookEvent declared g w := by
  unfold Manifest.addWebhookEvent
  split
  · split
    · exact (additive_addNode _).comp (additive_addEdge _ _)
    · exact additive_id
  · exact additive_id

end

theorem nodup_edges (m : Manifest) : m.eventGraph.edges.Nodup := by
  have hevents : (m.events.names.foldl addEvent empty).edges.Nodup :=
    List.foldlRecOn (motive := fun g : EventGraph => g.edges.Nodup) _ _ List.nodup_nil fun _ hg _ _ => hg
  refine List.foldlRecOn (motive := fun g : EventGraph => g.edges.Nodup) _ _ ?_ fun g hg w _ => ?_
  · refine List.foldlRecOn (motive := fun g : EventGraph => g.edges.Nodup) _ _ hevents fun g hg s _ => ?_
    unfold Manifest.addStepEvents
    refine List.foldlRecOn (motive := fun g : EventGraph => g.edges.Nodup) _ _ ?_ fun _ hg _ _ => nodup_insertOnce hg
    exact List.foldlRecOn (motive := fun g : EventGraph => g.edges.Nodup) _ _ hg fun _ hg _ _ => nodup_insertOnce hg
  · unfold Manifest.addWebhookEvent
    split
    · split
      · exact nodup_insertOnce hg
      · exact hg
    · exact hg

theorem has_eventGraph (m : Manifest) (x : Part) : m.eventGraph.Has x ↔
    (∃ e ∈ m.events.names, (addEvent empty e).Has x) ∨
    (∃ s ∈ m.steps.map Prod.snd, (Manifest.addStepEvents m.events.names empty s).Has x) ∨
    ∃ w ∈ m.webhooks, (Manifest.addWebhookEvent m.events.names empty w).Has x := by
  have hevents : (m.events.names.foldl addEvent empty).Has x ↔
      empty.Has x ∨ ∃ e ∈ m.events.names, (addEvent empty e).Has x :=
    foldl_iff (P := fun g => g.Has x) (fun g e => additive_addNode (.event e) g x) _ _
  unfold Manifest.eventGraph
  rw [foldl_iff (P := fun g => g.Has x) fun g w => additive_addWebhookEvent m.events.names w g x,
    foldl_iff (P := fun g => g.Has x) fun g s => additive_addStepEvents m.events.names s g x, hevents,
    or_iff_right not_has_empty, or_assoc]

end EventGraph

end Workflow
