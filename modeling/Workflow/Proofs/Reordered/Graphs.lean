import Mathlib.Data.List.Sort
import Mathlib.Data.String.Basic
import Workflow.Proofs.Reordered.Lookups

/-!
# Graphs of reordered declarations

A graph lists its nodes in the order in which they came up. Which nodes and edges it has does not depend on that order,
and neither does what is asked of it: which states lead nowhere or are not reached, and which steps an event starts.
-/

namespace Workflow

theorem exists_mem_perm {α : Type} {as as' : List α} {P : α → Prop} (h : as'.Perm as) :
    (∃ a ∈ as', P a) ↔ ∃ a ∈ as, P a := by
  simp only [h.mem_iff]

/-! ## States -/

namespace StateGraph

structure Alike (g g' : StateGraph) : Prop where
  states : g'.states.Perm g.states
  transitions : ∀ t, t ∈ g'.transitions ↔ t ∈ g.transitions
  terminal : ∀ s, s ∈ g'.terminal ↔ s ∈ g.terminal
  initial : g'.initial = g.initial

section
variable {g g' : StateGraph} {ss ss' : List String} {s x : String}

theorem Alike.mem_spread (h : g.Alike g') (hs : ∀ x, x ∈ ss' ↔ x ∈ ss) (x : String) :
    x ∈ g'.spread ss' ↔ x ∈ g.spread ss := by
  simp only [StateGraph.mem_spread, hs, h.transitions]

theorem Alike.mem_within (h : g.Alike g') (n : Nat) (hs : ∀ x, x ∈ ss' ↔ x ∈ ss) (x : String) :
    x ∈ g'.within n ss' ↔ x ∈ g.within n ss := by
  induction n generalizing ss ss' with
  | zero => exact hs x
  | succ n ih => exact ih (h.mem_spread hs)

theorem Alike.hasState (h : g.Alike g') (s : String) : g'.hasState s = g.hasState s := contains_perm h.states s

theorem Alike.mem_reachableFrom (h : g.Alike g') (s x : String) : x ∈ g'.reachableFrom s ↔ x ∈ g.reachableFrom s := by
  unfold reachableFrom
  rw [h.hasState, h.states.length_eq]
  split
  · exact h.mem_within _ (fun _ => Iff.rfl) x
  · exact Iff.rfl

theorem Alike.unreachable (h : g.Alike g') : g'.unreachable.Perm g.unreachable := by
  unfold StateGraph.unreachable
  rw [h.initial]
  cases g.initial with
  | none => exact .nil
  | some i =>
    simp only [h.hasState]
    split
    · have hreached : ∀ s, (!(g'.reachableFrom i).contains s) = !(g.reachableFrom i).contains s := fun s => by
        rw [Bool.eq_iff_iff]
        simp [h.mem_reachableFrom]
      simp only [hreached]
      exact h.states.filter _
    · exact .nil

theorem Alike.deadEnds (h : g.Alike g') : g'.deadEnds.Perm g.deadEnds := by
  have htargets : ∀ s, (g'.targets s).isEmpty = (g.targets s).isEmpty := fun s => by
    rw [Bool.eq_iff_iff]
    simp only [List.isEmpty_iff, List.eq_nil_iff_forall_not_mem, mem_targets, h.transitions]
  have hterminal : ∀ s, g'.terminal.contains s = g.terminal.contains s := fun s => by
    rw [Bool.eq_iff_iff]
    simp [h.terminal]
  unfold StateGraph.deadEnds
  simp only [htargets, hterminal]
  exact h.states.filter _

end

end StateGraph

namespace StateMachine

section
variable {m m' : StateMachine}

/-- The graph of a machine does not depend on the order of its states. -/
theorem graph_alike (hi : m'.initial = m.initial) (hs : m'.states.Perm m.states) : m.graph.Alike m'.graph := by
  have hnames : ∀ s, s ∈ m'.names ↔ s ∈ m.names := fun s => (hs.map _).mem_iff
  refine ⟨?_, fun t => ?_, fun s => ?_, ?_⟩
  · refine (List.perm_ext_iff_of_nodup nodup_graph_states nodup_graph_states).mpr fun s => ?_
    rw [mem_graph_states, mem_graph_states, hnames]
  · rw [mem_graph_transitions, mem_graph_transitions, mem_edges, mem_edges, exists_mem_perm hs, hnames]
  · rw [mem_graph_terminal, mem_graph_terminal, exists_mem_perm hs]
  · rw [graph_initial, graph_initial, hi]

end

end StateMachine

/-! ## Events -/

namespace EventGraph

structure Alike (g g' : EventGraph) : Prop where
  nodes : g'.nodes.Perm g.nodes
  entries : ∀ n, n ∈ g'.entries ↔ n ∈ g.entries
  edges : g'.edges.Perm g.edges

section
variable {g g' : EventGraph}

theorem alike_of_has (hn : g.nodes.Nodup) (hn' : g'.nodes.Nodup) (he : g.edges.Nodup) (he' : g'.edges.Nodup)
    (hx : ∀ x, g'.Has x ↔ g.Has x) : g.Alike g' where
  nodes := (List.perm_ext_iff_of_nodup hn' hn).mpr fun n => hx (.node n)
  entries := fun n => hx (.entry n)
  edges := (List.perm_ext_iff_of_nodup he' he).mpr fun e => hx (.edge e)

end

/-! ### What is asked of a graph -/

theorem mergeSort_perm_eq {ss ss' : List String} (h : ss'.Perm ss) : ss'.mergeSort = ss.mergeSort :=
  List.Perm.eq_of_sortedLE List.sortedLE_mergeSort List.sortedLE_mergeSort
    ((List.mergeSort_perm ..).trans (h.trans (List.mergeSort_perm ..).symm))

section
variable {g g' : EventGraph}

theorem Alike.entry (h : g.Alike g') (n : EventNode) : g'.entries.contains n = g.entries.contains n := by
  rw [Bool.eq_iff_iff]
  simp [h.entries]

theorem Alike.names? (h : g.Alike g') {ns ns' : List EventNode} (hn : ns'.Perm ns) : g'.names? ns' = g.names? ns := by
  unfold EventGraph.names?
  have hall : ns'.all g'.entries.contains = ns.all g.entries.contains := by
    rw [hn.all_eq, funext h.entry]
  rw [hall, mergeSort_perm_eq (hn.map _)]

theorem Alike.consumers? (h : g.Alike g') (e : String) : g'.consumers? e = g.consumers? e :=
  h.names? ((h.edges.filter _).map _)

theorem Alike.events (h : g.Alike g') : g'.events.Perm g.events := by
  unfold EventGraph.events
  simp only [h.entry]
  exact h.nodes.filterMap _

theorem Alike.triggers? (h : g.Alike g') : g'.triggers? = g.triggers? := by
  unfold EventGraph.triggers? consumersOf?
  rw [mergeSort_perm_eq h.events]
  simp only [h.consumers?]

end

/-! ### The graph of a manifest -/

/-- The graph of a manifest does not depend on the order of its declarations. -/
theorem eventGraph_alike {m m' : Manifest} (h : m.Reordered m') : m.eventGraph.Alike m'.eventGraph := by
  have hnames : m'.events.names.Perm m.events.names := h.events.map _
  have hdeclared : m'.events.names.contains = m.events.names.contains := funext (contains_perm hnames)
  refine alike_of_has (eventGraph_within m).nodup (eventGraph_within m').nodup (nodup_edges m) (nodup_edges m') fun x => ?_
  have hstep : Manifest.addStepEvents m'.events.names = Manifest.addStepEvents m.events.names := by
    unfold Manifest.addStepEvents
    rw [hdeclared]
  have hwebhook : Manifest.addWebhookEvent m'.events.names = Manifest.addWebhookEvent m.events.names := by
    unfold Manifest.addWebhookEvent
    rw [hdeclared]
  rw [has_eventGraph, has_eventGraph, exists_mem_perm hnames, exists_mem_perm h.steps, exists_mem_perm h.webhooks, hstep,
    hwebhook]

end EventGraph

end Workflow
