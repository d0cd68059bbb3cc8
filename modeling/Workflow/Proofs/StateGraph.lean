import Mathlib.Data.List.Nodup
import Mathlib.Data.List.Perm.Subperm
import Mathlib.Logic.Relation
import Mathlib.Tactic.Tauto
import Workflow.StateGraph

/-!
# The graph of states

The graph of a machine has each declared state once, and the transitions between declared states. A state is reached
from another if and only if transitions lead there: as many rounds as there are states leave nothing out.
-/

namespace Workflow

section
variable {α : Type} [BEq α] [LawfulBEq α] {a b : α} {as : List α}

theorem mem_insertOnce : b ∈ insertOnce a as ↔ b = a ∨ b ∈ as := by
  unfold insertOnce
  split
  · rename_i ha
    rw [List.contains_iff_mem] at ha
    refine ⟨.inr, ?_⟩
    rintro (rfl | hb)
    · exact ha
    · exact hb
  · simp [or_comm]

theorem nodup_insertOnce (h : as.Nodup) : (insertOnce a as).Nodup := by
  unfold insertOnce
  split
  · exact h
  · rename_i ha
    rw [List.contains_iff_mem] at ha
    exact (List.perm_append_singleton a as).nodup_iff.mpr (List.nodup_cons.mpr ⟨ha, h⟩)

end

section
variable {α β γ : Type} {add : α → β → α}

theorem foldl_iff {P : α → Prop} {Q : β → Prop} (h : ∀ a b, P (add a b) ↔ P a ∨ Q b) (a : α) (bs : List β) :
    P (bs.foldl add a) ↔ P a ∨ ∃ b ∈ bs, Q b := by
  induction bs generalizing a with
  | nil => simp
  | cons b bs ih => rw [List.foldl_cons, ih, h, List.exists_mem_cons_iff, or_assoc]

theorem foldl_fixed {f : α → γ} (h : ∀ a b, f (add a b) = f a) (a : α) (bs : List β) : f (bs.foldl add a) = f a := by
  induction bs generalizing a with
  | nil => rfl
  | cons b bs ih => rw [List.foldl_cons, ih, h]

end

namespace StateGraph

section
variable {g : StateGraph} {ss : List String} {s x : String} {n : Nat}

theorem mem_targets : x ∈ g.targets s ↔ (s, x) ∈ g.transitions := by
  simp [targets]

theorem mem_spread : x ∈ g.spread ss ↔ x ∈ ss ∨ ∃ s ∈ ss, (s, x) ∈ g.transitions := by
  unfold spread
  rw [foldl_iff (P := fun ss => x ∈ ss) (Q := fun s => x = s) fun ss s => mem_insertOnce.trans or_comm]
  simp [mem_targets]

/-! ## Reachability -/

def Closed (g : StateGraph) : Prop := ∀ t ∈ g.transitions, t.2 ∈ g.states

def Leads (g : StateGraph) (s t : String) : Prop := (s, t) ∈ g.transitions

theorem subset_spread : ss ⊆ g.spread ss := by
  intro x hx
  exact mem_spread.mpr (.inl hx)

theorem nodup_spread (h : ss.Nodup) : (g.spread ss).Nodup :=
  List.foldlRecOn (motive := List.Nodup) _ _ h fun _ hacc _ _ => nodup_insertOnce hacc

theorem spread_subset (hg : g.Closed) (h : ss ⊆ g.states) : g.spread ss ⊆ g.states := by
  intro x hx
  rcases mem_spread.mp hx with hx | ⟨s, hs, ht⟩
  · exact h hx
  · exact hg _ ht

theorem subset_within (n : Nat) (ss : List String) : ss ⊆ g.within n ss := by
  induction n generalizing ss with
  | zero => exact List.Subset.refl ss
  | succ n ih => exact List.Subset.trans subset_spread (ih (g.spread ss))

theorem leads_of_mem_within (h : x ∈ g.within n ss) : ∃ s ∈ ss, Relation.ReflTransGen g.Leads s x := by
  induction n generalizing ss with
  | zero => exact ⟨x, h, .refl⟩
  | succ n ih =>
    obtain ⟨s, hs, hx⟩ := ih h
    rcases mem_spread.mp hs with hs | ⟨r, hr, ht⟩
    · exact ⟨s, hs, hx⟩
    · exact ⟨r, hr, .head ht hx⟩

/-- A round adds a state, unless no transition leads out of the list. -/
theorem length_lt_spread (h : ss.Nodup) (hs : s ∈ ss) (ht : g.Leads s x) (hx : x ∉ ss) :
    ss.length < (g.spread ss).length := by
  have hmem : x ∈ g.spread ss := mem_spread.mpr (.inr ⟨s, hs, ht⟩)
  have hsub : (x :: ss) ⊆ g.spread ss := List.cons_subset.mpr ⟨hmem, subset_spread⟩
  exact ((List.nodup_cons.mpr ⟨hx, h⟩).subperm hsub).length_le

theorem mem_of_mem_within (h : ∀ s ∈ ss, ∀ t, g.Leads s t → t ∈ ss) (hx : x ∈ g.within n ss) : x ∈ ss := by
  obtain ⟨s, hs, hleads⟩ := leads_of_mem_within hx
  clear hx
  induction hleads with
  | refl => exact hs
  | tail _ ht ih => exact h _ ih _ ht

/-- With as many rounds as states are left, no transition leads out of the list. -/
theorem within_closed (hg : g.Closed) (hn : ss.Nodup) (hss : ss ⊆ g.states) (hlen : g.states.length ≤ n + ss.length) :
    ∀ s ∈ g.within n ss, ∀ t, g.Leads s t → t ∈ g.within n ss := by
  induction n generalizing ss with
  | zero =>
    have hall : g.states ⊆ ss := ((hn.subperm hss).perm_of_length_le (by omega)).symm.subset
    intro s _ t ht
    exact hall (hg _ ht)
  | succ n ih =>
    by_cases hout : ∃ s ∈ ss, ∃ t, g.Leads s t ∧ t ∉ ss
    · obtain ⟨s, hs, t, ht, hnew⟩ := hout
      have hlt := length_lt_spread hn hs ht hnew
      exact ih (nodup_spread hn) (spread_subset hg hss) (by omega)
    · have hin : ∀ s ∈ ss, ∀ t, g.Leads s t → t ∈ ss := by
        intro s hs t ht
        by_contra hnew
        exact hout ⟨s, hs, t, ht, hnew⟩
      intro s hs t ht
      exact subset_within _ _ (hin s (mem_of_mem_within hin hs) t ht)

theorem mem_reachableFrom (hg : g.Closed) (hs : s ∈ g.states) :
    x ∈ g.reachableFrom s ↔ Relation.ReflTransGen g.Leads s x := by
  unfold reachableFrom
  rw [if_pos (by simpa [hasState] using hs)]
  constructor
  · intro h
    obtain ⟨r, hr, hx⟩ := leads_of_mem_within h
    obtain rfl := List.mem_singleton.mp hr
    exact hx
  · intro h
    have hsub : [s] ⊆ g.states := List.forall_mem_singleton.mpr hs
    have hclosed := within_closed (n := g.states.length) hg (List.nodup_singleton s) hsub (by omega)
    induction h with
    | refl => exact subset_within _ _ (List.mem_singleton_self s)
    | tail _ ht ih => exact hclosed _ ih _ ht

end

end StateGraph

/-! ## Machines -/

namespace StateMachine

def edges (m : StateMachine) : List (String × String) :=
  m.states.flatMap fun s => (s.transitions.filter m.names.contains).map fun t => (s.name, t)

def declared (m : StateMachine) : StateGraph :=
  m.states.foldl (fun g s => g.addState s.name s.terminal) { StateGraph.empty with initial := some m.initial }

theorem graph_eq (m : StateMachine) : m.graph = m.edges.foldl (fun g e => g.addTransition e.1 e.2) m.declared := rfl

section
variable {m : StateMachine} {s : String} {t : String × String}

theorem mem_edges : t ∈ m.edges ↔ ∃ d ∈ m.states, t.1 = d.name ∧ t.2 ∈ d.transitions ∧ t.2 ∈ m.names := by
  obtain ⟨source, target⟩ := t
  simp only [edges, List.mem_flatMap, List.mem_map, List.mem_filter, List.contains_iff_mem, Prod.mk.injEq]
  constructor
  · rintro ⟨d, hd, _, ⟨ht, hn⟩, rfl, rfl⟩
    exact ⟨d, hd, rfl, ht, hn⟩
  · rintro ⟨d, hd, rfl, ht, hn⟩
    exact ⟨d, hd, target, ⟨ht, hn⟩, rfl, rfl⟩

theorem mem_declared_states : s ∈ m.declared.states ↔ s ∈ m.names := by
  have hadd (g : StateGraph) (d : StateDefinition) : s ∈ (g.addState d.name d.terminal).states ↔ s ∈ g.states ∨ s = d.name :=
    mem_insertOnce.trans or_comm
  rw [declared, foldl_iff (P := fun g : StateGraph => s ∈ g.states) hadd, names, List.mem_map]
  simp [StateGraph.empty, eq_comm]

theorem mem_graph_states : s ∈ m.graph.states ↔ s ∈ m.names := by
  have hadd (g : StateGraph) (e : String × String) :
      s ∈ (g.addTransition e.1 e.2).states ↔ s ∈ g.states ∨ s = e.1 ∨ s = e.2 := by
    rw [StateGraph.addTransition, mem_insertOnce, mem_insertOnce]
    tauto
  rw [graph_eq, foldl_iff (P := fun g : StateGraph => s ∈ g.states) hadd, mem_declared_states, or_iff_left_iff_imp]
  -- both ends of a transition are declared already
  rintro ⟨e, he, hs⟩
  obtain ⟨d, hd, hsource, -, htarget⟩ := mem_edges.mp he
  rcases hs with rfl | rfl
  · exact hsource ▸ List.mem_map_of_mem hd
  · exact htarget

theorem nodup_graph_states : m.graph.states.Nodup := by
  refine List.foldlRecOn (motive := fun g : StateGraph => g.states.Nodup) _ _ ?_ fun _ hg _ _ =>
    nodup_insertOnce (nodup_insertOnce hg)
  exact List.foldlRecOn (motive := fun g : StateGraph => g.states.Nodup) _ _ List.nodup_nil fun _ hg _ _ =>
    nodup_insertOnce hg

theorem mem_graph_transitions : t ∈ m.graph.transitions ↔ t ∈ m.edges := by
  have hadd (g : StateGraph) (e : String × String) :
      t ∈ (g.addTransition e.1 e.2).transitions ↔ t ∈ g.transitions ∨ t = e :=
    mem_insertOnce.trans or_comm
  have hdeclared : m.declared.transitions = [] := foldl_fixed (f := StateGraph.transitions) (by intros; rfl) _ _
  rw [graph_eq, foldl_iff (P := fun g : StateGraph => t ∈ g.transitions) hadd, hdeclared]
  simp

theorem mem_graph_terminal : s ∈ m.graph.terminal ↔ ∃ d ∈ m.states, d.terminal = true ∧ s = d.name := by
  have hadd (g : StateGraph) (d : StateDefinition) :
      s ∈ (g.addState d.name d.terminal).terminal ↔ s ∈ g.terminal ∨ d.terminal = true ∧ s = d.name := by
    unfold StateGraph.addState
    cases d.terminal with
    | false => simp
    | true => simp [mem_insertOnce, or_comm]
  have hgraph : m.graph.terminal = m.declared.terminal :=
    foldl_fixed (f := StateGraph.terminal) (by intros; rfl) _ _
  rw [hgraph, declared, foldl_iff (P := fun g : StateGraph => s ∈ g.terminal) hadd]
  simp [StateGraph.empty]

theorem graph_initial : m.graph.initial = some m.initial := by
  have hgraph : m.graph.initial = m.declared.initial :=
    foldl_fixed (f := StateGraph.initial) (by intros; rfl) _ _
  exact hgraph.trans (foldl_fixed (f := StateGraph.initial) (by intros; rfl) _ _)

end

end StateMachine

end Workflow
