import Workflow.Host
import Workflow.Proofs.Except
import Workflow.Proofs.Index

/-!
# Tables of a store

Tables that were created without a failure are there in the store, with the columns that were declared. Whatever a store
is asked, it keeps its tables; so a request for one of them and for columns of it is never refused for want of a name.
-/

namespace Workflow

def TableShape.columnNames (t : TableShape) : List String := t.columns.map ColumnShape.name

namespace Store

/-- A store has the tables that another one had, with the same columns and any rows, and still knows their shapes. -/
structure Precedes (s s' : Store) : Prop where
  known : s.known <+: s'.known
  shapes : s'.tables.map StoredTable.shape = s.tables.map StoredTable.shape

structure Has (s : Store) (t : TableShape) : Prop where
  known : s.known.find? (fun k => k.name == t.name) = some t
  stored : (s.table? t.name).map StoredTable.shape = some t

/-! ## Tables are kept -/

section
variable {s s' s'' : Store} {t : TableShape} {name : String}

theorem Precedes.refl (s : Store) : s.Precedes s := ⟨List.prefix_refl _, rfl⟩

theorem Precedes.trans (h : s.Precedes s') (h' : s'.Precedes s'') : s.Precedes s'' :=
  ⟨h.known.trans h'.known, h'.shapes.trans h.shapes⟩

theorem Has.precedes (h : s.Has t) (hp : s.Precedes s') : s'.Has t := by
  constructor
  · obtain ⟨more, hk⟩ := hp.known
    rw [← hk, List.find?_append, h.known]
    rfl
  · have hs := h.stored
    unfold table? at hs ⊢
    rw [← Function.comp_def (fun k : TableShape => sameName k.name t.name), ← List.find?_map] at hs ⊢
    rwa [hp.shapes]

theorem precedes_learn (s : Store) (name : String) : s.Precedes (s.learn name) := by
  unfold learn
  split
  · exact .refl s
  · exact ⟨List.prefix_append _ _, rfl⟩

theorem precedes_withRows (s : Store) (name : String) (rows : List (List Cell)) : s.Precedes (s.withRows name rows) := by
  refine ⟨List.prefix_refl _, ?_⟩
  simp only [withRows, List.map_map]
  apply List.map_congr_left
  intro x _
  simp only [Function.comp]
  split <;> rfl

theorem precedes_insert {row : Row} (h : s.insert name row = .ok s') : s.Precedes s' := by
  simp only [insert, bind_eq_ok] at h
  obtain ⟨_, -, _, -, _, -, _, -, _, -, _, -, h⟩ := h
  split at h
  · cases h
    exact precedes_withRows ..
  · cases h

theorem precedes_update {row : Row} {clause : Option String} {n : Nat} (h : s.update name row clause = .ok (n, s')) :
    s.Precedes s' := by
  simp only [update, bind_eq_ok] at h
  obtain ⟨_, -, _, -, _, -, _, -, _, -, _, -, h⟩ := h
  split at h
  · cases h
  simp only [bind_eq_ok] at h
  obtain ⟨_, -, _, -, _, -, h⟩ := h
  split at h
  · cases h
    exact precedes_withRows ..
  · cases h

theorem precedes_add {row : Row} : s.Precedes (s.add name row).2 := by
  have hl := precedes_learn s name
  unfold add
  dsimp only
  split
  · rename_i h
    exact hl.trans (precedes_insert h)
  · exact hl

theorem precedes_change {row : Row} {clause : Option String} : s.Precedes (s.change name row clause).2 := by
  have hl := precedes_learn s name
  unfold change
  dsimp only
  split
  · rename_i h
    exact hl.trans (precedes_update h)
  · exact hl

theorem precedes_answer {r : Request} {a : Except Failure r.Reply × Store} (h : s.answer? r = some a) : s.Precedes a.2 := by
  cases r with
  | count q =>
    cases h
    exact precedes_learn s q.table
  | update table values clause =>
    cases h
    exact precedes_change
  | insert table values =>
    cases h
    exact precedes_add
  | log table values =>
    cases h
    exact precedes_add
  | artifact path => cases h
  | body payload => cases h
  | custom ref context => cases h

end

/-! ## Tables are created -/

section
variable {s s' : Store} {t : TableShape} {ts : List TableShape}

theorem declare_known (hn : ((s.known ++ ts).map TableShape.name).Nodup) (h : s.declare ts = (s', true)) :
    s' = { s with known := s.known ++ ts } := by
  induction ts generalizing s with
  | nil =>
    cases h
    simp
  | cons t ts ih =>
    have hnew : (s.known.any fun k => k.name == t.name) = false := by
      rw [List.map_append, List.nodup_append] at hn
      simp only [List.any_eq_false, beq_iff_eq]
      intro k hk
      exact hn.2.2 k.name (List.mem_map_of_mem hk) t.name (by simp)
    simp only [declare, hnew, Bool.false_eq_true, if_false] at h
    split at h
    · cases h
    · have := ih (by simpa using hn) h
      simpa using this

theorem table?_append {name : String} {x : StoredTable} {xs : List StoredTable} (h : s.table? name = some x) :
    { s with tables := s.tables ++ xs }.table? name = some x := by
  unfold table? at h ⊢
  rw [List.find?_append, h]
  rfl

theorem create_stored (h : s.create ts = (s', true)) :
    s'.known = s.known ∧ (∀ name x, s.table? name = some x → s'.table? name = some x) ∧
      ∀ t ∈ ts, s'.table? t.name = some ⟨t, []⟩ := by
  induction ts generalizing s with
  | nil =>
    cases h
    simp
  | cons t ts ih =>
    unfold create at h
    split at h
    · rename_i hsound
      obtain ⟨hk, hold, hnew⟩ := ih h
      have hfree : s.table? t.name = none := by simpa using (Bool.and_eq_true_iff.mp hsound).2
      refine ⟨hk, fun name x hx => hold name x (table?_append hx), List.forall_mem_cons.mpr ⟨?_, hnew⟩⟩
      apply hold
      unfold table? at hfree ⊢
      rw [List.find?_append, hfree]
      simp [sameName]
    · cases h

theorem has_of_createTables {tables : List Table} {names : List String}
    (hn : ((tables.filterMap Table.shape?).map TableShape.name).Nodup)
    (h : empty.createTables tables = (s, .ok names)) : ∀ t ∈ tables.filterMap Table.shape?, s.Has t := by
  simp only [createTables] at h
  split at h
  · cases h
  · rename_i s₁ hd
    obtain rfl := declare_known (by simpa [empty] using hn) hd
    split at h
    · cases h
    · rename_i s₂ hc
      cases h
      obtain ⟨hk, -, hnew⟩ := create_stored hc
      intro t ht
      constructor
      · rw [hk]
        exact (find?_keyed (by simpa [empty] using hn)).mpr ⟨by simpa [empty] using ht, rfl⟩
      · rw [hnew t (by simpa [table?, empty] using ht)]
        rfl

end

end Store

end Workflow
