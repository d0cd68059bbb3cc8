import Workflow.Predicate.Render
import Workflow.Proofs.Store.Tables

/-!
# Requests that a store refuses

A request for a table that the store has, and for columns of this table, can still be refused: for its clause, for a value
that does not fit, for a value that is missing. It is not refused because a name is not there.
-/

namespace Workflow

/-- A store refuses a request because it does not find a table or a column, or because the database does not. A database
also refuses an update that sets nothing. -/
def Request.Misses (r : Request) : StoreFault → Prop
  | .noTable => True
  | .clauseColumn _ => True
  | .unknownColumn => True
  | .statement => ∀ table clause, r ≠ .update table [] clause
  | _ => False

/-- A request writes to a table, and to columns of it. What can be read of its clause is about columns of it too. -/
inductive Request.WritesOn (t : TableShape) : Request → Prop
  | update {values : Row} {clause : Option String} : (∀ e ∈ values, e.1 ∈ t.columnNames) →
      (∀ text, clause = some text → ∀ bs, readClause text = .ok bs → ∀ b ∈ bs, b.column ∈ t.columnNames) →
      WritesOn t (.update t.name values clause)
  | insert {values : Row} : (∀ e ∈ values, e.1 ∈ t.columnNames) → WritesOn t (.insert t.name values)
  | log {values : Row} : (∀ e ∈ values, e.1 ∈ t.columnNames) → WritesOn t (.log t.name values)

namespace Store

section
variable {s : Store} {t : TableShape} {r : Request} {row : Row} {bs : List BoundCondition}

/-! ## What is found -/

theorem Has.shape (h : s.Has t) : s.shape t.name = .ok t := by simp [Store.shape, shape?, h.known]

theorem Has.target (h : s.Has t) : ∃ x, s.target t.name = .ok x ∧ x.shape = t := by
  have hs := h.stored
  unfold Store.target
  cases hx : s.table? t.name with
  | none => simp [hx] at hs
  | some x => exact ⟨x, rfl, by simpa [hx] using hs⟩

theorem position?_isSome {x : StoredTable} {name : String} (h : name ∈ x.shape.columnNames) : (x.position? name).isSome := by
  obtain ⟨c, hc, rfl⟩ := List.mem_map.mp h
  rw [StoredTable.position?, List.findIdx?_isSome, List.any_eq_true]
  exact ⟨c, hc, by simp [sameName]⟩

theorem positions_of_columns {x : StoredTable} {names : List String} {place : String → Nat}
    (h : ∀ name ∈ names, x.position? name = some (place name)) : x.positions names = .ok (names.map place) := by
  rw [StoredTable.positions, mapM_total h]

theorem positions_of_names {x : StoredTable} {names : List String} (h : ∀ name ∈ names, name ∈ x.shape.columnNames) :
    x.positions names = .ok (names.map fun name => (x.position? name).getD 0) := by
  refine positions_of_columns fun name hname => ?_
  obtain ⟨n, hn⟩ := Option.isSome_iff_exists.mp (position?_isSome (h name hname))
  rw [hn, Option.getD_some]

theorem positions_eq_ok {x : StoredTable} {names : List String} (h : ∀ name ∈ names, name ∈ x.shape.columnNames) :
    ∃ places, x.positions names = .ok places := ⟨_, positions_of_names h⟩

theorem column?_isSome {name : String} (h : name ∈ t.columnNames) : (t.column? name).isSome := by
  obtain ⟨c, hc, rfl⟩ := List.mem_map.mp h
  rw [TableShape.column?, List.find?_isSome]
  exact ⟨c, hc, by simp⟩

theorem arrange_eq_ok (h : ∀ e ∈ row, e.1 ∈ t.columnNames) : ∃ values, arrange t row = .ok values ∧
    (∀ v ∈ values, v.1.name ∈ t.columnNames) ∧ (values = [] → row = []) := by
  refine ⟨t.columns.filterMap fun c => (row.lookup c.name).map fun v => (c, v), ?_, ?_, ?_⟩
  · rw [arrange, if_pos (List.all_eq_true.mpr fun e he => column?_isSome (h e he))]
  · intro v hv
    obtain ⟨c, hc, hcv⟩ := List.mem_filterMap.mp hv
    obtain ⟨_, -, rfl⟩ := Option.map_eq_some_iff.mp hcv
    exact List.mem_map_of_mem hc
  · intro hv
    cases row with
    | nil => rfl
    | cons e row =>
      obtain ⟨c, hc, hn⟩ := List.mem_map.mp (h e (by simp))
      have := List.filterMap_eq_nil_iff.mp hv c hc
      simp [hn] at this

/-! ## What is refused -/

theorem acceptAll_faults {α : Type} {accept? : α → Option Value} {as : List α} :
    ∀ f, acceptAll accept? as = .error f → ¬ r.Misses f := by
  intro f hf
  unfold acceptAll at hf
  split at hf
  · cases hf
  · cases hf
    exact id

theorem cellsOf_faults {vs : List Value} : ∀ f, cellsOf vs = .error f → ¬ r.Misses f := by
  intro f hf
  obtain ⟨v, -, hv⟩ := exists_fault hf
  cases hc : Cell.ofValue v with
  | ok c => simp [hc, Except.mapError] at hv
  | error g =>
    simp only [hc, Except.mapError, Except.error.injEq] at hv
    subst hv
    exact id

theorem operandsOf_faults : ∀ f, operandsOf bs = .error f → ¬ r.Misses f := by
  intro f hf
  unfold operandsOf at hf
  split at hf
  · cases hf
  · cases hf
    exact id

theorem check_faults {b : BoundCondition} (hb : b.column ∈ t.columnNames) :
    ∀ f, b.check t.columns = .error f → ¬ r.Misses f := by
  intro f hf
  unfold BoundCondition.check at hf
  rw [if_pos (by simpa [TableShape.columnNames] using hb)] at hf
  split at hf
  · split at hf
    · cases hf
      exact id
    · cases hf
  · cases hf

theorem readConditions_faults {text : String} (h : ∀ bs, readClause text = .ok bs → ∀ b ∈ bs, b.column ∈ t.columnNames) :
    ∀ f, readConditions t.columns text = .error f → ¬ r.Misses f := by
  refine faults_bind ?_ fun bs hbs => faults_bind ?_ nofun
  · intro f hf
    cases hc : readClause text with
    | ok bs => simp [hc, Except.mapError] at hf
    | error g =>
      simp only [hc, Except.mapError, Except.error.injEq] at hf
      subst hf
      exact id
  · exact forM_faults fun b hb => check_faults (h bs (mapError_eq_ok.mp hbs) b hb)

theorem conditionsOf_faults {clause : Option String}
    (h : ∀ text, clause = some text → ∀ bs, readClause text = .ok bs → ∀ b ∈ bs, b.column ∈ t.columnNames) :
    ∀ f, conditionsOf t.columns clause = .error f → ¬ r.Misses f := by
  cases clause with
  | none => nofun
  | some text => exact readConditions_faults (h text rfl)

theorem columns_of_conditionsOf {clause : Option String}
    (h : ∀ text, clause = some text → ∀ bs, readClause text = .ok bs → ∀ b ∈ bs, b.column ∈ t.columnNames)
    (hb : conditionsOf t.columns clause = .ok bs) : ∀ b ∈ bs, b.column ∈ t.columnNames := by
  cases clause with
  | none =>
    cases hb
    simp
  | some text =>
    obtain ⟨bs', hbs, hb⟩ := bind_eq_ok.mp hb
    obtain ⟨_, -, hb⟩ := bind_eq_ok.mp hb
    cases hb
    exact h text rfl bs (mapError_eq_ok.mp hbs)

theorem testsOn_faults {x : StoredTable} {operands : List (List Value)} (h : ∀ b ∈ bs, b.column ∈ x.shape.columnNames) :
    ∀ f, testsOn x bs operands = .error f → ¬ r.Misses f := by
  obtain ⟨places, hp⟩ := positions_eq_ok (List.forall_mem_map.mpr h)
  unfold testsOn
  rw [hp, ok_bind]
  refine faults_bind ?_ nofun
  intro f hf
  obtain ⟨vs, -, hv⟩ := exists_fault hf
  exact cellsOf_faults f hv

theorem insert_faults (ht : s.Has t) (hrow : ∀ e ∈ row, e.1 ∈ t.columnNames) :
    ∀ f, s.insert t.name row = .error f → ¬ r.Misses f := by
  obtain ⟨values, hv, hcolumns, -⟩ := arrange_eq_ok hrow
  obtain ⟨x, hx, rfl⟩ := ht.target
  obtain ⟨places, hp⟩ := positions_eq_ok (x := x) (List.forall_mem_map.mpr hcolumns)
  unfold insert
  rw [ht.shape, ok_bind, hv, ok_bind]
  refine faults_bind acceptAll_faults fun accepted _ => ?_
  rw [hx, ok_bind, hp, ok_bind]
  refine faults_bind cellsOf_faults fun cells _ => ?_
  intro f hf
  dsimp only at hf
  split at hf
  · cases hf
  · cases hf
    exact id

theorem update_faults {clause : Option String} (ht : s.Has t) (hrow : ∀ e ∈ row, e.1 ∈ t.columnNames)
    (hclause : ∀ text, clause = some text → ∀ bs, readClause text = .ok bs → ∀ b ∈ bs, b.column ∈ t.columnNames) :
    ∀ f, s.update t.name row clause = .error f → ¬ (Request.update t.name row clause).Misses f := by
  obtain ⟨values, hv, hcolumns, hnone⟩ := arrange_eq_ok hrow
  obtain ⟨x, hx, rfl⟩ := ht.target
  obtain ⟨places, hp⟩ := positions_eq_ok (x := x) (List.forall_mem_map.mpr hcolumns)
  unfold update
  rw [ht.shape, ok_bind]
  refine faults_bind (conditionsOf_faults hclause) fun bs hbs => ?_
  rw [hv, ok_bind]
  refine faults_bind acceptAll_faults fun accepted _ => faults_bind operandsOf_faults fun operands _ => ?_
  rw [hx, ok_bind]
  by_cases hempty : values.isEmpty
  · -- an update that sets nothing is refused whatever there is
    intro f hf
    rw [if_pos hempty] at hf
    cases hf
    intro hm
    exact hm x.shape.name clause (by rw [hnone (List.isEmpty_iff.mp hempty)])
  · rw [if_neg hempty, hp]
    refine faults_bind nofun fun _ _ => ?_
    refine faults_bind cellsOf_faults fun cells _ => ?_
    refine faults_bind (testsOn_faults (columns_of_conditionsOf hclause hbs)) fun tests _ => ?_
    intro f hf
    dsimp only at hf
    split at hf
    · cases hf
    · cases hf
      exact id

/-! ## Answers -/

theorem add_faults (ht : s.Has t) (hrow : ∀ e ∈ row, e.1 ∈ t.columnNames) :
    ∀ f, (s.add t.name row).1 = .error f → ∃ g, f = .store g ∧ ¬ r.Misses g := by
  have hl := ht.precedes (precedes_learn s t.name)
  intro f hf
  unfold add at hf
  dsimp only at hf
  split at hf
  · cases hf
  · rename_i g hg
    cases hf
    exact ⟨g, rfl, insert_faults hl hrow g hg⟩

theorem change_faults {clause : Option String} (ht : s.Has t) (hrow : ∀ e ∈ row, e.1 ∈ t.columnNames)
    (hclause : ∀ text, clause = some text → ∀ bs, readClause text = .ok bs → ∀ b ∈ bs, b.column ∈ t.columnNames) :
    ∀ f, (s.change t.name row clause).1 = .error f →
      ∃ g, f = .store g ∧ ¬ (Request.update t.name row clause).Misses g := by
  have hl := ht.precedes (precedes_learn s t.name)
  intro f hf
  unfold change at hf
  dsimp only at hf
  split at hf
  · cases hf
  · rename_i g hg
    cases hf
    exact ⟨g, rfl, update_faults hl hrow hclause g hg⟩

/-- A store that has a table never refuses a request for want of a name, if the request names this table and columns of
it. -/
theorem answer_faults (ht : s.Has t) (hr : r.WritesOn t) :
    ∃ a, s.answer? r = some a ∧ ∀ f, a.1 = .error f → ∃ g, f = .store g ∧ ¬ r.Misses g := by
  cases hr with
  | update hrow hclause => exact ⟨_, rfl, change_faults ht hrow hclause⟩
  | insert hrow => exact ⟨_, rfl, add_faults ht hrow⟩
  | log hrow => exact ⟨_, rfl, add_faults ht hrow⟩

end

end Store

end Workflow
