import Workflow.Proofs.Plan
import Workflow.Proofs.Store.Tables

/-!
# What an update changes

An update changes the rows that a count counts, in the columns that it has values for, and nothing else. Both find the
conditions of a clause on their own; that they agree about each row is shown by counting it in a table of its own.
-/

namespace Workflow

namespace Store

/-- Whether a clause counts a row: in a table that has only this row it counts one. Without a clause all rows count. -/
def counts (s : Store) (name : String) (clause : Option String) (row : List Cell) : Bool :=
  clause.all fun w => ((s.withRows name [row]).count name w).toOption == some 1

end Store

namespace StoredTable

/-- What is written to a place: the last of the cells for it, as the column keeps it. -/
def written (t : StoredTable) : List (Nat × Cell) → Nat → Option Cell
  | [], _ => none
  | (k, c) :: cells, n => (t.written cells n).or (if k = n then some (c.store (t.affinityAt k)) else none)

section
variable {t : StoredTable} {cells : List (Nat × Cell)} {row : List Cell} {n : Nat}

theorem written_isSome : (t.written cells n).isSome = true ↔ n ∈ cells.map Prod.fst := by
  induction cells with
  | nil => simp [written]
  | cons x cells ih =>
    obtain ⟨k, c⟩ := x
    rw [written, Option.isSome_or, Bool.or_eq_true, ih, List.map_cons, List.mem_cons]
    by_cases hk : k = n
    · simp [hk]
    · simp [hk, Ne.symm hk]

theorem assign_getElem? : (t.assign cells row)[n]? = row[n]?.map fun c => (t.written cells n).getD c := by
  induction cells generalizing row with
  | nil => simp [assign, written]
  | cons x cells ih =>
    obtain ⟨k, c⟩ := x
    have hrest : t.assign ((k, c) :: cells) row = t.assign cells (row.set k (c.store (t.affinityAt k))) := rfl
    rw [hrest, ih, List.getElem?_set]
    by_cases hk : k = n
    · subst hk
      by_cases hl : k < row.length
      · simp [written, hl]
      · simp [hl]
    · simp [written, hk]

theorem assign_eq_mapIdx : t.assign cells row = row.mapIdx fun n c => (t.written cells n).getD c := by
  apply List.ext_getElem?
  intro n
  rw [assign_getElem?, List.getElem?_mapIdx]

theorem mem_positions {names : List String} {places : List Nat} (h : t.positions names = .ok places) :
    n ∈ places ↔ ∃ name ∈ names, t.position? name = some n := by
  unfold positions at h
  cases hm : names.mapM t.position? with
  | none => simp [hm] at h
  | some ns =>
    rw [hm] at h
    cases h
    obtain ⟨hnames, hplaces⟩ := exists_of_forall₂ (mapM_eq_some.mp hm)
    constructor
    · intro hn
      exact hplaces n hn
    · intro hname
      obtain ⟨name, hname, hn⟩ := hname
      obtain ⟨k, hk, hkn⟩ := hnames name hname
      rw [hn] at hkn
      cases hkn
      exact hk

theorem length_positions {names : List String} {places : List Nat} (h : t.positions names = .ok places) :
    places.length = names.length := by
  unfold positions at h
  cases hm : names.mapM t.position? with
  | none => simp [hm] at h
  | some ns =>
    rw [hm] at h
    cases h
    exact (mapM_eq_some.mp hm).length_eq.symm

end

/-- A table where the rows that are counted have other cells at some places. -/
def rewritten (t : StoredTable) (counted : List Cell → Bool) (cells : Nat → Option Cell) : StoredTable :=
  { t with rows := t.rows.map fun r => if counted r then r.mapIdx fun k c => (cells k).getD c else r }

end StoredTable

namespace Store

/-! ## Values -/

section
variable {shape : TableShape} {values : Row} {arranged : List (ColumnShape × Value)} {accepted : List Value} {cells : List Cell}

theorem mem_arranged {name : String} (h : arrange shape values = .ok arranged) :
    name ∈ arranged.map (fun x => x.1.name) ↔ ∃ e ∈ values, e.1 = name := by
  unfold arrange at h
  split at h
  · rename_i hall
    cases h
    constructor
    · intro hn
      obtain ⟨x, hx, rfl⟩ := List.mem_map.mp hn
      obtain ⟨c, -, hc⟩ := List.mem_filterMap.mp hx
      obtain ⟨v, hv, rfl⟩ := Option.map_eq_some_iff.mp hc
      obtain ⟨before, after, hvalues, -⟩ := List.lookup_eq_some_iff.mp hv
      exact ⟨(c.name, v), by simp [hvalues], rfl⟩
    · intro hn
      obtain ⟨e, he, rfl⟩ := hn
      obtain ⟨c, hc⟩ := Option.isSome_iff_exists.mp (List.all_eq_true.mp hall e he)
      have hname : c.name = e.1 := by simpa using List.find?_some hc
      have hlookup : (values.lookup e.1).isSome = true := by
        apply Option.isSome_iff_ne_none.mpr
        intro hnone
        simpa using List.lookup_eq_none_iff.mp hnone e he
      obtain ⟨v, hv⟩ := Option.isSome_iff_exists.mp hlookup
      rw [← hname] at hv ⊢
      exact List.mem_map.mpr ⟨(c, v), List.mem_filterMap.mpr ⟨c, List.mem_of_find?_eq_some hc, by rw [hv]; rfl⟩, rfl⟩
  · cases h

theorem length_accepted {α : Type} {accept? : α → Option Value} {as : List α} (h : acceptAll accept? as = .ok accepted) :
    accepted.length = as.length := by
  unfold acceptAll at h
  cases hm : as.mapM accept? with
  | none => simp [hm] at h
  | some vs =>
    rw [hm] at h
    cases h
    exact (mapM_eq_some.mp hm).length_eq.symm

theorem length_cells {vs : List Value} (h : cellsOf vs = .ok cells) : cells.length = vs.length :=
  (mapM_eq_ok.mp h).length_eq.symm

theorem mem_places {t : StoredTable} {places : List Nat} {n : Nat} (harranged : arrange shape values = .ok arranged)
    (haccepted : acceptAll (fun (c, v) => c.kind.accept? v) arranged = .ok accepted)
    (hplaces : t.positions (arranged.map fun (c, _) => c.name) = .ok places) (hcells : cellsOf accepted = .ok cells) :
    (t.written (places.zip cells) n).isSome = true ↔ ∃ e ∈ values, t.position? e.1 = some n := by
  have hlength : places.length = cells.length := by
    rw [StoredTable.length_positions hplaces, List.length_map, length_cells hcells, length_accepted haccepted]
  rw [StoredTable.written_isSome, List.map_fst_zip (Nat.le_of_eq hlength), StoredTable.mem_positions hplaces]
  constructor
  · intro h
    obtain ⟨name, hname, hn⟩ := h
    obtain ⟨e, he, rfl⟩ := (mem_arranged harranged).mp hname
    exact ⟨e, he, hn⟩
  · intro h
    obtain ⟨e, he, hn⟩ := h
    exact ⟨e.1, (mem_arranged harranged).mpr ⟨e, he, rfl⟩, hn⟩

end

/-! ## Tables -/

section
variable {s s' : Store} {t : StoredTable} {shape : TableShape} {name : String} {rows : List (List Cell)}

theorem table?_withRows (s : Store) (name : String) (rows : List (List Cell)) :
    (s.withRows name rows).table? name = (s.table? name).map fun t => { t with rows } := by
  unfold table? withRows
  induction s.tables with
  | nil => rfl
  | cons t ts ih =>
    rw [List.map_cons, List.find?_cons, List.find?_cons]
    by_cases hn : sameName t.shape.name name = true
    · simp [hn]
    · simp [hn, ih]

theorem target_eq_ok : s.target name = .ok t ↔ s.table? name = some t := by
  unfold target
  cases s.table? name with
  | none => simp
  | some u => simp

theorem target_withRows (ht : s.target name = .ok t) (rows : List (List Cell)) :
    (s.withRows name rows).target name = .ok { t with rows } := by
  rw [target_eq_ok, table?_withRows, target_eq_ok.mp ht]
  rfl

theorem shape?_withRows (s : Store) (name : String) (rows : List (List Cell)) :
    (s.withRows name rows).shape? name = s.shape? name := by
  unfold shape?
  rw [table?_withRows]
  cases s.table? name with
  | none => rfl
  | some t => rfl

theorem shape_withRows (s : Store) (name : String) (rows : List (List Cell)) :
    (s.withRows name rows).shape name = s.shape name := by
  unfold Store.shape
  rw [shape?_withRows]

theorem shape_learn (s : Store) (name : String) : (s.learn name).shape name = s.shape name := by
  unfold learn
  split
  · rfl
  · rename_i hnew
    have hnone : s.known.find? (fun t => t.name == name) = none := by
      apply List.find?_eq_none.mpr
      intro t ht hname
      exact hnew (List.any_eq_true.mpr ⟨t, ht, hname⟩)
    unfold Store.shape shape? table?
    dsimp only
    rw [List.find?_append, hnone]
    cases s.tables.find? fun t => sameName t.shape.name name with
    | none => rfl
    | some t => simp

theorem target_learn (s : Store) (name : String) : (s.learn name).target name = s.target name := by
  unfold learn
  split
  · rfl
  · rfl

theorem tables_learn (s : Store) (name : String) : (s.learn name).tables = s.tables := by
  unfold learn
  split
  · rfl
  · rfl

theorem withRows_learn (s : Store) (name : String) (rows : List (List Cell)) :
    (s.learn name).withRows name rows = (s.withRows name rows).learn name := by
  unfold learn
  rw [shape?_withRows]
  split
  · rename_i hknown
    exact (if_pos hknown).symm
  · rename_i hknown
    exact (if_neg hknown).symm

/-! ## Counting -/

theorem count_eq {bs : List BoundCondition} {operands : List (List Value)} {tests : List (Nat × CellTest)} {clause : String}
    (hshape : s.shape name = .ok shape) (hbs : readConditions shape.columns clause = .ok bs)
    (hoperands : operandsOf bs = .ok operands) (ht : s.target name = .ok t) (htests : testsOn t bs operands = .ok tests) :
    s.count name clause = .ok (t.rows.countP (t.matchesRow tests)) := by
  unfold count
  rw [hshape, ok_bind, hbs, ok_bind, hoperands, ok_bind, ht, ok_bind, htests]
  rfl

/-- A row meets the tests of a clause if the clause counts it in a table of its own. -/
theorem counts_eq {bs : List BoundCondition} {operands : List (List Value)} {tests : List (Nat × CellTest)}
    {clause : Option String} (hshape : s.shape name = .ok shape) (hbs : conditionsOf shape.columns clause = .ok bs)
    (hoperands : operandsOf bs = .ok operands) (ht : s.target name = .ok t) (htests : testsOn t bs operands = .ok tests)
    (row : List Cell) : s.counts name clause row = t.matchesRow tests row := by
  cases clause with
  | none =>
    cases hbs
    cases hoperands
    cases htests
    rfl
  | some w =>
    have hcount : (s.withRows name [row]).count name w = .ok ([row].countP (t.matchesRow tests)) :=
      count_eq ((shape_withRows s name [row]).trans hshape) hbs hoperands (target_withRows ht [row]) htests
    unfold counts
    rw [Option.all_some, hcount]
    cases h : t.matchesRow tests row with
    | false => simp [h, Except.toOption]
    | true => simp [h, Except.toOption]

/-! ## Updating -/

/-- What an update does, which is all that it can do: it rewrites the rows that are counted, at the places of the columns
that there are values for. -/
theorem update_spec {values : Row} {clause : Option String} {n : Nat} (h : s.update name values clause = .ok (n, s')) :
    ∃ t cells, s.table? name = some t ∧ (∀ w, clause = some w → s.count name w = .ok n) ∧
      n = t.rows.countP (s.counts name clause) ∧
      (∀ k, (cells k).isSome = true ↔ ∃ e ∈ values, t.position? e.1 = some k) ∧
      s' = s.withRows name (t.rewritten (s.counts name clause) cells).rows := by
  simp only [update, bind_eq_ok] at h
  obtain ⟨shape, hshape, bs, hbs, arranged, harranged, accepted, haccepted, operands, hoperands, t, ht, h⟩ := h
  split at h
  · cases h
  simp only [bind_eq_ok] at h
  obtain ⟨places, hplaces, cells, hcells, tests, htests, h⟩ := h
  split at h
  · cases h
    have hcounts : s.counts name clause = t.matchesRow tests :=
      funext (counts_eq hshape hbs hoperands ht htests)
    refine ⟨t, t.written (places.zip cells), target_eq_ok.mp ht, ?_, ?_, ?_, ?_⟩
    · intro w hw
      subst hw
      exact count_eq hshape hbs hoperands ht htests
    · rw [hcounts]
    · intro k
      exact mem_places harranged haccepted hplaces hcells
    · rw [hcounts, StoredTable.rewritten]
      simp only [StoredTable.assign_eq_mapIdx]
  · cases h

theorem count_learn (s : Store) (name clause : String) : (s.learn name).count name clause = s.count name clause := by
  unfold count
  rw [shape_learn, target_learn]

theorem counts_learn (s : Store) (name : String) (clause : Option String) :
    (s.learn name).counts name clause = s.counts name clause := by
  funext row
  unfold counts
  simp only [withRows_learn, count_learn]

theorem others_withRows (s : Store) (name : String) (rows : List (List Cell)) :
    List.Forall₂ (fun u u' => sameName u.shape.name name = false → u' = u) s.tables (s.withRows name rows).tables := by
  unfold withRows
  rw [List.forall₂_map_right_iff, List.forall₂_same]
  intro u _ hu
  simp [hu]

/-- **An update changes what a count counts.** If an update is made, it answers with the number of rows that its clause counts
just before, or of all rows without a clause. Then exactly the rows that are counted are rewritten, at the places of the
columns that there are values for and at no others, and every other table is what it was. If it is refused, all of them are. -/
theorem update_changes_counted (s : Store) (name : String) (values : Row) (clause : Option String) :
    (∀ reply s', s.change name values clause = (.ok reply, s') → ∃ (n : Nat) (t : StoredTable) (cells : Nat → Option Cell),
      reply = some (n : Int) ∧ (∀ w, clause = some w → s.count name w = .ok n) ∧ (clause = none → n = t.rows.length) ∧
      s.table? name = some t ∧ n = t.rows.countP (s.counts name clause) ∧
      (∀ k, (cells k).isSome = true ↔ ∃ e ∈ values, t.position? e.1 = some k) ∧
      s'.table? name = some (t.rewritten (s.counts name clause) cells) ∧
      List.Forall₂ (fun u u' => sameName u.shape.name name = false → u' = u) s.tables s'.tables) ∧
    ∀ f s', s.change name values clause = (.error f, s') → s'.tables = s.tables := by
  constructor
  · intro reply s' h
    unfold change at h
    dsimp only at h
    split at h
    · rename_i n s'' hu
      cases h
      obtain ⟨t, cells, ht, hcount, hn, hcells, rfl⟩ := update_spec hu
      rw [counts_learn] at hn ⊢
      refine ⟨n, t, cells, rfl, ?_, ?_, ?_, hn, hcells, ?_, ?_⟩
      · intro w hw
        rw [← count_learn]
        exact hcount w hw
      · intro hnone
        subst hnone
        rw [hn]
        exact congrFun List.countP_true t.rows
      · rwa [table?, tables_learn] at ht
      · rw [table?_withRows, ht]
        rfl
      · have := others_withRows (s.learn name) name (t.rewritten (s.counts name clause) cells).rows
        rwa [tables_learn] at this
    · cases h
  · intro f s' h
    unfold change at h
    dsimp only at h
    split at h
    · cases h
    · cases h
      exact tables_learn s name

end

/-- A table of leads, of which one belongs to no organisation, next to a table of their events. -/
def leads : Store where
  known := []
  tables := [
    ⟨⟨"leads", [⟨"id", .text, false⟩, ⟨"org", .text, true⟩, ⟨"status", .text, true⟩]⟩, [
      [.text "a", .text "o1", .text "new"],
      [.text "b", .null, .text "new"],
      [.text "c", .text "o2", .null]]⟩,
    ⟨⟨"events", [⟨"id", .text, true⟩, ⟨"status", .text, true⟩]⟩, [[.text "a", .text "new"]]⟩]

/-- A comparison with null counts no row, and a row without an identifier is refused. -/
theorem update_changes_counted_leads : ∃ s' s'' t cells f,
    leads.change "leads" [("status", .text "lost")] (some "org != 'o1'") = (.ok (some 1), s') ∧
    leads.count "leads" "org != 'o1'" = .ok 1 ∧ leads.table? "leads" = some t ∧
    s'.table? "leads" = some (t.rewritten (leads.counts "leads" (some "org != 'o1'")) cells) ∧
    leads.counts "leads" (some "org != 'o1'") [.text "b", .null, .text "new"] = false ∧
    (cells 0).isSome = false ∧ (cells 2).isSome = true ∧
    leads.change "leads" [("id", .null)] none = (.error f, s'') ∧ s''.tables = leads.tables := by
  have hone : (leads.change "leads" [("status", .text "lost")] (some "org != 'o1'")).1.toOption = some (some 1) := by
    decide
  have hnone : (leads.change "leads" [("id", .null)] none).1.toOption = none := by
    decide
  obtain ⟨s', hc⟩ := eq_ok_of_toOption hone
  obtain ⟨f, s'', hf⟩ := eq_error_of_toOption hnone
  obtain ⟨hmade, -⟩ := update_changes_counted leads "leads" [("status", .text "lost")] (some "org != 'o1'")
  obtain ⟨-, hrefused⟩ := update_changes_counted leads "leads" [("id", .null)] none
  obtain ⟨n, t, cells, hn, hcount, -, ht, -, hcells, ht', -⟩ := hmade _ s' hc
  obtain rfl : n = 1 := by
    have hn : (1 : Int) = n := Option.some.inj hn
    omega
  have hplace : t.position? "status" = some 2 := by
    cases ht
    decide
  refine ⟨s', s'', t, cells, f, hc, hcount _ rfl, ht, ht', by decide, ?_, ?_, hf, hrefused f s'' hf⟩
  · apply Bool.eq_false_iff.mpr
    intro h
    obtain ⟨e, he, h⟩ := (hcells 0).mp h
    obtain rfl := List.mem_singleton.mp he
    simp [hplace] at h
  · exact (hcells 2).mpr ⟨_, List.mem_singleton_self _, hplace⟩

end Store

end Workflow
