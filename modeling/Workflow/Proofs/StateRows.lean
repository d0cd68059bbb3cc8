import Workflow.Proofs.Predicate.RoundTrip
import Workflow.Proofs.States
import Workflow.Proofs.Store.Refusals

/-!
# States as rows

A predicate over states is decided without a store. A store that holds the state as the text of a single row decides it in the
same way, though it reads the predicate back from a clause and compares cells.
-/

namespace Workflow

/-! ## Conditions over texts -/

/-- A condition that needs no order and whose operands are texts, but for a null that is compared with. -/
inductive BoundCondition.OverTexts : BoundCondition → Prop
  | null {c : String} {op : Predicate.Operator} : op.isOrder = false → OverTexts (.comparison c op .null)
  | text {c : String} {op : Predicate.Operator} {t : String} : op.isOrder = false → OverTexts (.comparison c op (.text t))
  | among {c : String} {negated : Bool} {ts : List String} : OverTexts (.membership c negated (ts.map .text))

def textCell : Scalar → Cell
  | .text s => .text s
  | _ => .null

def BoundCondition.trueOf (s : String) (b : BoundCondition) : Bool :=
  (b.test (b.values.map textCell)).holds? .text (.text s) == some true

namespace BoundCondition

section
variable {b : BoundCondition} {bs : List BoundCondition} {s : String}

theorem OverTexts.plain (h : b.OverTexts) : ∀ x ∈ b.values, x.Plain ∧ ¬ x.IsInfinite := by
  have hnull : ¬ Scalar.null.IsInfinite := nofun
  have htext (t : String) : ¬ (Scalar.text t).IsInfinite := nofun
  cases h with
  | null => exact List.forall_mem_singleton.mpr ⟨trivial, hnull⟩
  | @text _ _ t => exact List.forall_mem_singleton.mpr ⟨trivial, htext t⟩
  | among => exact List.forall_mem_map.mpr fun t _ => ⟨trivial, htext t⟩

theorem OverTexts.isWritable (h : b.OverTexts) : ∀ x ∈ b.values, x.isWritable = true := by
  cases h with
  | null => exact List.forall_mem_singleton.mpr rfl
  | text => exact List.forall_mem_singleton.mpr rfl
  | among => exact List.forall_mem_map.mpr fun _ _ => rfl

theorem compare_texts (s t : String) : (compare s t == .eq) = decide (s = t) := by
  by_cases h : s = t
  · subst h
    simp
  · simp [h]

theorem scalar_texts (s t : String) : (Scalar.text s == Scalar.text t) = decide (s = t) := by
  by_cases h : s = t
  · simp [h]
  · simp [h]

theorem equal?_text (s t : String) : CellTest.equal? .text (.text s) (.text t) = some (decide (s = t)) :=
  congrArg some (compare_texts s t)

theorem member?_texts (s : String) (ts : List String) :
    CellTest.member? .text (.text s) ((ts.map Scalar.text).map textCell) = some (decide (s ∈ ts)) := by
  have hall : ((ts.map Scalar.text).map textCell).map (CellTest.equal? .text (.text s)) =
      ts.map fun t => some (decide (s = t)) := by
    simp only [List.map_map]
    exact List.map_congr_left fun t _ => equal?_text s t
  rw [CellTest.member?, hall]
  by_cases h : s ∈ ts
  · simp [h]
  · simp [h]

theorem OverTexts.check (h : b.OverTexts) {columns : List ColumnShape} (hc : b.column ∈ columns.map ColumnShape.name) :
    b.check columns = .ok () := by
  unfold BoundCondition.check
  rw [if_pos (List.contains_iff_mem.mpr hc)]
  cases h <;> rfl

theorem OverTexts.operands (h : b.OverTexts) : b.operands? = some (b.values.map .scalar) := by
  cases h with
  | null => rfl
  | text => rfl
  | @among _ _ ts =>
    have hnull : (ts.map Scalar.text).contains .null = false := by simp
    rw [operands?, if_neg (by rw [hnull]; exact Bool.false_ne_true)]
    cases ts <;> rfl

theorem OverTexts.cells (h : b.OverTexts) : cellsOf (b.values.map .scalar) = .ok (b.values.map textCell) := by
  cases h with
  | null => rfl
  | text => rfl
  | among =>
    rw [cellsOf, mapM_eq_ok, values, List.forall₂_map_left_iff, List.forall₂_map_right_iff, List.forall₂_map_left_iff,
      List.forall₂_map_right_iff, List.forall₂_same]
    exact fun _ _ => rfl

/-- A state and a row that holds it are told apart by no condition over texts. -/
theorem OverTexts.meets (h : b.OverTexts) (hw : b.Regular) : b.meets (some s) = b.trueOf s := by
  refine meets_eq ?_
  cases h with
  | @null c op =>
    cases hw with
    | nullTest _ hop => rcases hop with rfl | rfl <;> rfl
    | comparison _ _ hs => exact absurd rfl hs
  | @text c op t horder =>
    cases hw with
    | comparison _ hop _ =>
      cases op with
      | eq =>
        change Except.ok (Scalar.text s == Scalar.text t) = .ok (some (compare s t == .eq) == some true)
        rw [compare_texts, scalar_texts]
        simp
      | ne =>
        change Except.ok (!(Scalar.text s == Scalar.text t)) = .ok (some (!(compare s t == .eq)) == some true)
        rw [compare_texts, scalar_texts]
        simp
      | isNull => exact absurd rfl hop.1
      | notNull => exact absurd rfl hop.2
      | _ => cases horder
  | @among c negated ts =>
    have hm : CellTest.holds? .text (.text s) (.among negated ((ts.map Scalar.text).map textCell)) =
        some (decide (s ∈ ts) != negated) := by
      rw [CellTest.holds?, member?_texts, Option.map_some]
    have hs : (ts.map Scalar.text).contains (.text s) = decide (s ∈ ts) := by
      by_cases h : s ∈ ts
      · simp [h]
      · simp [h]
    change Except.ok ((ts.map Scalar.text).contains (.text s) != negated) = .ok (_ == some true)
    rw [show (BoundCondition.membership c negated (ts.map .text)).values = ts.map .text from rfl, test, hm, hs]
    simp

end

end BoundCondition

/-! ## A table with a single row -/

/-- A store has a table with one row only, which holds a text in a column for texts. -/
structure Store.HoldsOnly (store : Store) (t : TableShape) (c s : String) : Prop where
  has : store.Has t
  sound : t.isSound = true
  column : ∃ k ∈ t.columns, k.name = c ∧ (k.kind = .string ∨ k.kind = .text)
  row : ∃ r, store.rows t.name = .ok [r] ∧ r.lookup c = some (.text s)

section
variable {t : TableShape} {x : StoredTable} {c s : String}

/-- The names of a table that the database accepts differ in more than their case. -/
theorem TableShape.sound_pairwise (h : t.isSound = true) : t.columns.Pairwise fun a b => sameName a.name b.name = false := by
  rw [isSound, repeats, Bool.and_eq_true, Bool.not_not, decide_eq_true_eq, List.pairwise_map] at h
  exact h.2

theorem sameName_refl (a : String) : sameName a a = true := beq_self_eq_true _

theorem position_of_column (hs : x.shape.isSound = true) {k : ColumnShape} (hk : k ∈ x.shape.columns) :
    ∃ n, x.position? k.name = some n ∧ x.shape.columns[n]? = some k := by
  obtain ⟨n, hn⟩ := Option.isSome_iff_exists.mp (Store.position?_isSome (List.mem_map_of_mem hk))
  refine ⟨n, hn, ?_⟩
  obtain ⟨i, hi, rfl⟩ := List.getElem_of_mem hk
  obtain ⟨hl, hsame, hfirst⟩ := List.findIdx?_eq_some_iff_getElem.mp hn
  have hpair := List.pairwise_iff_getElem.mp (TableShape.sound_pairwise hs)
  rcases Nat.lt_trichotomy i n with hlt | rfl | hlt
  · exact absurd (sameName_refl _) (hfirst i hlt)
  · exact List.getElem?_eq_getElem hi
  · rw [hpair n i hl hi hlt] at hsame
    cases hsame

theorem cell_of_shown {kind : ColumnKind} {cell : Cell} (hk : kind = .string ∨ kind = .text) (h : kind.show cell = .text s) :
    cell = .text s := by
  rcases hk with rfl | rfl <;> cases cell <;> cases h <;> rfl

theorem Store.HoldsOnly.cell {store : Store} (h : store.HoldsOnly t c s) : ∃ (x : StoredTable) (n : Nat) (row : List Cell),
    store.target t.name = .ok x ∧ x.shape = t ∧ x.rows = [row] ∧ x.position? c = some n ∧ x.affinityAt n = .text ∧
      row.getD n .null = .text s := by
  obtain ⟨x, hx, rfl⟩ := h.has.target
  obtain ⟨k, hk, rfl, hkind⟩ := h.column
  obtain ⟨n, hn, hkn⟩ := position_of_column h.sound hk
  have haff : x.affinityAt n = .text := by
    rw [StoredTable.affinityAt, hkn]
    rcases hkind with hkind | hkind <;> simp [hkind, ColumnKind.affinity]
  obtain ⟨r, hr, hlookup⟩ := h.row
  have hplaces : x.positions (x.shape.columns.map ColumnShape.name) = _ := Store.positions_of_names fun _ hname => hname
  rw [Store.rows, h.has.shape, ok_bind, hx, ok_bind, hplaces, ok_bind, pure_eq_ok, Except.ok.injEq] at hr
  obtain ⟨row, hrow, hcells⟩ := List.map_eq_singleton_iff.mp hr
  refine ⟨x, n, row, hx, rfl, hrow, hn, haff, ?_⟩
  obtain ⟨before, after, hr, -⟩ := List.lookup_eq_some_iff.mp hlookup
  have hm : (k.name, Value.text s) ∈ r := by simp [hr]
  rw [← hcells, List.map_map, ← List.map_prod_left_eq_zip, List.map_map] at hm
  obtain ⟨col, hcol, he⟩ := List.mem_map.mp hm
  obtain ⟨hname, hshow⟩ := Prod.mk.inj he
  -- names differ, so it is the same column
  obtain rfl : col = k := by
    obtain ⟨m, hm, hcm⟩ := position_of_column h.sound hcol
    rw [hname, hn] at hm
    cases hm
    exact Option.some.inj (hcm.symm.trans hkn)
  simp only [Function.comp, hn, Option.getD_some] at hshow
  exact cell_of_shown hkind hshow

theorem readConditions_texts {columns : List ColumnShape} {clause : String} {bs : List BoundCondition}
    (hread : readClause clause = .ok bs) (hcolumns : ∀ b ∈ bs, b.column ∈ columns.map ColumnShape.name)
    (htexts : ∀ b ∈ bs, b.OverTexts) : readConditions columns clause = .ok bs := by
  rw [readConditions, hread, Except.mapError, ok_bind, forM_eq_ok fun b hb => (htexts b hb).check (hcolumns b hb)]
  rfl

theorem testsOn_texts {n : Nat} {bs : List BoundCondition} (hcolumn : ∀ b ∈ bs, x.position? b.column = some n)
    (htexts : ∀ b ∈ bs, b.OverTexts) : Store.testsOn x bs (bs.map fun b => b.values.map .scalar) =
      .ok (bs.map fun b => (n, b.test (b.values.map textCell))) := by
  have hplaces : x.positions (bs.map BoundCondition.column) = .ok ((bs.map BoundCondition.column).map fun _ => n) :=
    Store.positions_of_columns (List.forall_mem_map.mpr hcolumn)
  have hcells : (bs.map fun b => b.values.map Value.scalar).mapM cellsOf = .ok (bs.map fun b => b.values.map textCell) := by
    rw [mapM_eq_ok, List.forall₂_map_left_iff, List.forall₂_map_right_iff, List.forall₂_same]
    exact fun b hb => (htexts b hb).cells
  rw [Store.testsOn, hplaces, ok_bind, hcells, ok_bind, List.map_map, List.zipWith_map_right, List.zipWith_self,
    List.zip_map', pure_eq_ok]
  rfl

/-- A store that holds a state in its only row counts this row exactly if every condition is true of the state. -/
theorem Store.HoldsOnly.count {store : Store} (h : store.HoldsOnly t c s) {clause : String} {bs : List BoundCondition}
    (hread : readClause clause = .ok bs) (hcolumn : ∀ b ∈ bs, b.column = c) (htexts : ∀ b ∈ bs, b.OverTexts) :
    store.count t.name clause = .ok (if bs.all (BoundCondition.trueOf s) then 1 else 0) := by
  obtain ⟨x, n, row, hx, rfl, hrow, hn, haffinity, hcell⟩ := h.cell
  obtain ⟨k, hk, hkc, -⟩ := h.column
  have hnames : ∀ b ∈ bs, b.column ∈ x.shape.columns.map ColumnShape.name :=
    fun b hb => hcolumn b hb ▸ hkc ▸ List.mem_map_of_mem hk
  have hoperands : Store.operandsOf bs = .ok (bs.map fun b => b.values.map .scalar) := by
    rw [Store.operandsOf, mapM_total fun b hb => (htexts b hb).operands]
  have htests := testsOn_texts (fun b hb => (hcolumn b hb).symm ▸ hn) htexts
  have hmatches : x.matchesRow (bs.map fun b => (n, b.test (b.values.map textCell))) row = bs.all (BoundCondition.trueOf s) := by
    rw [StoredTable.matchesRow, List.all_map]
    simp only [Function.comp_def, haffinity, hcell]
    rfl
  rw [Store.count, h.has.shape, ok_bind, readConditions_texts hread hnames htexts, ok_bind, hoperands, ok_bind, hx, ok_bind,
    htests, ok_bind, hrow, List.countP_singleton, hmatches]
  rfl

end

/-! ## Predicates over texts -/

namespace Predicate

section
variable {context : Members} {expression : String}

/-- A condition that needs no order and whose operands have texts for values. Null can be compared with, and the only
operand of a list can be a sequence of texts. -/
inductive Condition.OverTexts (context : Members) (expression : String) : Condition → Prop
  | null {c : Column} {op : Operator} {o : Operand} : op.isOrder = false → o.value context expression = .ok .null →
      OverTexts context expression (.comparison c op o)
  | text {c : Column} {op : Operator} {o : Operand} {t : String} : op.isOrder = false →
      o.value context expression = .ok (.scalar (.text t)) → OverTexts context expression (.comparison c op o)
  | among {c : Column} {negated : Bool} {os : List Operand} {ts : List String} :
      Valued context expression os (ts.map fun t => .scalar (.text t)) → OverTexts context expression (.membership c negated os)
  | items {c : Column} {negated : Bool} {o : Operand} {v : Value} {ts : List String} : o.value context expression = .ok v →
      items? v = some (ts.map fun t => .scalar (.text t)) → ts ≠ [] → OverTexts context expression (.membership c negated [o])

theorem listed_texts (ts : List String) :
    listed (ts.map fun t => .scalar (.text t)) = (ts.map Scalar.text).map .scalar := by
  match ts with
  | [] => rfl
  | [_] => rfl
  | _ :: _ :: _ => simp [listed]

theorem Condition.OverTexts.bindsTo {c : Condition} (h : c.OverTexts context expression) (hne : c.operands ≠ []) :
    ∃ b, c.BindsTo context expression b ∧ b.OverTexts := by
  have hordered {op : Operator} {s : Scalar} (ho : op.isOrder = false) : op.isOrder = true → s ≠ .null :=
    fun ho' => absurd (ho.symm.trans ho') Bool.false_ne_true
  cases h with
  | null ho hv => exact ⟨_, .comparison hv (hordered ho), .null (against_isOrder ho _)⟩
  | text ho hv => exact ⟨_, .comparison hv (hordered ho), .text (against_isOrder ho _)⟩
  | @among _ _ os ts hvs =>
    refine ⟨_, .membership hvs (listed_texts ts) ?_, .among⟩
    intro hnil
    obtain rfl := List.map_eq_nil_iff.mp hnil
    exact hne (List.forall₂_nil_right_iff.mp hvs)
  | @items _ _ o v ts hv hi hts =>
    refine ⟨_, .membership (.cons hv .nil) ?_ (fun hnil => hts (List.map_eq_nil_iff.mp hnil)), .among⟩
    rw [listed_of_items hi, List.map_map]
    rfl

theorem bind_overTexts {p : Predicate} (hp : parse expression = .ok p)
    (htexts : ∀ c ∈ p.conditions, c.OverTexts context expression) :
    ∃ bs, p.bind context expression = .ok bs ∧ ∀ b ∈ bs, b.OverTexts := by
  have hbinds : ∀ c ∈ p.conditions, ∃ b, c.bind context expression = .ok b ∧ b.OverTexts := by
    intro c hc
    obtain ⟨b, hb, ho⟩ := (htexts c hc).bindsTo (operands_ne_nil hp c hc)
    exact ⟨b, bind_iff.mpr hb, ho⟩
  obtain ⟨bs, hbs⟩ := exists_mapM fun c hc => (hbinds c hc).imp fun _ h => h.1
  refine ⟨bs, hbs, fun b hb => ?_⟩
  obtain ⟨c, hc, hcb⟩ := exists_argument hbs b hb
  obtain ⟨b', hb', ho⟩ := hbinds c hc
  cases hcb.symm.trans hb'
  exact ho

end

end Predicate

/-- A store that holds a state as a text in its only row answers a predicate over texts as the evaluation of states does:
the clause of the predicate is read back, and this row is counted exactly if the state meets the predicate. -/
theorem evaluateState_agrees_with_count {expression : String} {context : Members} {p : Predicate} {store : Store}
    {t : TableShape} {c s : String} (hp : Predicate.parse expression = .ok p) (htable : p.table = none)
    (hcolumn : ∀ k ∈ p.columns, k = ⟨none, c⟩) (htexts : ∀ k ∈ p.conditions, k.OverTexts context expression)
    (hrow : store.HoldsOnly t c s) :
    ∃ clause b n, compileClause expression context = .ok clause ∧ evaluateState expression context (some s) = .ok b ∧
      store.count t.name clause = .ok n ∧ b = decide (0 < n) := by
  have hstate : IsStatePredicate expression p := by
    refine ⟨hp, htable, fun column op o hk => ?_⟩
    cases htexts _ hk with
    | null ho _ => exact ho
    | text ho _ => exact ho
  obtain ⟨bs, hb, hover⟩ := Predicate.bind_overTexts hp htexts
  have hsound : ∀ b ∈ bs, b.Formed ∧ ¬ Predicate.IsKeyword b.column ∧ b.column = c := by
    intro b hm
    obtain ⟨k, hk, hkb⟩ := exists_argument hb b hm
    have hkc := hcolumn _ (List.mem_map_of_mem hk)
    have hs := Predicate.sound_of_parseWith hp k hk
    rw [Predicate.bind_column hkb]
    exact ⟨hs.formed hkb fun x hx => ((hover b hm).plain x hx).1, hs.plain (by rw [hkc]), by rw [hkc]⟩
  have hrender : renderClause bs = .ok (clauseText bs) :=
    (renderClause_eq_ok fun b hm => (hsound b hm).1.regular).mpr ⟨fun b hm => (hover b hm).isWritable, rfl⟩
  have hread : readClause (clauseText bs) = .ok bs :=
    (Predicate.readClause_renderClause_iff (Predicate.bind_ne_nil hp hb) (fun b hm => (hsound b hm).1) hrender).mpr
      fun b hm => ⟨(hsound b hm).2.1, fun x hx => ((hover b hm).plain x hx).2⟩
  have hmeets : bs.all (BoundCondition.meets (some s)) = bs.all (BoundCondition.trueOf s) := by
    rw [Bool.eq_iff_iff, List.all_eq_true, List.all_eq_true]
    exact forall₂_congr fun b hm => by rw [(hover b hm).meets (hsound b hm).1.regular]
  have hcount := hrow.count hread (fun b hm => (hsound b hm).2.2) hover
  refine ⟨clauseText bs, bs.all (BoundCondition.trueOf s), _, ?_, ?_, hcount, ?_⟩
  · rw [Predicate.compileClause_of_bind hp hb, hrender]
    rfl
  · rw [evaluateState_eq hstate hb, hmeets]
  · cases bs.all (BoundCondition.trueOf s) <;> rfl

/-- A table of orders, one of which is open. -/
def orders : TableShape := ⟨"orders", [⟨"id", .integer, false⟩, ⟨"state", .string, true⟩]⟩

def openOrder : Store := ⟨[orders], [⟨orders, [[.int 7, .text "open"]]⟩]⟩

def stateText : String := "state IN ('open', :other) AND state != NULL AND state NOT IN (:closed)"

def statePredicate : Predicate where
  table := none
  conditions := [.membership ⟨none, "state"⟩ false [.literal (.text "open"), .param "other"],
    .comparison ⟨none, "state"⟩ .ne (.literal .null), .membership ⟨none, "state"⟩ true [.param "closed"]]

def stateContext : Members :=
  [(.text "other", .text "it's NULL"), (.text "closed", .list [.text "done", .text "open = 'open'"])]

theorem evaluateState_agrees_with_count_open :
    Predicate.parse stateText = .ok statePredicate ∧ statePredicate.table = none ∧
    (∀ k ∈ statePredicate.columns, k = ⟨none, "state"⟩) ∧
    (∀ k ∈ statePredicate.conditions, k.OverTexts stateContext stateText) ∧ openOrder.HoldsOnly orders "state" "open" ∧
    ∃ clause b n, compileClause stateText stateContext = .ok clause ∧
      evaluateState stateText stateContext (some "open") = .ok b ∧ openOrder.count "orders" clause = .ok n ∧
      b = decide (0 < n) := by
  have hp : Predicate.parse stateText = .ok statePredicate := by rfl
  have htexts : ∀ k ∈ statePredicate.conditions, k.OverTexts stateContext stateText := by
    intro k hk
    simp only [statePredicate, List.mem_cons, List.not_mem_nil, or_false] at hk
    rcases hk with rfl | rfl | rfl
    · have hvalued : Predicate.Valued stateContext stateText [.literal (.text "open"), .param "other"]
          (["open", "it's NULL"].map fun t => .scalar (.text t)) := .cons rfl (.cons rfl .nil)
      exact .among hvalued
    · exact .null rfl rfl
    · have hitems : Predicate.items? (.list [.text "done", .text "open = 'open'"]) =
          some (["done", "open = 'open'"].map fun t => .scalar (.text t)) := rfl
      exact .items rfl hitems (by decide)
  have hrow : openOrder.HoldsOnly orders "state" "open" :=
    ⟨⟨by decide, by decide⟩, by decide, ⟨⟨"state", .string, true⟩, by decide, rfl, .inl rfl⟩, ⟨_, rfl, rfl⟩⟩
  have hcolumn : ∀ k ∈ statePredicate.columns, k = ⟨none, "state"⟩ := by decide
  exact ⟨hp, rfl, hcolumn, htexts, hrow, evaluateState_agrees_with_count hp rfl hcolumn htexts hrow⟩

end Workflow
