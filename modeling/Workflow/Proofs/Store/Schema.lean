import Workflow.Proofs.Reporting
import Workflow.Proofs.Store.Refusals

/-!
# Actions on declared tables

The persist actions of an accepted manifest name declared tables and columns of them. What is resolved and rendered for an
action names the same ones. So a store with the tables of the manifest never refuses an action because a name is not
there, whatever its tables hold.
-/

namespace Workflow

/-! ## What an action is resolved to -/

section
variable {context : Members} {n : Nat} {a : PersistAction} {p : Prepared} {t : Table} {shape : TableShape}

theorem columns_of_resolveAssignments {values : Assignments} {r : Row × List String}
    (h : resolveAssignments context values = .ok r) : ∀ e ∈ r.1, ∃ v ∈ values, v.1 = e.1 := by
  obtain ⟨resolved, hr, h⟩ := bind_eq_ok.mp h
  cases h
  intro e he
  obtain ⟨x, hx, rfl⟩ := List.mem_map.mp he
  obtain ⟨v, hv, hvx⟩ := exists_argument hr x hx
  refine ⟨v, hv, ?_⟩
  cases hy : resolveScalar context v.2 with
  | error f => simp [hy, Except.map] at hvx
  | ok y =>
    simp only [hy, Except.map, Except.ok.injEq] at hvx
    simp [← hvx]

theorem columns_of_prepare (h : a.prepare context n = .ok p) : ∀ e ∈ p.values, ∃ v ∈ a.assignments, v.1 = e.1 := by
  obtain ⟨⟨values, empty⟩, hv, h⟩ := bind_eq_ok.mp h
  obtain ⟨clause, -, h⟩ := bind_eq_ok.mp h
  cases h
  exact columns_of_resolveAssignments hv

theorem columns_of_compileClause {e text : String} {q : Predicate} {bs : List BoundCondition}
    (hq : Predicate.parse e = .ok q) (h : compileClause e context = .ok text) (hr : readClause text = .ok bs) :
    ∀ b ∈ bs, ∃ c ∈ q.columns, c.name = b.column := by
  obtain ⟨q', hq', h⟩ := bind_eq_ok.mp h
  cases hq.symm.trans hq'
  obtain ⟨cs, hcs, h⟩ := bind_eq_ok.mp h
  have hcolumns := Predicate.columns_of_readClause (Predicate.bind_ne_nil hq hcs) (Predicate.regular_of_bind hq hcs)
    (mapError_eq_ok.mp h) hr
  intro b hb
  have hm : b.column ∈ cs.map BoundCondition.column := hcolumns ▸ List.mem_map_of_mem hb
  obtain ⟨b', hb', he⟩ := List.mem_map.mp hm
  obtain ⟨d, hd, hdb⟩ := exists_argument hcs b' hb'
  exact ⟨d.column, List.mem_map_of_mem hd, by rw [← he, Predicate.bind_column hdb]⟩

theorem declares_shape (hs : t.shape? = some shape) {column : String} (h : t.Declares column) :
    column ∈ shape.columnNames := by
  obtain ⟨cs, hcs, rfl⟩ := Option.map_eq_some_iff.mp hs
  have := h (cs.map Column.name) (by simp [Table.columnNames?, hcs])
  simpa [TableShape.columnNames, Function.comp_def] using this

theorem shape_name (hs : t.shape? = some shape) : shape.name = t.name := by
  obtain ⟨cs, -, rfl⟩ := Option.map_eq_some_iff.mp hs
  rfl

theorem values_on_shape (hs : t.shape? = some shape) (hv : ∀ v ∈ a.assignments, t.Declares v.1)
    (h : a.prepare context n = .ok p) : ∀ e ∈ p.values, e.1 ∈ shape.columnNames := by
  intro e he
  obtain ⟨v, hm, hve⟩ := columns_of_prepare h e he
  exact hve ▸ declares_shape hs (hv v hm)

theorem exists_shape {tables : List Table} (ht : ∀ t ∈ tables, t.columns.isSome) {name : String} {P : Table → Prop}
    (h : ∃ t ∈ tables, t.name = name ∧ P t) :
    ∃ t shape, P t ∧ t.shape? = some shape ∧ shape ∈ tables.filterMap Table.shape? ∧ shape.name = name := by
  obtain ⟨t, hm, hn, hp⟩ := h
  obtain ⟨cs, hcs⟩ := Option.isSome_iff_exists.mp (ht t hm)
  have hs : t.shape? = some ⟨t.name, cs.map fun c => ⟨c.name, .ofType c.type, c.nullable⟩⟩ := by simp [Table.shape?, hcs]
  exact ⟨t, _, hp, hs, List.mem_filterMap.mpr ⟨t, hm, hs⟩, hn⟩

/-- An action on declared tables asks for a table and columns that are declared, or runs custom code. -/
theorem writesOn_of_prepare {tables : List Table} (hc : a.Closed tables) (ht : ∀ t ∈ tables, t.columns.isSome)
    (h : a.prepare context n = .ok p) : (∃ c, a = .custom c) ∨
      ∃ shape ∈ tables.filterMap Table.shape?, (p.request context).WritesOn shape := by
  have hclause := clause_of_prepare h
  obtain ⟨ha, -⟩ := prepare_fields h
  cases a with
  | update u =>
    obtain ⟨t, shape, ⟨hv, hp⟩, hs, hm, hn⟩ := exists_shape ht hc
    refine .inr ⟨shape, hm, ?_⟩
    simp only [Prepared.request, ha, ← hn] at hclause ⊢
    refine .update (values_on_shape (a := .update u) hs hv h) fun text htext bs hbs b hb => ?_
    obtain ⟨expression, he, hct⟩ := hclause text htext
    obtain ⟨q, hq⟩ := hp expression he
    obtain ⟨c, hm, hcb⟩ := columns_of_compileClause hq.parse hct hbs b hb
    exact hcb ▸ declares_shape hs (hq.columns c hm)
  | insert r =>
    obtain ⟨t, shape, hv, hs, hm, hn⟩ := exists_shape ht hc
    refine .inr ⟨shape, hm, ?_⟩
    simp only [Prepared.request, ha, ← hn]
    exact .insert (values_on_shape (a := .insert r) hs hv h)
  | log r =>
    obtain ⟨t, shape, hv, hs, hm, hn⟩ := exists_shape ht hc
    refine .inr ⟨shape, hm, ?_⟩
    simp only [Prepared.request, ha, ← hn]
    exact .log (values_on_shape (a := .log r) hs hv h)
  | custom c => exact .inl ⟨c, rfl⟩

end

/-! ## Hosts with a store -/

section
variable {σ : Type}

/-- A host has a store: what is asked of a store is answered by it, and what else is asked leaves its tables there. -/
structure Host.Serves (h : Host σ) (store : σ → Store) : Prop where
  answered : ∀ r s a, (store s).answer? r = some a → (h r s).1 = a.1 ∧ store (h r s).2 = a.2
  kept : ∀ r s, (store s).answer? r = none → (store s).Precedes (store (h r s).2)

/-- A store in front of a host that answers what is not asked of a store. -/
def Store.before (h : Host σ) : Host (Store × σ) := fun r s =>
  match s.1.answer? r with
  | some (reply, store) => (reply, store, s.2)
  | none =>
    let (reply, state) := h r s.2
    (reply, s.1, state)

theorem Store.before_serves (h : Host σ) : (Store.before h).Serves Prod.fst := by
  constructor
  · intro r s a ha
    simp [Store.before, ha]
  · intro r s ha
    simp only [Store.before, ha]
    exact .refl _

/-- Nothing that failed failed for want of a table or a column, custom code aside. What a list of actions stopped for and
what its records say of errors are such failures, or there was no request. -/
structure Spared (t : List Refusal) (x : Except PersistFault (List MutationRecord)) : Prop where
  refused : ∀ e ∈ t, (∃ ref context, e.1 = .custom ref context) ∨ ∃ f, e.2 = .store f ∧ ¬ e.1.Misses f
  cause : ∀ f, x = .error (.failed f) → (∃ ref, f.cause = .unregistered ref) ∨ ∃ r, (r, f.cause) ∈ t
  records : ErrorsTold t (reported x)

variable {h : Host σ} {store : σ → Store}

theorem Host.Serves.precedes (hh : h.Serves store) (r : Request) (s : σ) : (store s).Precedes (store (h r s).2) := by
  cases ha : (store s).answer? r with
  | none => exact hh.kept r s ha
  | some a =>
    rw [(hh.answered r s a ha).2]
    exact Store.precedes_answer ha

theorem Host.Serves.faults (hh : h.Serves store) {r : Request} {s : σ} {t : TableShape} {f : Failure} (ht : (store s).Has t)
    (hr : r.WritesOn t) (hf : (h r s).1 = .error f) : ∃ g, f = .store g ∧ ¬ r.Misses g := by
  obtain ⟨a, ha, hfaults⟩ := Store.answer_faults ht hr
  exact hfaults f ((hh.answered r s a ha).1 ▸ hf)

theorem applyActions_spared {tables : List Table} (hh : h.Serves store) (hcolumns : ∀ t ∈ tables, t.columns.isSome)
    {actions : List PersistAction} (hactions : ∀ a ∈ actions, a.Closed tables) (registered : List String)
    (context : Members) : Run.Remembers (fun s => ∀ t ∈ tables.filterMap Table.shape?, (store s).Has t)
      (applyActions h registered context actions) (applyActions (reporting h) registered context actions) Spared := by
  cases hp : prepareAll context 0 actions with
  | error f =>
    simp only [applyActions, hp]
    exact .pure ⟨by simp, nofun, by simp [ErrorsTold, reported]⟩
  | ok ps =>
    have hkeep : ∀ r s, (∀ t ∈ tables.filterMap Table.shape?, (store s).Has t) →
        ∀ t ∈ tables.filterMap Table.shape?, (store (h r s).2).Has t :=
      fun r s hs t ht => (hs t ht).precedes (hh.precedes r s)
    refine (applyActions_reports hkeep hp).mono fun t x hx => ?_
    obtain ⟨y, rfl, ht⟩ := hx
    refine ⟨fun e he => ?_, fun f hf => ?_, ?_⟩
    · obtain ⟨p, hm, hr, s, hs, hf⟩ := ht.refused e he
      obtain ⟨a, ha, hap⟩ := (exists_of_forall₂ (prepareAll_prepared hp).1).2 p hm
      obtain ⟨c, rfl⟩ | ⟨shape, hshape, hw⟩ := writesOn_of_prepare (hactions a ha) hcolumns hap
      · left
        exact ⟨c.ref, context, by rw [hr, Prepared.request, (prepare_fields hap).1]⟩
      · exact .inr (hh.faults (hs shape hshape) (hr ▸ hw) hf)
    · cases y with
      | ok rs => cases hf
      | error g =>
        obtain rfl : g = f := by simpa [Except.mapError] using hf
        exact ht.cause g rfl
    · obtain ⟨rs, hrs, he⟩ := ht.records
      rw [hrs]
      exact he

variable {settings : Settings} {custom : Option (List String)} {source : Option String}
  {loaded : Except (List Diagnostic) Manifest} {c : Compilation} {plan : Plan}

theorem shape_names {tables : List Table} :
    ((tables.filterMap Table.shape?).map TableShape.name).Sublist (tables.map Table.name) := by
  induction tables with
  | nil => exact .slnil
  | cons t tables ih =>
    rw [List.filterMap_cons]
    cases hs : t.shape? with
    | none => exact ih.cons _
    | some shape =>
      rw [List.map_cons, List.map_cons, shape_name hs]
      exact ih.cons_cons _

theorem step_closed (hc : plan.manifest.Closed) (hi : plan.Indexes) {name : String} {s : Step} (h : plan.step name = .ok s) :
    ∀ a ∈ s.rules.persist, a.Closed plan.manifest.database.tables := by
  obtain hm | hm := List.mem_append.mp (hi.declared h)
  · obtain ⟨a, ha, rfl⟩ := List.mem_map.mp hm
    exact (hc.agents a ha).rules.persist
  · obtain ⟨f, hf, rfl⟩ := List.mem_map.mp hm
    exact (hc.functions f hf).rules.persist

/-- **No action of an accepted manifest fails because a table or a column is not there.** The store has the tables that
were created for the manifest, with whatever rows. -/
theorem applyActions_declared (hc : compile settings custom source loaded = .ok c) (hp : c.plan = some plan)
    (hcolumns : ∀ t ∈ plan.manifest.database.tables, t.columns.isSome) {created : Store} {names : List String}
    (hcreated : Store.empty.createTables plan.manifest.database.tables = (created, .ok names)) (hh : h.Serves store)
    {name : String} {s : Step} (hs : plan.step name = .ok s) {session : Session σ}
    (hsession : created.Precedes (store session.state)) (registered : List String) (payload output : Members) :
    ∃ t x session', applyActions h registered (resultContext payload output) s.rules.persist session = (x, session') ∧
      applyActions (reporting h) registered (resultContext payload output) s.rules.persist (session.reported []) =
        (x, session'.reported t) ∧ Spared t x := by
  obtain ⟨-, hsound⟩ := compile_sound hc hp
  have hhas := Store.has_of_createTables (hsound.distinct.tables.sublist shape_names) hcreated
  have hactions := step_closed hsound.closed (compile_indexes hc hp) hs
  obtain ⟨t, he, -, ht⟩ := applyActions_spared hh hcolumns hactions registered (resultContext payload output)
    session [] fun shape hm => (hhas shape hm).precedes hsession
  exact ⟨t, _, _, rfl, he, ht⟩

end

open Plan (entry)

def noted : Value := .mapping [
  entry "action" (.text "log"),
  entry "table" (.text "orders"),
  entry "data" (.mapping [entry "id" (.text "\x7b\x7b id \x7d\x7d")])]

/-- A document whose step adds a row, makes an entry of what its payload says, and changes the rows of a name. -/
def noting : Value := ledger [inserted "a", noted, renamed "id = 'a'"]

/-- A payload with a sequence for the entry, which is no value of a cell. -/
def sequenced : Members := [(.text "id", .list [])]

/-- The actions of the document for this payload, over a store with the tables of the document. -/
def notingRun (h : Host (Store × Unit)) (created : Store) (s : Step) (failed : List Refusal) :
    Except PersistFault (List MutationRecord) × Session ((Store × Unit) × List Refusal) :=
  applyActions (reporting h) [] (resultContext sequenced []) s.rules.persist ⟨((created, ()), failed), []⟩

theorem applyActions_declared_noting : ∃ c plan created s t x session',
    compile .standard none none (Manifest.load noting) = .ok c ∧ c.plan = some plan ∧
    (∀ t ∈ plan.manifest.database.tables, t.columns.isSome) ∧
    Store.empty.createTables plan.manifest.database.tables = (created, .ok ["orders"]) ∧
    (Store.before obliging).Serves Prod.fst ∧ plan.step "take" = .ok s ∧
    applyActions (Store.before obliging) [] (resultContext sequenced []) s.rules.persist ⟨(created, ()), []⟩ =
      (x, session') ∧
    notingRun (Store.before obliging) created s [] = (x, session'.reported t) ∧ Spared t x ∧ t.length = 1 := by
  have hcheck : (compile .standard none none (Manifest.load noting)).toOption.any (fun c => c.plan.any fun plan =>
      let (created, names) := Store.empty.createTables plan.manifest.database.tables
      plan.manifest.database.tables.all (fun t => t.columns.isSome) && names.toOption.any (fun ns => decide (ns = ["orders"])) &&
        (plan.step "take").toOption.any fun s =>
          decide ((notingRun (Store.before obliging) created s []).2.state.2.length = 1)) = true := by
    decide +kernel
  obtain ⟨c, hc, h⟩ := any_toOption.mp hcheck
  obtain ⟨plan, hp, h⟩ := (Option.any_eq_true ..).mp h
  cases hcreated : Store.empty.createTables plan.manifest.database.tables with
  | mk created r =>
  simp only [hcreated, Bool.and_eq_true] at h
  obtain ⟨⟨hcolumns, hnames⟩, h⟩ := h
  obtain ⟨names, rfl, hn⟩ := any_toOption.mp hnames
  obtain ⟨s, hs, hone⟩ := any_toOption.mp h
  rw [decide_eq_true_eq] at hn hone
  subst hn
  have hcolumns := List.all_eq_true.mp hcolumns
  have hserves := Store.before_serves obliging
  have hsession : created.Precedes (⟨(created, ()), []⟩ : Session (Store × Unit)).state.1 := .refl created
  obtain ⟨t, x, session', hrun, hreported, ht⟩ :=
    applyActions_declared hc hp hcolumns hcreated hserves hs hsession [] sequenced []
  refine ⟨c, plan, created, s, t, x, session', hc, hp, hcolumns, hcreated, hserves, hs, hrun, hreported, ht, ?_⟩
  have := congrArg (fun r => r.2.state.2.length) hreported
  exact this.symm.trans hone

end Workflow
