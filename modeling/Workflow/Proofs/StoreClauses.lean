import Workflow.Compile
import Workflow.Proofs.Course
import Workflow.Proofs.Predicate.RoundTrip
import Workflow.Proofs.Value.Json

/-!
# The clauses a store is sent

An invocation sends its store the clauses of the predicates of its step, with values of JSON in them. Whether the store
reads such a clause back as what it was rendered from is decided by the predicate alone: its columns and its literals.
-/

namespace Workflow

/-! ## Values of JSON -/

theorem Scalar.IsJson.plain {s : Scalar} (h : s.IsJson) : s.Plain := by
  cases s with
  | float x =>
    refine ⟨h.2, ?_⟩
    rintro rfl
    cases h.1
  | date d => exact h
  | dateTime t => exact h
  | bytes bs => exact h
  | _ => trivial

theorem Scalar.IsJson.finite {s : Scalar} (h : s.IsJson) : ¬ s.IsInfinite := by
  rintro ⟨negative, rfl⟩
  cases h.1

theorem Value.IsJson.of_scalar {s : Scalar} (h : Value.IsJson (.scalar s)) : s.IsJson := by
  cases h with
  | scalar h => exact h

namespace Predicate

section
variable {expression : String} {context : Members} {p : Predicate} {bs : List BoundCondition}

theorem value_isJson {o : Operand} {v : Value} (hc : Value.IsJson (.mapping context))
    (h : o.value context expression = .ok v) : (∃ s, o = .literal s ∧ v = .scalar s) ∨ v.IsJson := by
  cases o with
  | literal s =>
    cases h
    exact .inl ⟨s, rfl, rfl⟩
  | template t =>
    exact .inr (Template.value_isJson hc (mapError_eq_ok.mp h))
  | param name =>
    simp only [Operand.value, Members.get?] at h
    cases hf : Members.find? context (.text name) with
    | none => simp [hf] at h
    | some w =>
      simp only [hf, Except.ok.injEq] at h
      exact .inr (h ▸ hc.find? hf)

theorem values_isJson {c : Condition} {b : BoundCondition} (hc : Value.IsJson (.mapping context))
    (h : c.bind context expression = .ok b) : ∀ s ∈ b.values, .literal s ∈ c.operands ∨ s.IsJson := by
  refine values_of_bind h fun o ho v hv => ?_
  rcases value_isJson hc hv with ⟨s, rfl, rfl⟩ | hj
  · exact .inl ho
  · cases hj with
    | scalar hs => exact .inr hs
    | list hi =>
      intro s hs
      exact .inr (hi _ hs).of_scalar
    | mapping _ _ => trivial

theorem formed_of_isJson (hp : parse expression = .ok p) (hc : Value.IsJson (.mapping context))
    (hb : p.bind context expression = .ok bs) : ∀ b ∈ bs, b.Formed := by
  intro b hm
  obtain ⟨c, hcm, h⟩ := exists_argument hb b hm
  have hs := sound_of_parseWith hp c hcm
  refine hs.formed h fun s hs' => ?_
  rcases values_isJson hc h s hs' with hl | hj
  · exact hs.literals s hl
  · exact hj.plain

theorem columns_of_bind (hb : p.bind context expression = .ok bs) :
    (∀ b ∈ bs, ¬ IsKeyword b.column) ↔ ∀ c ∈ p.columns, ¬ IsKeyword c.name := by
  constructor
  · intro h c hc
    obtain ⟨d, hd, rfl⟩ := List.mem_map.mp hc
    obtain ⟨b, hm, hdb⟩ := exists_result hb d hd
    exact bind_column hdb ▸ h b hm
  · intro h b hm
    obtain ⟨d, hd, hdb⟩ := exists_argument hb b hm
    exact bind_column hdb ▸ h _ (List.mem_map_of_mem hd)

theorem mem_literals {s : Scalar} : s ∈ p.literals ↔ ∃ c ∈ p.conditions, .literal s ∈ c.operands := by
  simp only [literals, operands, List.mem_filterMap, List.mem_flatMap]
  constructor
  · rintro ⟨o, ⟨c, hc, ho⟩, hs⟩
    cases o with
    | literal s' =>
      cases hs
      exact ⟨c, hc, ho⟩
    | template t => cases hs
    | param name => cases hs
  · rintro ⟨c, hc, ho⟩
    exact ⟨_, ⟨c, hc, ho⟩, rfl⟩

theorem infinite_of_bind (hc : Value.IsJson (.mapping context)) (hb : p.bind context expression = .ok bs) :
    (∀ b ∈ bs, ∀ s ∈ b.values, ¬ s.IsInfinite) ↔ ∀ s ∈ p.literals, ¬ s.IsInfinite := by
  constructor
  · intro h s hs
    obtain ⟨c, hcm, hs⟩ := mem_literals.mp hs
    obtain ⟨b, hm, hcb⟩ := exists_result hb c hcm
    exact h b hm s (literal_mem_values hcb hs)
  · intro h b hm s hs
    obtain ⟨c, hcm, hcb⟩ := exists_argument hb b hm
    rcases values_isJson hc hcb s hs with ho | hj
    · exact h s (mem_literals.mpr ⟨c, hcm, ho⟩)
    · exact hj.finite

/-- In a context of JSON the clause of a predicate is read back as what it was rendered from, exactly if no column has
the name of a keyword and no literal is infinite. -/
theorem readClause_bind_iff (hp : parse expression = .ok p) (hc : Value.IsJson (.mapping context))
    (hb : p.bind context expression = .ok bs) {text : String} (hr : renderClause bs = .ok text) :
    readClause text = .ok bs ↔ (∀ c ∈ p.columns, ¬ IsKeyword c.name) ∧ ∀ s ∈ p.literals, ¬ s.IsInfinite := by
  rw [readClause_renderClause_iff (bind_ne_nil hp hb) (formed_of_isJson hp hc hb) hr, ← columns_of_bind hb,
    ← infinite_of_bind hc hb, ← forall₂_and]

end

end Predicate

/-! ## Clauses of requests -/

/-- The predicates of a step that are sent to a store. -/
def Step.storePredicates (s : Step) : List String :=
  s.rules.input.exist.toList ++ s.rules.persist.filterMap PersistAction.clause?

def Request.clause? : Request → Option String
  | count q => some q.clause
  | update _ _ clause => clause
  | _ => none

theorem compileClause_of_existenceQuery {e : String} {context : Members} {fallback : Option String} {q : CountQuery}
    (h : existenceQuery e context fallback = .ok q) : compileClause e context = .ok q.clause := by
  obtain ⟨p, hp, hr⟩ := bind_eq_ok.mp h
  split at hr
  · cases hr
  · obtain ⟨bs, hb, hq⟩ := bind_eq_ok.mp hr
    obtain ⟨text, htext, hq⟩ := bind_eq_ok.mp hq
    cases hq
    simp [compileClause, hp, hb, htext]

theorem clause_of_prepare {a : PersistAction} {context : Members} {n : Nat} {p : Prepared}
    (h : a.prepare context n = .ok p) :
    ∀ text ∈ (p.request context).clause?, ∃ e ∈ a.clause?, compileClause e context = .ok text := by
  obtain ⟨⟨values, empty⟩, -, hr⟩ := bind_eq_ok.mp h
  obtain ⟨clause, hcl, he⟩ := bind_eq_ok.mp hr
  cases he
  intro text ht
  cases a with
  | update u =>
    simp only [Prepared.request, Request.clause?, Option.mem_def] at ht
    subst ht
    simp only [PersistAction.clause?] at hcl ⊢
    cases hu : u.clause with
    | none => simp [hu] at hcl
    | some e =>
      refine ⟨e, rfl, ?_⟩
      rw [hu, Option.mapM_some] at hcl
      cases hc : compileClause e context with
      | error f =>
        rw [hc] at hcl
        cases hcl
      | ok t =>
        rw [hc] at hcl
        cases hcl
        rfl
  | insert r => cases ht
  | log r => cases ht
  | custom c => cases ht

/-- What a predicate of a step is bound in: the payload, later with an output of JSON. -/
def IsContext (payload context : Members) : Prop :=
  context = payload ∨ ∃ output, Value.IsJson (.mapping output) ∧ context = resultContext payload output

theorem IsContext.isJson {payload context : Members} (h : IsContext payload context)
    (hp : Value.IsJson (.mapping payload)) : Value.IsJson (.mapping context) := by
  rcases h with rfl | ⟨output, ho, rfl⟩
  · exact hp
  · exact hp.put ho "result"

theorem Step.Asks.clause {step : Step} {payload : Members} {r : Request} (h : step.Asks payload Value.IsJson r) :
    ∀ text ∈ r.clause?, ∃ e ∈ step.storePredicates, ∃ context, IsContext payload context ∧
      compileClause e context = .ok text := by
  intro text ht
  cases h with
  | input hr =>
    cases hr with
    | @count e q he hq =>
      cases ht
      exact ⟨e, by simp [storePredicates, he], payload, .inl rfl, compileClause_of_existenceQuery hq⟩
    | file _ _ => cases ht
  | body => cases ht
  | output _ hr =>
    cases hr
    cases ht
  | @persist output r ho hr =>
    cases hr with
    | @action a n p ha hp =>
      obtain ⟨e, he, hc⟩ := clause_of_prepare hp text ht
      have hm : e ∈ step.storePredicates := List.mem_append_right _ (List.mem_filterMap.mpr ⟨a, ha, he⟩)
      exact ⟨e, hm, resultContext payload output, .inr ⟨output, ho, rfl⟩, hc⟩

/-! ## Recorded requests -/

section
variable {σ : Type}

/-- The clauses that an invocation sends to a store, in order. -/
def Plan.sentClauses (p : Plan) (h : Host σ) (c : Capabilities) (name : String) (payload : Members)
    (current : Option String) (state : σ) : List String :=
  (p.requests h c name payload current state).filterMap Request.clause?

variable {plan : Plan} {h : Host σ} {c : Capabilities} {name : String} {payload : Members} {current : Option String}
  {state : σ}

/-- **A clause that the store is sent is read back as what it was rendered from**, exactly if its predicate has no column
with the name of a keyword and no infinite literal. -/
theorem sentClauses_read_back (hp : Value.IsJson (.mapping payload))
    (hb : ∀ s v, (h (.body payload) s).1 = .ok v → v.IsJson) :
    ∀ text ∈ plan.sentClauses h c name payload current state, ∃ step e context p bs,
      plan.step name = .ok step ∧ e ∈ step.storePredicates ∧ IsContext payload context ∧ Predicate.parse e = .ok p ∧
      p.bind context e = .ok bs ∧ renderClause bs = .ok text ∧
      (readClause text = .ok bs ↔
        (∀ c ∈ p.columns, ¬ Predicate.IsKeyword c.name) ∧ ∀ s ∈ p.literals, ¬ s.IsInfinite) := by
  intro text ht
  obtain ⟨r, hr, ht⟩ := List.mem_filterMap.mp ht
  obtain ⟨step, hs, ha⟩ := requests_asked hb r hr
  obtain ⟨e, he, context, hc, hcc⟩ := ha.clause text ht
  obtain ⟨p, hpe, hrest⟩ := bind_eq_ok.mp hcc
  obtain ⟨bs, hbs, htext⟩ := bind_eq_ok.mp hrest
  have hr : renderClause bs = .ok text := mapError_eq_ok.mp htext
  exact ⟨step, e, context, p, bs, hs, he, hc, hpe, hbs, hr, Predicate.readClause_bind_iff hpe (hc.isJson hp) hbs hr⟩

end

/-! ## A column with the name of a keyword -/

section
open Plan (entry names)

/-- A manifest whose step asks for an order with a one in a column. -/
def shop (column : String) : Value := .mapping [
  entry "product" (.mapping [entry "name" (.text "shop"), entry "version" (.text "1"), entry "description" (.text "")]),
  entry "state_machine" (.mapping [
    entry "initial" (.text "open"),
    entry "states" (.list [.mapping [entry "name" (.text "open"), entry "terminal" (.bool true)]])]),
  entry "events" (.mapping [
    entry "namespace" (.text "shop"),
    entry "definitions" (.list [.mapping [entry "name" (.text "ordered"), entry "payload" (.mapping [])]])]),
  entry "database" (.mapping [
    entry "actors" (.list [.mapping [entry "name" (.text "clerk"), entry "identifier" (.text "clerk()")]]),
    entry "tables" (.list [.mapping [
      entry "name" (.text "orders"),
      entry "columns" (.list [.mapping [entry "name" (.text column), entry "type" (.text "integer")]]),
      entry "access" (.list [.mapping [
        entry "actor" (.text "clerk"),
        entry "operations" (names ["SELECT"]),
        entry "condition" (.text ("orders." ++ column ++ " = :actor"))]])]])]),
  entry "functions" (.list [.mapping [
    entry "name" (.text "take"),
    entry "pattern" (.text "simple"),
    entry "description" (.text ""),
    entry "trigger" (.mapping [entry "event" (.text "ordered")]),
    entry "validate_input" (.mapping [entry "exists" (.text ("orders." ++ column ++ " = 1"))])]])]

/-- The plan of a document that is accepted. -/
def planOf (document : Value) : Option Plan :=
  match compile .standard none none (Manifest.load document) with
  | .ok c => c.plan
  | .error _ => none

/-- A host that does all it is asked. -/
def obliging : Host Unit
  | .count _, s => (.ok 1, s)
  | .artifact _, s => (.ok true, s)
  | .body _, s => (.ok (.mapping [entry "success" (.bool true)]), s)
  | .update .., s => (.ok (some 1), s)
  | .insert .., s => (.ok (), s)
  | .log .., s => (.ok (), s)
  | .custom .., s => (.ok (), s)

def everything : Capabilities := ⟨true, true, true, [], []⟩

theorem obliging_isJson (payload : Members) :
    ∀ s v, (obliging (.body payload) s).1 = .ok v → v.IsJson := by
  rintro s _ ⟨⟩
  exact .mapping (by simp [entry]) (by simpa [entry] using Value.IsJson.scalar (s := .bool true) trivial)

theorem sentClauses_read_back_paid : ∃ plan, planOf (shop "paid") = some plan ∧
    plan.sentClauses obliging everything "take" [] none () = ["paid = 1"] ∧
    Value.IsJson (.mapping []) ∧ (∀ s v, (obliging (.body []) s).1 = .ok v → v.IsJson) ∧
    ∃ step e context p bs, plan.step "take" = .ok step ∧ e ∈ step.storePredicates ∧ IsContext [] context ∧
      Predicate.parse e = .ok p ∧ p.bind context e = .ok bs ∧ renderClause bs = .ok "paid = 1" ∧
      (readClause "paid = 1" = .ok bs ↔
        (∀ c ∈ p.columns, ¬ Predicate.IsKeyword c.name) ∧ ∀ s ∈ p.literals, ¬ s.IsInfinite) := by
  have hc : (planOf (shop "paid")).any (fun plan =>
      decide (plan.sentClauses obliging everything "take" [] none () = ["paid = 1"])) = true := by
    decide +kernel
  obtain ⟨plan, hp, hc⟩ := (Option.any_eq_true ..).mp hc
  rw [decide_eq_true_eq] at hc
  have hj : Value.IsJson (.mapping []) := .mapping (by simp) (by simp)
  refine ⟨plan, hp, hc, hj, obliging_isJson [], ?_⟩
  exact sentClauses_read_back hj (obliging_isJson []) "paid = 1" (by rw [hc]; simp)

/-- A manifest that is accepted, and whose step sends the store a clause that is no predicate. -/
theorem sentClauses_unreadable : ∃ plan, planOf (shop "not") = some plan ∧
    plan.sentClauses obliging everything "take" [] none () = ["not = 1"] ∧
    ∀ p, Predicate.parseClause "not = 1" ≠ .ok p := by
  have hc : (planOf (shop "not")).any (fun plan =>
      decide (plan.sentClauses obliging everything "take" [] none () = ["not = 1"])) = true := by
    decide +kernel
  have hr : (fault? (Predicate.parseClause "not = 1")).any (fun _ => true) = true := by decide
  obtain ⟨plan, hp, hc⟩ := (Option.any_eq_true ..).mp hc
  obtain ⟨f, hf, -⟩ := any_fault?.mp hr
  rw [decide_eq_true_eq] at hc
  refine ⟨plan, hp, hc, fun p h => ?_⟩
  rw [hf] at h
  cases h

end

end Workflow
