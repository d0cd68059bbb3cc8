import Workflow.Proofs.Check.Closed
import Workflow.Proofs.States
import Workflow.Proofs.StoreClauses

/-!
# Literals that name states

The check of a manifest takes a literal of a state predicate for the state whose name is the text of the literal. A
condition takes it for what it is. Both agree on texts. A number or a truth value has the text of a state, but no state
is equal to it.
-/

namespace Workflow

namespace Predicate

/-- A condition is about the state that a literal of it names. -/
inductive Condition.Names (v : Scalar) : Condition → Prop
  | equal {c : Column} : Names v (.comparison c .eq (.literal v))
  | unequal {c : Column} : Names v (.comparison c .ne (.literal v))
  | among {c : Column} {negated : Bool} {os : List Operand} : .literal v ∈ os → Names v (.membership c negated os)

/-- Whether a condition is meant to hold in the states that its literals name. -/
def Condition.affirms : Condition → Bool
  | comparison _ op _ => op == .eq
  | membership _ negated _ => !negated

section
variable {context : Members} {expression : String} {k : Condition} {b : BoundCondition} {v : Scalar} {s : String}

theorem Condition.Names.literal (h : k.Names v) : .literal v ∈ k.operands := by
  cases h with
  | equal => exact List.mem_singleton.mpr rfl
  | unequal => exact List.mem_singleton.mpr rfl
  | among h => exact h

/-- A state is taken for one that a condition names exactly if it is one of its values, as a text. -/
theorem Condition.Names.meets_iff (h : k.Names v) (hv : v ≠ .null) (hb : k.BindsTo context expression b) :
    b.meets (some s) = k.affirms ↔ .text s ∈ b.values := by
  cases h with
  | @equal c =>
    cases hb with
    | comparison hvalue _ =>
      cases hvalue
      rw [Operator.against, if_neg hv, BoundCondition.meets_eq rfl, BoundCondition.values, List.mem_singleton]
      exact beq_iff_eq
  | @unequal c =>
    cases hb with
    | comparison hvalue _ =>
      cases hvalue
      rw [Operator.against, if_neg hv, BoundCondition.meets_eq rfl, BoundCondition.values, List.mem_singleton]
      exact bne_eq_false_iff_eq
  | @among c negated os _ =>
    cases hb with
    | @membership _ _ _ vs ss _ _ _ =>
      rw [BoundCondition.meets_eq rfl, BoundCondition.values, ← List.contains_iff_mem]
      change (ss.contains (.text s) != negated) = !negated ↔ _
      cases ss.contains (.text s) <;> cases negated <;> decide

theorem exists_names {p : Predicate} (hp : IsStatePredicate expression p) (hl : v ∈ p.literals) (hv : v ≠ .null) :
    ∃ k ∈ p.conditions, k.Names v := by
  obtain ⟨k, hk, ho⟩ := mem_literals.mp hl
  refine ⟨k, hk, ?_⟩
  cases k with
  | membership c negated os => exact .among ho
  | comparison c op o =>
    obtain rfl := List.mem_singleton.mp ho
    have horder := hp.operators c op _ hk
    -- a test for null has no other literal
    have hnull := (sound_of_parseWith hp.parse _ hk).nullTest c op _ rfl
    cases op with
    | eq => exact .equal
    | ne => exact .unequal
    | isNull =>
      cases hnull (.inl rfl)
      exact absurd rfl hv
    | notNull =>
      cases hnull (.inr rfl)
      exact absurd rfl hv
    | _ => cases horder

end

end Predicate

theorem declared_of_checkStatePredicate {m : Manifest} {location : Location} {expression : String} {p : Predicate}
    (h : Passes (m.checkStatePredicate location expression)) (hp : Predicate.parse expression = .ok p) :
    ∀ v ∈ p.literals, v ≠ .null → m.hasState v.plainText = true := by
  intro v hl hv
  unfold Manifest.checkStatePredicate at h
  rw [hp] at h
  have hstates := passes_flatMap.mp (passes_append.mp h).2
  have hname := checkState_passes.mp (hstates v (List.mem_filter.mpr ⟨hl, bne_iff_ne.mpr hv⟩))
  rwa [Manifest.hasState, List.contains_iff_mem]

/-- Every literal that the check of a state predicate reports nothing about has the text of a declared state. In this
state the conditions with the literal are decided as the literal asks for exactly if it is a text, or stands in a list
with its text beside it. -/
theorem checkStatePredicate_literals {m : Manifest} {location : Location} {expression : String}
    (h : m.checkStatePredicate location expression = []) :
    ∃ p, Predicate.parse expression = .ok p ∧ ∀ v ∈ p.literals, v ≠ .null →
      m.hasState v.plainText = true ∧ (∃ k ∈ p.conditions, k.Names v) ∧
      ∀ context bs, p.bind context expression = .ok bs →
        evaluateState expression context (some v.plainText) = .ok (bs.all (BoundCondition.meets (some v.plainText))) ∧
        List.Forall₂ (fun k b => k.Names v → (b.meets (some v.plainText) = k.affirms ↔
          (∃ t, v = .text t) ∨ .text v.plainText ∈ b.values)) p.conditions bs := by
  have hpasses : Passes (m.checkStatePredicate location expression) := by
    rw [h]
    exact fun _ hl => absurd hl List.not_mem_nil
  obtain ⟨p, hp⟩ := checkStatePredicate_passes hpasses
  refine ⟨p, hp.parse, fun v hl hv => ⟨declared_of_checkStatePredicate hpasses hp.parse v hl hv, ?_, ?_⟩⟩
  · exact Predicate.exists_names hp hl hv
  · intro context bs hbs
    refine ⟨evaluateState_eq hp hbs, (mapM_eq_ok.mp hbs).imp fun k b hb hk => ?_⟩
    rw [hk.meets_iff hv (Predicate.bind_iff.mp hb), iff_or_self]
    rintro ⟨t, rfl⟩
    exact Predicate.literal_mem_values hb hk.literal

/-! ## States with numbers for names -/

section
open Plan (entry)

/-- A manifest with the states `open` and `1`, and a step that asks for some states. -/
def counted (states : String) : Value := .mapping [
  entry "product" (.mapping [entry "name" (.text "counted"), entry "version" (.text "1"), entry "description" (.text "")]),
  entry "state_machine" (.mapping [
    entry "initial" (.text "open"),
    entry "states" (.list [
      .mapping [entry "name" (.text "open"), entry "transitions_to" (.list [.text "1"])],
      .mapping [entry "name" (.text "1"), entry "terminal" (.bool true)]])]),
  entry "events" (.mapping [
    entry "namespace" (.text "counted"),
    entry "definitions" (.list [.mapping [entry "name" (.text "ordered"), entry "payload" (.mapping [])]])]),
  entry "database" (.mapping [entry "tables" (.list [])]),
  entry "functions" (.list [.mapping [
    entry "name" (.text "take"),
    entry "pattern" (.text "simple"),
    entry "description" (.text ""),
    entry "trigger" (.mapping [entry "event" (.text "ordered")]),
    entry "validate_input" (.mapping [entry "state" (.text states)])]])]

theorem checkStatePredicate_literals_counted : ∃ plan p,
    planOf (counted "status IN (open, 1) AND status != 'open'") = some plan ∧
    plan.manifest.checkStatePredicate [] "status IN (open, 1) AND status != 'open'" = [] ∧
    Predicate.parse "status IN (open, 1) AND status != 'open'" = .ok p ∧ ∀ v ∈ p.literals, v ≠ .null →
      plan.manifest.hasState v.plainText = true ∧ (∃ k ∈ p.conditions, k.Names v) ∧
      ∀ context bs, p.bind context "status IN (open, 1) AND status != 'open'" = .ok bs →
        evaluateState "status IN (open, 1) AND status != 'open'" context (some v.plainText) =
          .ok (bs.all (BoundCondition.meets (some v.plainText))) ∧
        List.Forall₂ (fun k b => k.Names v → (b.meets (some v.plainText) = k.affirms ↔
          (∃ t, v = .text t) ∨ .text v.plainText ∈ b.values)) p.conditions bs := by
  have hcheck : (planOf (counted "status IN (open, 1) AND status != 'open'")).any (fun plan =>
      (plan.manifest.checkStatePredicate [] "status IN (open, 1) AND status != 'open'").isEmpty) = true := by
    decide +kernel
  obtain ⟨plan, hplan, hempty⟩ := (Option.any_eq_true ..).mp hcheck
  have hnone := List.isEmpty_iff.mp hempty
  obtain ⟨p, hp, hliterals⟩ := checkStatePredicate_literals hnone
  exact ⟨plan, p, hplan, hnone, hp, hliterals⟩

/-- A step of a manifest that is accepted asks for a state by a number, and the check takes it for a state that there is.
The step runs in no state. -/
theorem evaluateState_number : ∃ plan step p,
    planOf (counted "status = 1") = some plan ∧ plan.step "take" = .ok step ∧ step.rules.input.state = some "status = 1" ∧
    plan.manifest.checkStatePredicate [] "status = 1" = [] ∧ Predicate.parse "status = 1" = .ok p ∧
    p.literals = [.int 1] ∧ plan.manifest.hasState (Scalar.int 1).plainText = true ∧
    ∀ context state, evaluateState "status = 1" context state = .ok false := by
  have hcheck : (planOf (counted "status = 1")).any (fun plan =>
      (plan.step "take").toOption.any (fun step => decide (step.rules.input.state = some "status = 1")) &&
        (plan.manifest.checkStatePredicate [] "status = 1").isEmpty &&
        plan.manifest.hasState (Scalar.int 1).plainText) = true := by
    decide +kernel
  obtain ⟨plan, hplan, hcheck⟩ := (Option.any_eq_true ..).mp hcheck
  simp only [Bool.and_eq_true] at hcheck
  obtain ⟨⟨hstep, hempty⟩, hstate⟩ := hcheck
  obtain ⟨step, hstep, hinput⟩ := any_toOption.mp hstep
  have hp : Predicate.parse "status = 1" = .ok ⟨none, [.comparison ⟨none, "status"⟩ .eq (.literal (.int 1))]⟩ := by rfl
  refine ⟨plan, step, _, hplan, hstep, of_decide_eq_true hinput, List.isEmpty_iff.mp hempty, hp, rfl, hstate, ?_⟩
  intro context state
  rw [evaluateState, hp]
  cases state <;> rfl

end

end Workflow
