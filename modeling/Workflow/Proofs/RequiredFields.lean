import Workflow.Proofs.OutputChecks
import Workflow.Proofs.Rejections
import Workflow.Proofs.Template.DottedPaths

/-!
# Fields that are there

A field of an output is looked for by a path of keys. It is found if every key is told by its text: a key that is all digits
is taken for a position, so it has to be the position as it is printed. What is found is not told to be missing.
-/

namespace Workflow

/-! ## Keys -/

/-- A key that is told by its text: it is not all digits, or it is a number as it is printed, of no more digits than are
read. -/
def PlainKey (k : String) : Prop :=
  k ≠ "" → k.toList.all isDigitLike = true → ∃ n : Nat, k = toString n ∧ k.toList.length ≤ longestNumeral

theorem plainKey_iff {k : String} : PlainKey k ↔ ∃ step, dottedStep k.toList = .ok step ∧ step.text = k := by
  have htext (n : Nat) : (PathStep.index n).text = toString n :=
    String.toList_inj.mp (PathStep.text_index (Int.natCast_nonneg n))
  constructor
  · intro h
    by_cases hd : k ≠ "" ∧ k.toList.all isDigitLike = true
    · obtain ⟨n, rfl, hl⟩ := h hd.1 hd.2
      exact ⟨.index n, dottedStep_decimalDigits.mpr ⟨hl, rfl⟩, htext n⟩
    · exact ⟨.key k, dottedStep_key fun hne => Bool.eq_false_iff.mpr fun hall => hd ⟨hne, hall⟩, rfl⟩
  · rintro ⟨step, hstep, hk⟩ hne hall
    rw [dottedStep, if_pos ⟨by simpa using hne, hall⟩] at hstep
    split at hstep
    · rename_i hn
      cases hstep
      rw [htext] at hk
      simp only [isNumeral, Bool.and_eq_true, decide_eq_true_eq] at hn
      exact ⟨_, hk.symm, hn.2⟩
    · cases hstep

theorem plainKeys_iff {keys : List String} : (∀ k ∈ keys, PlainKey k) ↔
    ∃ steps, (keys.mapM fun k => dottedStep k.toList) = .ok steps ∧ steps.map PathStep.text = keys := by
  induction keys with
  | nil => exact iff_of_true (by simp) ⟨[], rfl, rfl⟩
  | cons k keys ih =>
    rw [List.forall_mem_cons, plainKey_iff, ih]
    constructor
    · rintro ⟨⟨step, hstep, hk⟩, steps, hsteps, hkeys⟩
      exact ⟨step :: steps, mapM_cons_eq_ok.mpr ⟨step, hstep, steps, hsteps, rfl⟩, by rw [List.map_cons, hk, hkeys]⟩
    · rintro ⟨_, h, hkeys⟩
      obtain ⟨step, hstep, steps, hsteps, rfl⟩ := mapM_cons_eq_ok.mp h
      obtain ⟨hk, hkeys⟩ := List.cons.inj hkeys
      exact ⟨⟨step, hstep, hk⟩, steps, hsteps, hkeys⟩

/-! ## Nested mappings -/

def TextKeyed (ms : Members) : Prop := ∀ m ∈ ms, ∃ k, m.1 = .text k

/-- Keys lead through mappings in one another, all of whose keys are texts, to a value. -/
inductive Value.Holds : Value → List String → Prop
  | nil (v : Value) : Holds v []
  | cons {ms : Members} {k : String} {w : Value} {ks : List String} : TextKeyed ms → Members.get? ms k = some w →
      Holds w ks → Holds (.mapping ms) (k :: ks)

def nest (v : Value) : List String → Value
  | [] => v
  | k :: ks => .mapping [(.text k, nest v ks)]

theorem get?_single {k l : String} {v : Value} : Members.get? [(.text k, v)] l = if k = l then some v else none := by
  have hsame : Scalar.sameKey (.text k) (.text l) = decide (k = l) := by
    simp only [Scalar.sameKey, Scalar.keyNumber?, beq_eq_decide, Scalar.text.injEq]
  rw [Members.get?, Members.find?, List.find?_cons, hsame]
  by_cases hk : k = l <;> simp [hk]

theorem find?_int {ms : Members} (h : TextKeyed ms) (n : Int) : Members.find? ms (.int n) = none := by
  rw [Members.find?, Option.map_eq_none_iff, List.find?_eq_none]
  intro m hm
  obtain ⟨k, hk⟩ := h m hm
  rw [hk]
  nofun

/-- Among keys that are texts a step is looked up by its text, if that can be written. -/
theorem step_of_textKeyed {ms : Members} (h : TextKeyed ms) {s : PathStep} (hs : s.isWritable = true) :
    (Value.mapping ms).step s = .ok (Members.get? ms s.text) := by
  cases s with
  | key k => rfl
  | index n =>
    rw [PathStep.isWritable] at hs
    rw [Value.step, find?_int h, integerText, if_pos hs]
    rfl

theorem Value.Holds.lookup {v : Value} {steps : List PathStep} (h : v.Holds (steps.map PathStep.text))
    (hw : ∀ s ∈ steps, s.isWritable = true) : ∃ w, v.lookup steps = .ok (some w) := by
  induction steps generalizing v with
  | nil => exact ⟨v, rfl⟩
  | cons s steps ih =>
    obtain ⟨hs, hsteps⟩ := List.forall_mem_cons.mp hw
    cases h with
    | cons hms hk hw =>
      rw [Value.lookup, step_of_textKeyed hms hs, hk, ok_bind]
      exact ih hw hsteps

theorem textKeyed_single {k : String} {v : Value} : TextKeyed [(.text k, v)] := by simp [TextKeyed]

theorem nest_holds (v : Value) (keys : List String) : (nest v keys).Holds keys := by
  induction keys with
  | nil => exact .nil v
  | cons k keys ih => exact .cons textKeyed_single (by rw [get?_single, if_pos rfl]) ih

theorem texts_of_lookup_nest {v w : Value} {keys : List String} {steps : List PathStep} (hl : keys.length = steps.length)
    (hw : ∀ s ∈ steps, s.isWritable = true) (h : (nest v keys).lookup steps = .ok (some w)) :
    steps.map PathStep.text = keys := by
  induction keys generalizing steps with
  | nil => rw [List.length_eq_zero_iff.mp hl.symm, List.map_nil]
  | cons k keys ih =>
    cases steps with
    | nil => cases hl
    | cons s steps =>
      obtain ⟨hs, hsteps⟩ := List.forall_mem_cons.mp hw
      rw [nest, Value.lookup, step_of_textKeyed textKeyed_single hs, get?_single, ok_bind] at h
      by_cases hk : k = s.text
      · rw [if_pos hk] at h
        rw [List.map_cons, ih (Nat.succ.inj hl) hsteps h, hk]
      · rw [if_neg hk] at h
        cases h

/-! ## Fields -/

section
variable {keys : List String}

/-- A field is found wherever its keys lead to a value, if and only if each of its keys is told by its text. -/
theorem hasPath_joined_iff (hne : keys ≠ []) (hd : ∀ k ∈ keys, '.' ∉ k.toList) :
    (∀ output, (Value.mapping output).Holds keys → hasPath output (joinWith "." keys) = .ok true) ↔
      ∀ k ∈ keys, PlainKey k := by
  have hwritable {steps : List PathStep} (hs : (keys.mapM fun k => dottedStep k.toList) = .ok steps) :
      ∀ s ∈ steps, s.isWritable = true := by
    intro s hm
    obtain ⟨k, -, hk⟩ := exists_argument hs s hm
    exact dottedStep_isWritable hk
  rw [plainKeys_iff]
  constructor
  · intro h
    obtain ⟨k, more, rfl⟩ := List.exists_cons_of_ne_nil hne
    have hfound := h [(.text k, nest .null more)] (nest_holds .null (k :: more))
    rw [hasPath, dottedSteps_joined hne hd] at hfound
    obtain ⟨steps, hs, hfound⟩ := bind_eq_ok.mp hfound
    obtain ⟨found, hlookup, hsome⟩ := bind_eq_ok.mp hfound
    obtain ⟨w, rfl⟩ := Option.isSome_iff_exists.mp (Except.ok.inj hsome)
    exact ⟨steps, hs, texts_of_lookup_nest (v := .null) (mapM_eq_ok.mp hs).length_eq (hwritable hs) hlookup⟩
  · rintro ⟨steps, hs, rfl⟩ output hholds
    obtain ⟨w, hlookup⟩ := hholds.lookup (hwritable hs)
    rw [hasPath, dottedSteps_joined hne hd, hs, ok_bind, hlookup]
    rfl

end

/-! ## Outputs -/

section
variable {σ : Type} {h : Host σ} {schemas : Index OutputCheck} {s : Step} {payload output : Members} {field : String}

def Stop.Lists (P : String → Prop) (e : Stop) : Prop := ∀ names, e = .rejected (.output (.fields names)) → ∀ f ∈ names, P f

theorem ExpressionFault.stop_lists {P : String → Prop} (f : ExpressionFault) : f.stop.Lists P := by
  unfold ExpressionFault.stop
  split <;> rintro _ ⟨⟩

theorem inspect_lists {e : Stop} (he : s.inspect schemas output = .error e) : e.Lists fun f => hasPath output f = .ok false := by
  rintro names rfl f hf
  unfold Step.inspect at he
  split at he
  · split at he <;> cases he
  · split at he
    · cases he
    · rename_i hm
      cases he
      obtain ⟨hfound, hmissing⟩ := missingFields_iff.mp hm
      rw [← hmissing, List.mem_filter] at hf
      obtain ⟨found, h⟩ := hfound f hf.1
      have hlacks := hf.2
      rw [lacks, h] at hlacks
      cases found with
      | true => cases hlacks
      | false => exact h
    · split at he
      · cases he
      · split at he <;> cases he

theorem absentArtifacts_lists {P : String → Prop} {context : Members} {specs : List ArtifactSpec} (hh : h.AnswersChecks) :
    Check.Stops (Stop.Lists P) (absentArtifacts h context specs) := by
  induction specs with
  | nil => exact .pure
  | cons a specs ih =>
    refine .bind (.expect fun f _ => f.stop_lists) fun _ => .bind (.demand (hh.artifact _)) fun _ => .bind ih fun _ => ?_
    split
    · exact .pure
    · exact .pure

theorem checkStepOutput_lists (hh : h.AnswersChecks) : Check.Stops (Stop.Lists fun f => hasPath output f = .ok false)
    (checkStepOutput h schemas s payload (.mapping output)) := by
  rw [checkStepOutput_mapping]
  refine .bind (Run.Keeps.pure fun e he => inspect_lists he) fun _ => .bind ?_ fun _ => .pure
  refine .bind (absentArtifacts_lists hh) fun _ => ?_
  split
  · exact .pure
  · exact .throw (by rintro _ ⟨⟩)

end

/-- **A field that is there is found.** Keys without a point that lead to a value are found by their text, in every output, if
and only if each of them is told by its text; the check of an output then never tells that they are missing. -/
theorem reported_found {keys : List String} (hne : keys ≠ []) (hd : ∀ k ∈ keys, '.' ∉ k.toList) :
    ((∀ output, (Value.mapping output).Holds keys → hasPath output (joinWith "." keys) = .ok true) ↔
      ∀ k ∈ keys, PlainKey k) ∧
      ((∀ k ∈ keys, PlainKey k) → ∀ output, (Value.mapping output).Holds keys →
        ∀ {σ : Type} (h : Host σ), h.AnswersChecks → ∀ schemas s payload session names,
          ((checkStepOutput h schemas s payload (.mapping output)).run session).1 = .error (.rejected (.output (.fields names))) →
            joinWith "." keys ∉ names) := by
  have hfound := hasPath_joined_iff hne hd
  refine ⟨hfound, fun hplain output hholds σ h hh schemas s payload session names hnames hm => ?_⟩
  have habsent : hasPath output (joinWith "." keys) = .ok false :=
    ((checkStepOutput_lists hh) session trivial).2 _ hnames names rfl _ hm
  rw [hfound.mpr hplain output hholds] at habsent
  cases habsent

/-- A step that requires fields of its output, and nothing else. -/
def stepRequiring (fields : List String) : Step := .function {
  input := ⟨[], none, none, []⟩
  output := ⟨false, false, fields⟩
  persist := []
  name := "take"
  description := ""
  emits := []
  actions := []
  integrations := []
  context := none
  openQuestions := []
  contract := none
  trigger := .cron ⟨"daily", "0 0 * * *"⟩ }

def tellsMissing (names : List String) (x : Except Stop Members) : Bool :=
  (fault? x).any fun
    | .rejected (.output f) => decide (f = .fields names)
    | _ => false

theorem tellsMissing_iff {names : List String} {x : Except Stop Members} :
    tellsMissing names x = true ↔ x = .error (.rejected (.output (.fields names))) := by
  constructor
  · intro h
    obtain ⟨e, rfl, he⟩ := any_fault?.mp h
    split at he
    · rw [of_decide_eq_true he]
    · cases he
  · rintro rfl
    exact decide_eq_true rfl

def report : Members := [(.text "result", .mapping [(.text "12", .null), (.text "seen", .null)])]

/-- A key of digits is found, and only what is not there is missing. -/
theorem reported_found_twelve : hasPath report "result.12" = .ok true ∧
    ∃ names, (checkStepOutput obliging [] (stepRequiring ["result.12", "result.13"]) [] (.mapping report) ⟨(), []⟩).1 =
      .error (.rejected (.output (.fields names))) ∧ names ≠ [] ∧ "result.12" ∉ names := by
  have hplain : ∀ k ∈ ["result", "12"], PlainKey k := plainKeys_iff.mpr ⟨[.key "result", .index 12], by rfl, by rfl⟩
  have hholds : (Value.mapping report).Holds ["result", "12"] :=
    .cons textKeyed_single rfl (.cons (by simp [TextKeyed]) rfl (.nil _))
  have hmissing : tellsMissing ["result.13"]
      (checkStepOutput obliging [] (stepRequiring ["result.12", "result.13"]) [] (.mapping report) ⟨(), []⟩).1 = true := by
    decide
  have hne : ["result", "12"] ≠ [] := by decide
  obtain ⟨hfound, hlisted⟩ := reported_found hne (by decide)
  have hnames := tellsMissing_iff.mp hmissing
  exact ⟨hfound.mpr hplain report hholds, _, hnames, nofun,
    hlisted hplain report hholds obliging obliging_answers.checks _ _ _ _ _ hnames⟩

/-- Digits with zeros in front are taken for another key, and a digit that is no decimal one cannot be looked for. -/
theorem reported_found_zeros : (Value.mapping [(.text "007", .null)]).Holds ["007"] ∧
    hasPath [(.text "007", .null)] "007" = .ok false ∧ hasPath [(.text "²", .null)] "²" = .error (.numeral "²") ∧
    (checkStepOutput obliging [] (stepRequiring ["007"]) [] (.mapping [(.text "007", .null)]) ⟨(), []⟩).1 =
      .error (.rejected (.output (.fields ["007"]))) :=
  ⟨.cons textKeyed_single rfl (.nil _), by rfl, by rfl, tellsMissing_iff.mp (by decide)⟩

end Workflow
