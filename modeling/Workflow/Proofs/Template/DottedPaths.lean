import Workflow.Proofs.Breakdown
import Workflow.Proofs.Template.References
import Workflow.Proofs.Text.Split

/-!
# Paths with points

A path is written with points between its steps, and such a text is read as steps again. The two agree for steps that
their texts tell: keys that are not all digits and have no point, and positions from the first on. A position of too many
digits is neither written nor read.
-/

namespace Workflow

/-! ## Steps -/

theorem isDigitLike_of_isDigit {c : Char} (h : c.isDigit = true) : isDigitLike c = true := by
  rw [isDigitLike, isDecimal_of_isDigit h, Bool.true_or]

theorem Digits.all_isDigitLike {cs : List Char} (h : Digits cs) : cs.all isDigitLike = true :=
  List.all_eq_true.mpr fun c hc => isDigitLike_of_isDigit (h c hc)

theorem isNumeral_iff_of_digits {cs : List Char} (h : Digits cs) : isNumeral cs = true ↔ cs.length ≤ longestNumeral := by
  have hall : cs.all isDecimal = true := List.all_eq_true.mpr h.isDecimal
  rw [isNumeral, hall, Bool.true_and, decide_eq_true_iff]

theorem dottedStep_decimalDigits {n : Nat} {step : PathStep} : dottedStep (decimalDigits n) = .ok step ↔
    (decimalDigits n).length ≤ longestNumeral ∧ step = .index n := by
  have hd := decimalDigits_digits n
  rw [dottedStep, if_pos ⟨decimalDigits_ne_nil n, hd.all_isDigitLike⟩, decimalNumeral_decimalDigits,
    ← isNumeral_iff_of_digits hd]
  cases isNumeral (decimalDigits n) <;> simp [eq_comm]

theorem dottedStep_key {s : String} (h : s ≠ "" → s.toList.all isDigitLike = false) : dottedStep s.toList = .ok (.key s) := by
  have hn : ¬ (s.toList ≠ [] ∧ s.toList.all isDigitLike = true) := by
    rintro ⟨hne, hall⟩
    rw [h (by simpa using hne)] at hall
    cases hall
  rw [dottedStep, if_neg hn, String.ofList_toList]

namespace PathStep

/-- A step that is told by its text: a key that is there, has no point and is not all digits, or a position from the first
on. -/
def Plain : PathStep → Prop
  | key s => s ≠ "" ∧ '.' ∉ s.toList ∧ s.toList.all isDigitLike = false
  | index n => 0 ≤ n

instance : DecidablePred Plain
  | key _ => inferInstanceAs (Decidable (_ ∧ _ ∧ _))
  | index n => inferInstanceAs (Decidable (0 ≤ n))

variable {s step : PathStep}

theorem text_index {n : Int} (h : 0 ≤ n) : (index n).text.toList = decimalDigits n.natAbs := by
  rw [text, integer_toList, if_neg (by omega), List.nil_append]

theorem Plain.no_point (h : s.Plain) : '.' ∉ s.text.toList := by
  cases s with
  | key s => exact h.2.1
  | index n =>
    rw [text_index h]
    exact fun hm => absurd (decimalDigits_digits _ '.' hm) (by decide)

theorem Plain.dottedStep_iff (h : s.Plain) : dottedStep s.text.toList = .ok step ↔ s.isWritable = true ∧ step = s := by
  cases s with
  | key s => simp [text, dottedStep_key fun _ => h.2.2, isWritable, eq_comm]
  | index n =>
    have hn : (n.natAbs : Int) = n := Int.natAbs_of_nonneg h
    rw [text_index h, dottedStep_decimalDigits, hn, isWritable, Workflow.isWritable, decide_eq_true_iff]

end PathStep

/-! ## Paths -/

section
variable {context : Members} {path : List PathStep}

theorem dottedSteps_joined {parts : List String} (hne : parts ≠ []) (hd : ∀ s ∈ parts, '.' ∉ s.toList) :
    dottedSteps (joinWith "." parts) = parts.mapM fun s => dottedStep s.toList := by
  rw [dottedSteps, partsBetween_joinWith rfl hne hd, List.mapM_map]
  rfl

theorem dottedSteps_dottedPath (hne : path ≠ []) (hp : ∀ s ∈ path, s.Plain) {steps : List PathStep} :
    dottedSteps (dottedPath path) = .ok steps ↔ (∀ s ∈ path, s.isWritable = true) ∧ steps = path := by
  have hd : ∀ t ∈ path.map PathStep.text, '.' ∉ t.toList := List.forall_mem_map.mpr fun s hs => (hp s hs).no_point
  rw [dottedPath, dottedSteps_joined (by simpa using hne) hd, mapM_eq_ok, List.forall₂_map_left_iff]
  clear hne hd
  induction path generalizing steps with
  | nil => simp
  | cons s path ih =>
    obtain ⟨hs, hp⟩ := List.forall_mem_cons.mp hp
    simp only [List.forall₂_cons_left_iff, hs.dottedStep_iff, ih hp, List.forall_mem_cons]
    constructor
    · rintro ⟨_, _, ⟨hr, rfl⟩, ⟨hrs, rfl⟩, rfl⟩
      exact ⟨⟨hr, hrs⟩, rfl⟩
    · rintro ⟨⟨hr, hrs⟩, rfl⟩
      exact ⟨s, path, ⟨hr, rfl⟩, ⟨hrs, rfl⟩, rfl⟩

/-- A path whose positions can be written leads somewhere or nowhere. -/
theorem exists_lookup (h : ∀ s ∈ path, s.isWritable = true) (v : Value) : ∃ found, v.lookup path = .ok found := by
  induction path generalizing v with
  | nil => exact ⟨some v, rfl⟩
  | cons s path ih =>
    obtain ⟨hs, hpath⟩ := List.forall_mem_cons.mp h
    have hstep : ∃ found, v.step s = .ok found := by
      fun_cases Value.step v s with
      | case3 ms n =>
        rw [PathStep.isWritable] at hs
        rw [integerText, if_pos hs]
        exact ⟨_, rfl⟩
      | _ => exact ⟨_, rfl⟩
    obtain ⟨found, hfound⟩ := hstep
    rw [Value.lookup, hfound, ok_bind]
    cases found with
    | none => exact ⟨none, rfl⟩
    | some w => exact ih hpath w

theorem dottedStep_isWritable {part : List Char} {step : PathStep} (h : dottedStep part = .ok step) : step.isWritable = true := by
  unfold dottedStep at h
  split at h
  · split at h
    · rename_i hn
      cases h
      simp only [isNumeral, Bool.and_eq_true, decide_eq_true_eq] at hn
      refine isWritable_iff.mpr (Nat.lt_of_lt_of_le (decimalNumeral_lt part) (Nat.pow_le_pow_right (by decide) hn.2))
    · cases h
  · cases h
    rfl

/-- What is looked for by its text is found or not, if the text can be read. -/
theorem hasPath_eq_error {dotted : String} {b : Breakdown} : hasPath context dotted = .error b ↔ dottedSteps dotted = .error b := by
  cases hp : dottedSteps dotted with
  | error b' => simp [hasPath, hp]
  | ok path =>
    have hw : ∀ s ∈ path, s.isWritable = true := by
      intro s hs
      obtain ⟨part, -, hpart⟩ := exists_argument hp s hs
      exact dottedStep_isWritable hpart
    obtain ⟨found, hfound⟩ := exists_lookup hw (.mapping context)
    simp [hasPath, hp, hfound]

/-- A path that is looked for by its text is followed. -/
theorem hasPath_dottedPath (hne : path ≠ []) (hp : ∀ s ∈ path, s.Plain) (hw : ∀ s ∈ path, s.isWritable = true) :
    hasPath context (dottedPath path) = ((Value.mapping context).lookup path).map Option.isSome := by
  rw [hasPath, (dottedSteps_dottedPath hne hp).mpr ⟨hw, rfl⟩]
  rfl

end

/-- A dotted path in which all that looks like digits is a numeral. -/
def ReadablePath (dotted : String) : Prop :=
  ∀ part ∈ partsBetween '.' dotted.toList, part.all isDigitLike = true → isNumeral part = true

theorem dottedStep_eq_error {part : List Char} {b : Breakdown} : dottedStep part = .error b ↔
    (part.all isDigitLike = true ∧ isNumeral part = false) ∧ b = .numeral (String.ofList part) := by
  unfold dottedStep
  by_cases hd : part ≠ [] ∧ part.all isDigitLike = true
  · rw [if_pos hd]
    cases hn : isNumeral part with
    | true => simp
    | false => simp only [hd.2, Bool.false_eq_true, if_false, Except.error.injEq, and_self, true_and, eq_comm]
  · rw [if_neg hd]
    refine iff_of_false nofun ?_
    rintro ⟨⟨hdigits, hn⟩, -⟩
    refine hd ⟨?_, hdigits⟩
    rintro rfl
    cases hn

theorem readablePath_iff {dotted : String} : ReadablePath dotted ↔ ∃ path, dottedSteps dotted = .ok path := by
  constructor
  · intro h
    refine exists_mapM fun part hm => ?_
    cases hp : dottedStep part with
    | ok step => exact ⟨step, rfl⟩
    | error p =>
      obtain ⟨⟨hd, hn⟩, -⟩ := dottedStep_eq_error.mp hp
      rw [h part hm hd] at hn
      cases hn
  · rintro ⟨path, h⟩ part hm hd
    obtain ⟨step, -, hp⟩ := exists_result h part hm
    by_contra hn
    rw [dottedStep_eq_error.mpr ⟨⟨hd, Bool.eq_false_iff.mpr hn⟩, rfl⟩] at hp
    cases hp

theorem ReadablePath.hasPath {dotted : String} (h : ReadablePath dotted) (context : Members) :
    ∃ found, Workflow.hasPath context dotted = .ok found := by
  obtain ⟨path, hpath⟩ := readablePath_iff.mp h
  cases hf : Workflow.hasPath context dotted with
  | ok found => exact ⟨found, rfl⟩
  | error b =>
    rw [hasPath_eq_error, hpath] at hf
    cases hf

/-! ## Templates -/

namespace Template

variable {t : Template} {context : Members} {path : String} {p : Placeholder}

/-- The paths that a template reports as missing, however it is resolved: strictly as an error, leniently as a note. -/
inductive Reports (t : Template) (context : Members) : String → Prop
  | rendering {u : Unresolved} : t.render context = .error (.unresolved u) → Reports t context u.path
  | valuing {u : Unresolved} : t.value context = .error (.unresolved u) → Reports t context u.path
  | noted {path : String} : path ∈ ((t.resolveText context true).run.run []).2 → Reports t context path
  | notedValue {path : String} : path ∈ ((t.resolveValue context true).run.run []).2 → Reports t context path

theorem Reports.missing (h : t.Reports context path) : path ∈ t.missing context := by
  cases h with
  | rendering hu =>
    obtain ⟨b, -, hb⟩ | ⟨path, rest, hm, hpath⟩ := render_error hu
    · cases hb
    · cases hpath
      simp [hm]
  | valuing hu =>
    obtain ⟨b, -, hb⟩ | ⟨path, rest, hm, hpath⟩ := value_error hu
    · cases hb
    · cases hpath
      simp [hm]
  | noted hn => exact (t.resolveText_ends context).noted_subset hn
  | notedValue hn => exact (t.resolveValue_ends context).noted_subset hn

theorem not_reports (h : t.missing context = []) : ¬ t.Reports context path := fun hr => by
  have hm := hr.missing
  rw [h] at hm
  cases hm

theorem missing_of_found {v : Value} (hl : t.lone? = some p) (hv : (Value.mapping context).lookup p.path = .ok (some v)) :
    t.missing context = [] := by
  rw [missing_of_lone? hl, Placeholder.misses, hv]
  rfl

/-- The text of a lone placeholder is that of its value. -/
theorem render_of_found {v : Value} (hl : t.lone? = some p) (hv : (Value.mapping context).lookup p.path = .ok (some v)) :
    t.render context = v.asText.mapError .breakdown := by
  rw [render_of_nil (missing_of_found hl hv), written, segments_of_lone? hl]
  simp only [List.mapM_cons, List.mapM_nil, Segment.written, Placeholder.valued_of_found hv, ok_bind]
  cases v.asText with
  | error b => rfl
  | ok text => exact congrArg Except.ok (String.empty_append (s := text))

theorem value_of_found {v : Value} (hl : t.lone? = some p) (hv : (Value.mapping context).lookup p.path = .ok (some v)) :
    t.value context = .ok v := by
  refine value_ok.mpr ⟨?_, missing_of_found hl hv⟩
  rw [valued, hl]
  exact congrArg (Except.map _) (Placeholder.valued_of_found hv)

end Template

/-- **A path and its text lead to the same.** If the positions of a path can be written, it has a text, and that is found exactly
where the path leads to a value; otherwise it has none. What a template that is a lone placeholder reports is not found, and
what is found it resolves to. -/
theorem dotted_agrees {path : List PathStep} (hne : path ≠ []) (hp : ∀ s ∈ path, s.Plain) (fallback : Option String)
    (context : Members) :
    ((∀ s ∈ path, s.isWritable = true) → (⟨path, fallback⟩ : Placeholder).dotted = .ok (dottedPath path) ∧
      ∃ found, (Value.mapping context).lookup path = .ok found ∧ hasPath context (dottedPath path) = .ok found.isSome) ∧
    ((∃ s ∈ path, s.isWritable = false) → (⟨path, fallback⟩ : Placeholder).dotted = .error .unwritten) ∧
    ∀ t : Template, t.lone? = some ⟨path, fallback⟩ → (∀ s ∈ path, s.isWritable = true) →
      (∀ reported, t.Reports context reported → reported = dottedPath path ∧ hasPath context reported = .ok false) ∧
      (hasPath context (dottedPath path) = .ok true → ∃ v, (Value.mapping context).lookup path = .ok (some v) ∧
        t.value context = .ok v ∧ t.render context = v.asText.mapError .breakdown ∧ ∀ reported, ¬ t.Reports context reported) := by
  refine ⟨fun hw => ⟨writtenPath_eq_ok.mpr ⟨hw, rfl⟩, ?_⟩, fun hw => writtenPath_eq_error.mpr ⟨hw, rfl⟩, fun t hl hw =>
    ⟨fun reported hreported => ?_, fun hfound => ?_⟩⟩
  · obtain ⟨found, hfound⟩ := exists_lookup hw (.mapping context)
    exact ⟨found, hfound, by rw [hasPath_dottedPath hne hp hw, hfound]; rfl⟩
  · have hm := hreported.missing
    rw [Template.missing_of_lone? hl] at hm
    split at hm
    · rename_i hmisses
      obtain rfl := List.mem_singleton.mp hm
      refine ⟨rfl, ?_⟩
      rw [hasPath_dottedPath hne hp hw]
      unfold Placeholder.misses at hmisses
      split at hmisses
      · rename_i hnone _
        rw [hnone]
        rfl
      · cases hmisses
    · cases hm
  · rw [hasPath_dottedPath hne hp hw] at hfound
    obtain ⟨found, hlookup, hsome⟩ := map_eq_ok.mp hfound
    obtain ⟨v, rfl⟩ := Option.isSome_iff_exists.mp hsome
    exact ⟨v, hlookup, Template.value_of_found hl hlookup, Template.render_of_found hl hlookup,
      fun _ => Template.not_reports (Template.missing_of_found hl hlookup)⟩

def cart : Members := [(.text "items", .list [.mapping [(.text "name", .text "pen")]])]

def cartPath : List PathStep := [.key "items", .index 0, .key "name"]

theorem dotted_agrees_cart : hasPath cart "items.0.name" = .ok true ∧
    ∃ t, Template.parse "\x7b\x7b items.0.name \x7d\x7d" = .ok t ∧ t.value cart = .ok (.text "pen") := by
  have hplain : ∀ s ∈ cartPath, s.Plain := by decide
  have hwritable : ∀ s ∈ cartPath, s.isWritable = true := by decide
  have hread : (Template.parse "\x7b\x7b items.0.name \x7d\x7d").toOption.any (fun t =>
      decide (t.lone? = some ⟨cartPath, none⟩)) = true := by
    decide +kernel
  obtain ⟨t, ht, hlone⟩ := any_toOption.mp hread
  have hne : cartPath ≠ [] := nofun
  obtain ⟨hfound, -, htemplates⟩ := dotted_agrees hne hplain none cart
  obtain ⟨-, found, hlookup, hfound⟩ := hfound hwritable
  cases hlookup
  obtain ⟨-, hresolves⟩ := htemplates t (of_decide_eq_true hlone) hwritable
  obtain ⟨v, hv, hvalue, -⟩ := hresolves hfound
  cases hv
  exact ⟨hfound, t, ht, hvalue⟩

def farPath : List PathStep := [.key "a", .index hugeNumber]

/-- The path leads nowhere, but it has no text that is not found. -/
theorem dotted_agrees_far : (∀ s ∈ farPath, s.Plain) ∧ (Value.mapping [(.text "a", .list [])]).lookup farPath = .ok none ∧
    ¬ ∃ text, (⟨farPath, none⟩ : Placeholder).dotted = .ok text ∧ hasPath [(.text "a", .list [])] text = .ok false := by
  refine ⟨List.forall_mem_cons.mpr ⟨by decide, List.forall_mem_singleton.mpr (Int.natCast_nonneg _)⟩, ?_, ?_⟩
  · have hlist : (Value.mapping [(.text "a", .list [])]).step (.key "a") = .ok (some (.list [])) := rfl
    have hnone : (Value.list []).step (.index hugeNumber) = .ok none := by simp [Value.step, Value.itemAt?]
    simp only [farPath, Value.lookup, hlist, hnone, ok_bind, pure_eq_ok]
  · rintro ⟨text, htext, -⟩
    obtain ⟨hwritable, -⟩ := writtenPath_eq_ok.mp htext
    have hhuge : isWritable hugeNumber = true := hwritable (.index hugeNumber) (by simp [farPath])
    rw [hugeNumber_unwritable] at hhuge
    cases hhuge

end Workflow
