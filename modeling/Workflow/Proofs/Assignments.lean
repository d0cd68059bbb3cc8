import Workflow.Persist
import Workflow.Proofs.Except
import Workflow.Proofs.Template.References

/-!
# What actions write

The templates of an action are resolved leniently. The columns that are told to be empty are those whose template could
not be resolved strictly, because all ways of resolving a template agree on the paths that it misses.
-/

namespace Workflow

/-- A scalar that is a template, and misses a path if it is resolved strictly. -/
def Scalar.Misses (context : Members) (s : Scalar) : Prop :=
  ∃ source t u, s = .text source ∧ Template.parse source = .ok t ∧ t.value context = .error (.unresolved u)

/-- A placeholder whose path can be followed, and be written where it is missing. -/
def Placeholder.Follows (p : Placeholder) (context : Members) : Prop :=
  ∃ found, (Value.mapping context).lookup p.path = .ok found ∧
    (found = none → p.fallback = none → ∃ path, p.dotted = .ok path)

/-- A placeholder whose value has a text besides. -/
def Placeholder.IsWritten (p : Placeholder) (context : Members) : Prop :=
  p.Follows context ∧ ∀ v, (Value.mapping context).lookup p.path = .ok (some v) → ∃ text, v.asText = .ok text

/-- A template whose value can be told: its placeholders are followed, and they are written where they stand in a text. -/
def Template.Settles (t : Template) (context : Members) : Prop :=
  ∀ p ∈ t.placeholders, p.Follows context ∧ (t.lone? = none → p.IsWritten context)

section
variable {context : Members}

theorem source_of_parse {source : String} {t : Template} (h : Template.parse source = .ok t) : t.source = source := by
  obtain ⟨ns, -, h⟩ := bind_eq_ok.mp h
  obtain ⟨segments, -, h⟩ := bind_eq_ok.mp h
  cases h
  rfl

/-! ## What settles a template -/

theorem Placeholder.valued_eq_ok {p : Placeholder} : (∃ o, p.valued context = .ok o) ↔ p.Follows context := by
  constructor
  · rintro ⟨o, ho⟩
    have hcourse := p.course context
    rw [ho] at hcourse
    cases hcourse with
    | found hl => exact ⟨_, hl, nofun⟩
    | fallback hl hf => exact ⟨_, hl, fun _ hnone => by simp [hf] at hnone⟩
    | missing hl _ hd => exact ⟨_, hl, fun _ _ => ⟨_, hd⟩⟩
  · rintro ⟨found, hl, hd⟩
    cases hv : p.valued context with
    | ok o => exact ⟨o, rfl⟩
    | error b =>
      have hcourse := p.course context
      rw [hv] at hcourse
      cases hcourse with
      | lost hlost => cases hl.symm.trans hlost
      | unwritten hnone hf hb =>
        cases hl.symm.trans hnone
        obtain ⟨path, hpath⟩ := hd rfl hf
        cases hb.symm.trans hpath

theorem Segment.written_eq_ok {p : Placeholder} :
    (∃ text, (Segment.placeholder p).written context = .ok text) ↔ p.IsWritten context := by
  unfold Placeholder.IsWritten
  rw [← Placeholder.valued_eq_ok, Segment.written]
  have hcourse := p.course context
  cases hv : p.valued context with
  | error b => simp
  | ok o =>
    rw [hv] at hcourse
    cases hcourse with
    | found hl => simp [hl, bind_eq_ok]
    | fallback hl => simp [hl, Value.asText_text]
    | missing hl => simp [hl]

namespace Template

variable {t : Template}

theorem written_eq_ok : (∃ text, t.written context = .ok text) ↔ ∀ p ∈ t.placeholders, p.IsWritten context := by
  have hsegments : (∃ text, t.written context = .ok text) ↔ ∀ s ∈ t.segments, ∃ text, s.written context = .ok text := by
    constructor
    · rintro ⟨text, h⟩
      obtain ⟨texts, htexts, -⟩ := bind_eq_ok.mp h
      exact fun s hs => (exists_result htexts s hs).imp fun _ h => h.2
    · intro h
      obtain ⟨texts, htexts⟩ := exists_mapM h
      exact ⟨_, bind_eq_ok.mpr ⟨texts, htexts, rfl⟩⟩
  rw [hsegments]
  constructor
  · intro h p hp
    obtain ⟨s, hs, hsp⟩ := List.mem_filterMap.mp hp
    cases s with
    | text s => cases hsp
    | placeholder q =>
      cases hsp
      exact Segment.written_eq_ok.mp (h _ hs)
  · intro h s hs
    cases s with
    | text s => exact ⟨_, rfl⟩
    | placeholder p => exact Segment.written_eq_ok.mpr (h p (List.mem_filterMap.mpr ⟨_, hs, rfl⟩))

theorem placeholders_of_lone? {p : Placeholder} (h : t.lone? = some p) : t.placeholders = [p] := by
  rw [placeholders, segments_of_lone? h]
  rfl

theorem valued_eq_ok : (∃ v, t.valued context = .ok v) ↔ t.Settles context := by
  unfold valued Settles
  cases hl : t.lone? with
  | none =>
    have hwritten : (∃ v, (t.written context).map Value.text = .ok v) ↔ ∃ text, t.written context = .ok text := by
      simp [map_eq_ok]
    simp only [hwritten, written_eq_ok, forall_true_left]
    exact forall₂_congr fun p _ => ⟨fun h => ⟨h.1, h⟩, fun h => h.2⟩
  | some p =>
    rw [placeholders_of_lone? hl, List.forall_mem_singleton, ← Placeholder.valued_eq_ok]
    simp [map_eq_ok]

end Template

/-! ## One column -/

theorem resolveScalar_text {source : String} {t : Template} (h : Template.parse source = .ok t) : resolveScalar context (.text source) =
    ((t.valued context).map fun v => (v, !(t.missing context).isEmpty)).mapError .breakdown := by
  have hends := t.resolveValue_ends context
  simp only [resolveScalar, h]
  cases hv : t.valued context with
  | error b =>
    rw [hv] at hends
    obtain ⟨⟨notes, -, hlenient⟩, -⟩ := hends []
    rw [hlenient]
    rfl
  | ok v =>
    rw [hv] at hends
    rw [(hends []).1]
    rfl

theorem misses_of_resolveScalar {s : Scalar} {v : Value} {misses : Bool} (h : resolveScalar context s = .ok (v, misses)) :
    misses = true ↔ s.Misses context := by
  cases s with
  | text source =>
    cases ht : Template.parse source with
    | error f => simp [resolveScalar, ht] at h
    | ok t =>
      rw [resolveScalar_text ht, mapError_eq_ok, map_eq_ok] at h
      obtain ⟨w, hw, h⟩ := h
      cases h
      have hmisses : (∃ u, t.value context = .error (.unresolved u)) ↔ t.missing context ≠ [] := by
        rw [Template.value_eq hw]
        cases t.missing context <;> simp [Resolution.strictly]
      simp [Scalar.Misses, ht, hmisses]
  | _ =>
    cases h
    simp [Scalar.Misses]

/-! ## All columns -/

theorem resolveAssignments_eq_ok {values : Assignments} {r : Row × List String}
    (h : resolveAssignments context values = .ok r) : r.1.map Prod.fst = values.map Prod.fst ∧
      ∀ column, column ∈ r.2 ↔ ∃ s, (column, s) ∈ values ∧ s.Misses context := by
  obtain ⟨rs, hrs, h⟩ := bind_eq_ok.mp h
  cases h
  have hrows : List.Forall₂ (fun e x => x.1 = e.1 ∧ (x.2.2 = true ↔ e.2.Misses context)) values rs := by
    refine (mapM_eq_ok.mp hrs).imp fun e x hx => ?_
    cases hs : resolveScalar context e.2 with
    | error f => simp [hs, Except.map] at hx
    | ok y =>
      simp only [hs, Except.map, Except.ok.injEq] at hx
      subst hx
      exact ⟨rfl, misses_of_resolveScalar hs⟩
  constructor
  · have hcolumns : List.Forall₂ (· = ·) (rs.map Prod.fst) (values.map Prod.fst) := by
      rw [List.forall₂_map_left_iff, List.forall₂_map_right_iff]
      exact hrows.flip.imp fun _ _ hx => hx.1
    rw [← List.forall₂_eq_eq_eq, List.map_map]
    exact hcolumns
  · intro column
    obtain ⟨hleft, hright⟩ := exists_of_forall₂ hrows
    simp only [List.mem_map, List.mem_filter]
    constructor
    · rintro ⟨x, ⟨hx, hmissing⟩, rfl⟩
      obtain ⟨e, he, hcolumn, hmisses⟩ := hright x hx
      exact ⟨e.2, by rwa [hcolumn], hmisses.mp hmissing⟩
    · rintro ⟨s, hs, hmisses⟩
      obtain ⟨x, hx, hcolumn, hmissing⟩ := hleft _ hs
      exact ⟨x, ⟨hx, hmissing.mpr hmisses⟩, hcolumn⟩

theorem exists_resolveAssignments {values : Assignments}
    (h : ∀ column source, (column, .text source) ∈ values → ∃ t, Template.parse source = .ok t ∧ t.Settles context) :
    ∃ r, resolveAssignments context values = .ok r := by
  have hscalar : ∀ e ∈ values, ∃ x, (resolveScalar context e.2).map (fun r => (e.1, r)) = .ok x := by
    rintro ⟨column, s⟩ he
    cases s with
    | text source =>
      obtain ⟨t, ht, hsettles⟩ := h column source he
      obtain ⟨v, hv⟩ := Template.valued_eq_ok.mpr hsettles
      rw [resolveScalar_text ht, hv]
      exact ⟨_, rfl⟩
    | _ => exact ⟨_, rfl⟩
  obtain ⟨rs, hrs⟩ := exists_mapM hscalar
  exact ⟨_, bind_eq_ok.mpr ⟨rs, hrs, rfl⟩⟩

/-! ## Agreement -/

/-- **All ways of resolving a template agree.** The text is that of the value. Leniently every missing path is noted; strictly
the first one is the error, and if there is none, the result is the lenient one. A path that cannot be followed, one that is
missing and cannot be written, and a value without a text break all of them down, but for a strict one that has come to a missing
path. So what an action writes has exactly its columns, and those are told to be empty whose template misses a path when it is
resolved strictly. -/
theorem resolutions_agree (context : Members) :
    (∀ source t, Template.parse source = .ok t → ∃ text value,
      Resolution.Ends (fun lenient => t.resolveText context lenient) source (t.missing context) text ∧
      Resolution.Ends (fun lenient => t.resolveValue context lenient) source (t.missing context) value ∧
      (∀ s v, text = .ok s → value = .ok v → v.asText = .ok s) ∧
      ((∃ s, text = .ok s) ↔ ∀ p ∈ t.placeholders, p.IsWritten context) ∧
      ((∃ v, value = .ok v) ↔ t.Settles context)) ∧
    (∀ values : Assignments,
      (∀ column source, (column, .text source) ∈ values → ∃ t, Template.parse source = .ok t ∧ t.Settles context) →
        ∃ r, resolveAssignments context values = .ok r) ∧
    ∀ n (a : PersistAction) p, a.prepare context n = .ok p →
      p.values.map Prod.fst = a.assignments.map Prod.fst ∧
      ∀ column, column ∈ p.emptyColumns ↔ ∃ s, (column, s) ∈ a.assignments ∧ s.Misses context := by
  refine ⟨fun source t ht => ?_, fun values => exists_resolveAssignments, fun n a p hp => ?_⟩
  · obtain rfl := source_of_parse ht
    exact ⟨t.written context, t.valued context, t.resolveText_ends _, t.resolveValue_ends _,
      fun _ _ => Template.asText_of_valued, Template.written_eq_ok, Template.valued_eq_ok⟩
  · obtain ⟨r, hr, hp⟩ := bind_eq_ok.mp hp
    obtain ⟨clause, -, hp⟩ := bind_eq_ok.mp hp
    cases hp
    exact resolveAssignments_eq_ok hr

end

/-- A placeholder without a value stands in it twice, and one has a default. -/
def patchy : String := "\x7b\x7b a.0 \x7d\x7d-\x7b\x7b b.0 \x7d\x7d-\x7b\x7b c | default('x') \x7d\x7d-\x7b\x7b b.0 \x7d\x7d"

def patchyContext : Members := [(.text "a", .list [.int 7])]

/-- A row with a list, and with a text that lacks a value. -/
def patchyRow : PersistAction := .insert ⟨"orders", [("whole", .text "\x7b\x7b a \x7d\x7d"), ("note", .text patchy)]⟩

theorem resolutions_agree_patchy : ∃ whole t p text value,
    Template.parse "\x7b\x7b a \x7d\x7d" = .ok whole ∧ Template.parse patchy = .ok t ∧ t.missing patchyContext = ["b.0", "b.0"] ∧
    (∃ r, resolveAssignments patchyContext patchyRow.assignments = .ok r) ∧ patchyRow.prepare patchyContext 0 = .ok p ∧
    value.asText = .ok text ∧
    Resolution.Ends (fun lenient => t.resolveText patchyContext lenient) patchy (t.missing patchyContext) (.ok text) ∧
    Resolution.Ends (fun lenient => t.resolveValue patchyContext lenient) patchy (t.missing patchyContext) (.ok value) ∧
    p.values.map Prod.fst = ["whole", "note"] ∧ "note" ∈ p.emptyColumns ∧ "whole" ∉ p.emptyColumns := by
  have hwhole : (Template.parse "\x7b\x7b a \x7d\x7d").toOption.any
      (fun t => (t.valued patchyContext).toOption.isSome) = true := by decide +kernel
  have hpatchy : (Template.parse patchy).toOption.any (fun t =>
      decide (t.missing patchyContext = ["b.0", "b.0"]) && (t.written patchyContext).toOption.isSome &&
        (t.valued patchyContext).toOption.isSome) = true := by decide +kernel
  have hrow : (patchyRow.prepare patchyContext 0).toOption.any (fun p => decide (p.emptyColumns = ["note"])) = true := by
    decide +kernel
  obtain ⟨whole, hw, hvalued⟩ := any_toOption.mp hwhole
  obtain ⟨t, ht, hall⟩ := any_toOption.mp hpatchy
  obtain ⟨p, hp, hempty⟩ := any_toOption.mp hrow
  simp only [Bool.and_eq_true, decide_eq_true_eq] at hall
  obtain ⟨⟨hmissing, hwritten⟩, hvalued'⟩ := hall
  have hok {α : Type} {x : Except Breakdown α} (h : x.toOption.isSome = true) : ∃ a, x = .ok a := by
    cases x with
    | error b => cases h
    | ok a => exact ⟨a, rfl⟩
  have hsettles : whole.Settles patchyContext := Template.valued_eq_ok.mp (hok hvalued)
  have hsettles' : t.Settles patchyContext := Template.valued_eq_ok.mp (hok hvalued')
  have hparse : ∀ column source, (column, .text source) ∈ patchyRow.assignments →
      ∃ t, Template.parse source = .ok t ∧ t.Settles patchyContext := by
    intro column source hs
    simp only [patchyRow, PersistAction.assignments, List.mem_cons, Prod.mk.injEq, Scalar.text.injEq, List.not_mem_nil,
      or_false] at hs
    rcases hs with ⟨-, rfl⟩ | ⟨-, rfl⟩
    · exact ⟨whole, hw, hsettles⟩
    · exact ⟨t, ht, hsettles'⟩
  obtain ⟨htemplates, hvalues, hcolumns⟩ := resolutions_agree patchyContext
  obtain ⟨text, value, hrender, hresolve, htext, hiff, hiff'⟩ := htemplates _ t ht
  obtain ⟨text, rfl⟩ := hiff.mpr (Template.written_eq_ok.mp (hok hwritten))
  obtain ⟨value, rfl⟩ := hiff'.mpr hsettles'
  obtain ⟨hnames, -⟩ := hcolumns 0 patchyRow p hp
  refine ⟨whole, t, p, text, value, hw, ht, hmissing, hvalues _ hparse, hp, htext _ _ rfl rfl, hrender, hresolve, hnames, ?_⟩
  rw [of_decide_eq_true hempty]
  decide

/-- A mapping whose keys have no order. -/
def mixedContext : Members := [(.text "m", .mapping [(.int 1, .int 1), (.text "a", .int 2)])]

/-- A path is missing, and yet no way of resolving a template to text misses it: a value before it has no text. -/
theorem resolutions_agree_mixed : ∃ t, Template.parse "\x7b\x7b m \x7d\x7d \x7b\x7b gone \x7d\x7d" = .ok t ∧
    t.missing mixedContext = ["gone"] ∧ t.render mixedContext = .error (.breakdown (.unordered "str" "int")) ∧
    ((t.resolveText mixedContext true).run.run []).1 = .error (.breakdown (.unordered "str" "int")) := by
  have hall : (Template.parse "\x7b\x7b m \x7d\x7d \x7b\x7b gone \x7d\x7d").toOption.any (fun t =>
      decide (t.missing mixedContext = ["gone"]) && decide (fault? (t.render mixedContext) = some (.breakdown (.unordered "str" "int"))) &&
        decide (fault? ((t.resolveText mixedContext true).run.run []).1 = some (.breakdown (.unordered "str" "int")))) = true := by
    decide +kernel
  obtain ⟨t, ht, hall⟩ := any_toOption.mp hall
  simp only [Bool.and_eq_true, decide_eq_true_eq] at hall
  obtain ⟨⟨hmissing, hstrict⟩, hlenient⟩ := hall
  exact ⟨t, ht, hmissing, fault?_eq_some.mp hstrict, fault?_eq_some.mp hlenient⟩

end Workflow
