import Workflow.Proofs.Except
import Workflow.Template.Resolve

/-!
# References of templates

Whether a template is resolved to text or to a value, strictly or leniently, is decided by the paths that it misses in
a context: leniently all of them are noted, strictly the first of them is the error. A breakdown on the way ends it in all
of these ways, unless a missing path has ended it strictly before.
-/

namespace Workflow

/-! ## Placeholders -/

namespace Placeholder

/-- Whether a placeholder has no value in a context and no default. -/
def misses (p : Placeholder) (context : Members) : Bool :=
  match (Value.mapping context).lookup p.path, p.fallback with
  | .ok none, none => true
  | _, _ => false

/-- What a placeholder stands for, or the breakdown that keeps it from being told. A path that is missing has to be written. -/
def valued (p : Placeholder) (context : Members) : Except Breakdown (Option Value) := do
  match ← (Value.mapping context).lookup p.path, p.fallback with
  | some v, _ => return some v
  | none, some d => return some (.text d)
  | none, none =>
    let _ ← p.dotted
    return none

variable {p : Placeholder} {source : String} {context : Members} {lenient : Bool}

/-- A placeholder is followed to a value, or it is missing, or it breaks down. -/
inductive Course (p : Placeholder) (context : Members) : Except Breakdown (Option Value) → Prop
  | found {v : Value} : (Value.mapping context).lookup p.path = .ok (some v) → Course p context (.ok (some v))
  | fallback {d : String} : (Value.mapping context).lookup p.path = .ok none → p.fallback = some d →
      Course p context (.ok (some (.text d)))
  | missing {path : String} : (Value.mapping context).lookup p.path = .ok none → p.fallback = none → p.dotted = .ok path →
      Course p context (.ok none)
  | lost {b : Breakdown} : (Value.mapping context).lookup p.path = .error b → Course p context (.error b)
  | unwritten {b : Breakdown} : (Value.mapping context).lookup p.path = .ok none → p.fallback = none → p.dotted = .error b →
      Course p context (.error b)

theorem course (p : Placeholder) (context : Members) : p.Course context (p.valued context) := by
  unfold valued
  cases hl : (Value.mapping context).lookup p.path with
  | error b => exact .lost hl
  | ok o =>
    cases o with
    | some v => exact .found hl
    | none =>
      cases hf : p.fallback with
      | some d => exact .fallback hl hf
      | none =>
        cases hd : p.dotted with
        | error b => exact .unwritten hl hf hd
        | ok path => exact .missing hl hf hd

theorem dotted_ok {path : String} (h : p.dotted = .ok path) : path = dottedPath p.path := by
  unfold dotted writtenPath at h
  split at h
  · cases h
    rfl
  · cases h

/-- What a resolution of a placeholder comes to. -/
theorem resolve_eq (p : Placeholder) : p.resolve context source lenient =
    match (Value.mapping context).lookup p.path, p.fallback with
    | .error b, _ => .error (.breakdown b)
    | .ok (some v), _ => .ok (some v)
    | .ok none, some d => .ok (some (.text d))
    | .ok none, none =>
      if lenient then .ok none
      else (p.dotted.mapError .breakdown).bind fun path => .error (.unresolved ⟨path, source⟩) := by
  unfold resolve
  cases (Value.mapping context).lookup p.path with
  | error b => rfl
  | ok o => cases o <;> cases p.fallback <;> rfl

end Placeholder

/-! ## Endings -/

namespace Resolution

variable {α β : Type} {source : String} {missing : List String}

theorem lift_ok (a : α) (f : α → Resolution β) : (liftM (Except.ok a : Except ResolutionFault α) >>= f) = f a := rfl

theorem need_ok (s : String) (f : String → Resolution β) : (need (.ok s) >>= f) = f s := rfl

/-- A result, unless a path is missing: then that is the error. -/
def strictly (source : String) (missing : List String) (a : α) : Except ResolutionFault α :=
  match missing with
  | [] => .ok a
  | path :: _ => .error (.unresolved ⟨path, source⟩)

/-- How a resolution ends that comes to a value, or breaks down, and misses some paths. Leniently the paths are noted, as far as
it gets; strictly the first of them is the error, or it comes to the same as leniently where there is none. -/
def Ends (r : Bool → Resolution α) (source : String) (missing : List String) : Except Breakdown α → Prop
  | .ok a => ∀ noted, (r true).run.run noted = (.ok a, noted ++ missing) ∧
      (r false).run.run noted = (strictly source missing a, noted)
  | .error b => ∀ noted, (∃ notes, notes <+: missing ∧ (r true).run.run noted = (.error (.breakdown b), noted ++ notes)) ∧
      ∃ f, (r false).run.run noted = (.error f, noted) ∧
        (f = .breakdown b ∨ ∃ path rest, missing = path :: rest ∧ f = .unresolved ⟨path, source⟩)

namespace Ends

variable {r : Bool → Resolution α} {x : Except Breakdown α}

theorem pure (a : α) : Ends (fun _ => Pure.pure a) source [] (.ok a) := fun noted =>
  ⟨congrArg (Prod.mk _) (List.append_nil noted).symm, rfl⟩

theorem breaks {b : Breakdown} (h : ∀ lenient noted, (r lenient).run.run noted = (.error (.breakdown b), noted)) :
    Ends r source missing (.error b) :=
  fun noted => ⟨⟨[], List.nil_prefix, by rw [List.append_nil, h true noted]⟩, .breakdown b, h false noted, .inl rfl⟩

theorem map (h : Ends r source missing x) (f : α → β) :
    Ends (fun lenient => do return f (← r lenient)) source missing (x.map f) := by
  cases x with
  | error b =>
    intro noted
    obtain ⟨⟨notes, hnotes, hl⟩, g, hs, hg⟩ := h noted
    refine ⟨⟨notes, hnotes, ?_⟩, g, ?_, hg⟩
    · simp only [ExceptT.run_bind, StateT.run_bind, hl]
      rfl
    · simp only [ExceptT.run_bind, StateT.run_bind, hs]
      rfl
  | ok a =>
    intro noted
    obtain ⟨hl, hs⟩ := h noted
    constructor
    · simp only [ExceptT.run_bind, StateT.run_bind, hl]
      rfl
    · simp only [ExceptT.run_bind, StateT.run_bind, hs]
      cases missing <;> rfl

theorem strict_of_ok {a : α} (h : Ends r source missing (.ok a)) : (r false).result = strictly source missing a :=
  congrArg Prod.fst (h []).2

/-- What is noted leniently is missing. -/
theorem noted_subset (h : Ends r source missing x) : ((r true).run.run []).2 ⊆ missing := by
  cases x with
  | ok a => rw [(h []).1, List.nil_append]; exact List.Subset.refl missing
  | error b =>
    obtain ⟨⟨notes, hnotes, hn⟩, -⟩ := h []
    rw [hn, List.nil_append]
    exact hnotes.subset

theorem strict_of_nil (h : Ends r source [] x) : (r false).result = x.mapError .breakdown := by
  cases x with
  | ok a => exact h.strict_of_ok
  | error b =>
    obtain ⟨-, f, hf, rfl | ⟨path, rest, hnil, -⟩⟩ := h []
    · exact congrArg Prod.fst hf
    · cases hnil

theorem strict_error (h : Ends r source missing x) {f : ResolutionFault} (hf : (r false).result = .error f) :
    (∃ b, x = .error b ∧ f = .breakdown b) ∨ ∃ path rest, missing = path :: rest ∧ f = .unresolved ⟨path, source⟩ := by
  cases x with
  | error b =>
    obtain ⟨-, g, hg, hcases⟩ := h []
    cases (congrArg Prod.fst hg).symm.trans hf
    exact hcases.imp (fun hb => ⟨b, rfl, hb⟩) id
  | ok a =>
    rw [h.strict_of_ok, strictly.eq_def] at hf
    split at hf
    · cases hf
    · cases hf
      exact .inr ⟨_, _, rfl, rfl⟩

theorem strict_ok (h : Ends r source missing x) {a : α} : (r false).result = .ok a ↔ x = .ok a ∧ missing = [] := by
  constructor
  · intro ha
    cases x with
    | error b =>
      obtain ⟨-, f, hf, -⟩ := h []
      cases (congrArg Prod.fst hf).symm.trans ha
    | ok b =>
      rw [h.strict_of_ok, strictly.eq_def] at ha
      split at ha
      · cases ha
        exact ⟨rfl, rfl⟩
      · cases ha
  · rintro ⟨rfl, rfl⟩
    exact h.strict_of_ok

end Ends

end Resolution

/-! ## Templates -/

section
variable {source : String} {context : Members} {lenient : Bool}

theorem Value.asText_text (s : String) : (Value.text s).asText = .ok s := rfl

namespace Placeholder

variable {p : Placeholder}

theorem valued_of_found {v : Value} (h : (Value.mapping context).lookup p.path = .ok (some v)) : p.valued context = .ok (some v) := by
  rw [valued, h]
  rfl

theorem resolve_some {v : Value} (hv : p.valued context = .ok (some v)) : p.resolve context source lenient = .ok (some v) := by
  have hcourse := p.course context
  rw [hv] at hcourse
  cases hcourse with
  | found hl => rw [resolve_eq, hl]
  | fallback hl hf => rw [resolve_eq, hl, hf]

theorem misses_eq {o : Option Value} (h : p.valued context = .ok o) : p.misses context = o.isNone := by
  have hcourse := p.course context
  rw [h] at hcourse
  cases hcourse with
  | found hl => rw [misses, hl]; rfl
  | fallback hl hf => rw [misses, hl, hf]; rfl
  | missing hl hf _ => rw [misses, hl, hf]; rfl

end Placeholder

/-- The path of a placeholder that a segment misses. -/
def Segment.missing? (context : Members) : Segment → Option String
  | .text _ => none
  | .placeholder p => if p.misses context then some (dottedPath p.path) else none

/-- The text of a segment; none where it misses its path. -/
def Segment.written (context : Members) : Segment → Except Breakdown (Option String)
  | .text s => .ok (some s)
  | .placeholder p => do
    match ← p.valued context with
    | some v => return some (← v.asText)
    | none => return none

namespace Template

/-- The dotted paths of the placeholders that are absent from a context and have no default, in reading order. -/
def missing (t : Template) (context : Members) : List String :=
  (t.placeholders.filter fun p => p.misses context).map fun p => dottedPath p.path

/-- The text of a template, with nothing for absent values. -/
def written (t : Template) (context : Members) : Except Breakdown String := do
  return String.join ((← t.segments.mapM (Segment.written context)).filterMap id)

/-- The value of a template, with empty text for an absent one. -/
def valued (t : Template) (context : Members) : Except Breakdown Value :=
  match t.lone? with
  | some p => (p.valued context).map fun v => v.getD (.text "")
  | none => (t.written context).map .text

theorem missing_eq (t : Template) : t.missing context = t.segments.filterMap (Segment.missing? context) := by
  unfold missing placeholders
  rw [List.filter_filterMap, List.map_filterMap]
  congr 1
  funext segment
  cases segment with
  | text s => rfl
  | placeholder p => cases h : p.misses context <;> simp [Segment.missing?, Option.filter, h]

open Resolution

/-! ### Going on from a placeholder -/

section
variable {α : Type} {p : Placeholder} {found : Bool → Value → Resolution α} {absent : Bool → Resolution α}
  {missing : List String} {x : Except Breakdown α}

/-- Go on with what a placeholder stands for; where that is nothing, note it first. -/
def take (source : String) (context : Members) (p : Placeholder) (found : Bool → Value → Resolution α)
    (absent : Bool → Resolution α) (lenient : Bool) : Resolution α := do
  match ← (p.resolve context source lenient : Except _ _) with
  | some v => found lenient v
  | none =>
    note p
    absent lenient

theorem take_found {v : Value} (hv : p.valued context = .ok (some v))
    (h : Ends (fun lenient => found lenient v) source missing x) : Ends (take source context p found absent) source missing x := by
  have htake : take source context p found absent = fun lenient => found lenient v := by
    funext lenient
    rw [take, Placeholder.resolve_some hv, lift_ok]
  rwa [htake]

theorem take_missing (hv : p.valued context = .ok none) (h : Ends absent source missing x) :
    Ends (take source context p found absent) source (dottedPath p.path :: missing) x := by
  have hcourse := p.course context
  rw [hv] at hcourse
  cases hcourse with
  | missing hl hf hd =>
    cases Placeholder.dotted_ok hd
    have hlenient : take source context p found absent true = (note p >>= fun _ => absent true) := by
      rw [take, Placeholder.resolve_eq, hl, hf]
      rfl
    have hstrict : take source context p found absent false = throw (.unresolved ⟨dottedPath p.path, source⟩) := by
      rw [take, Placeholder.resolve_eq, hl, hf, hd]
      rfl
    have hnote : note p = modify fun noted => noted ++ [dottedPath p.path] := by
      rw [note, hd, need_ok]
    cases x with
    | error b =>
      intro noted
      obtain ⟨⟨notes, hnotes, hn⟩, -⟩ := h (noted ++ [dottedPath p.path])
      refine ⟨⟨dottedPath p.path :: notes, List.prefix_cons_inj _ |>.mpr hnotes, ?_⟩, _, by rw [hstrict]; rfl,
        .inr ⟨_, _, rfl, rfl⟩⟩
      rw [hlenient, hnote, List.append_cons]
      exact hn
    | ok a =>
      intro noted
      obtain ⟨hn, -⟩ := h (noted ++ [dottedPath p.path])
      refine ⟨?_, by rw [hstrict]; rfl⟩
      rw [hlenient, hnote, List.append_cons]
      exact hn

theorem take_broken {b : Breakdown} (hv : p.valued context = .error b) :
    Ends (take source context p found absent) source missing (.error b) := by
  refine .breaks fun lenient noted => ?_
  have hcourse := p.course context
  rw [hv] at hcourse
  cases hcourse with
  | lost hl =>
    rw [take, Placeholder.resolve_eq, hl]
    rfl
  | unwritten hl hf hd =>
    rw [take, Placeholder.resolve_eq, hl, hf, hd]
    cases lenient with
    | false => rfl
    | true =>
      rw [note, hd]
      rfl

end

/-! ### Texts and values -/

/-- The texts of segments, as far as they have any. -/
def writtenTexts (context : Members) (segments : List Segment) : Except Breakdown (List String) :=
  (segments.mapM (Segment.written context)).map (List.filterMap id)

theorem writtenTexts_cons {segment : Segment} {rest : List Segment} : writtenTexts context (segment :: rest) =
    (segment.written context).bind fun text => (writtenTexts context rest).map (text.toList ++ ·) := by
  unfold writtenTexts
  rw [List.mapM_cons]
  cases segment.written context with
  | error b => rfl
  | ok text =>
    cases rest.mapM (Segment.written context) with
    | error b => rfl
    | ok texts => cases text <;> rfl

theorem textsOf_ends (segments : List Segment) :
    Ends (fun lenient => textsOf source context lenient segments) source (segments.filterMap (Segment.missing? context))
      (writtenTexts context segments) := by
  induction segments with
  | nil => exact .pure []
  | cons segment rest ih =>
    cases segment with
    | text s =>
      rw [writtenTexts_cons]
      exact ih.map (s :: ·)
    | placeholder p =>
      rw [writtenTexts_cons, List.filterMap_cons, Segment.missing?, Segment.written]
      cases hv : p.valued context with
      | error b => exact take_broken hv
      | ok o =>
        rw [Placeholder.misses_eq hv]
        cases o with
        | none =>
          have hrest : (writtenTexts context rest).map ([] ++ ·) = writtenTexts context rest := by
            cases writtenTexts context rest <;> rfl
          change Ends _ _ _ ((writtenTexts context rest).map ([] ++ ·))
          rw [hrest]
          exact take_missing hv ih
        | some v =>
          refine take_found hv ?_
          simp only [ok_bind]
          cases v.asText with
          | error b => exact .breaks fun _ _ => rfl
          | ok text => exact ih.map (text :: ·)

theorem resolveText_ends (t : Template) (context : Members) :
    Ends (fun lenient => t.resolveText context lenient) t.source (t.missing context) (t.written context) := by
  have hwritten : t.written context = (writtenTexts context t.segments).map String.join := by
    unfold written writtenTexts
    cases t.segments.mapM (Segment.written context) <;> rfl
  rw [missing_eq, hwritten]
  exact (textsOf_ends t.segments).map String.join

theorem segments_of_lone? {t : Template} {p : Placeholder} (h : t.lone? = some p) : t.segments = [.placeholder p] := by
  unfold lone? at h
  split at h
  · cases h
    assumption
  · cases h

theorem missing_of_lone? {t : Template} {p : Placeholder} (h : t.lone? = some p) :
    t.missing context = if p.misses context then [dottedPath p.path] else [] := by
  rw [missing_eq, segments_of_lone? h]
  cases hp : p.misses context <;> simp [Segment.missing?, hp]

theorem resolveValue_ends (t : Template) (context : Members) :
    Ends (fun lenient => t.resolveValue context lenient) t.source (t.missing context) (t.valued context) := by
  unfold resolveValue valued
  cases hl : t.lone? with
  | none => exact (resolveText_ends t context).map Value.text
  | some p =>
    rw [missing_of_lone? hl]
    change Ends (take t.source context p (fun _ v => pure v) fun _ => pure (.text "")) _ _
      ((p.valued context).map fun v => v.getD (.text ""))
    cases hv : p.valued context with
    | error b => exact take_broken hv
    | ok o =>
      rw [Placeholder.misses_eq hv]
      cases o with
      | some v => exact take_found hv (.pure v)
      | none => exact take_missing hv (.pure (Value.text ""))

/-- The text of a template is that of its value. -/
theorem asText_of_valued {t : Template} {text : String} {v : Value} (ht : t.written context = .ok text)
    (hv : t.valued context = .ok v) : v.asText = .ok text := by
  unfold valued at hv
  cases hl : t.lone? with
  | none =>
    rw [hl, ht] at hv
    cases hv
    rfl
  | some p =>
    rw [hl] at hv
    obtain ⟨o, ho, rfl⟩ := map_eq_ok.mp hv
    unfold written at ht
    rw [segments_of_lone? hl] at ht
    simp only [List.mapM_cons, List.mapM_nil, Segment.written, ho, ok_bind] at ht
    cases o with
    | none =>
      cases ht
      rfl
    | some v =>
      obtain ⟨texts, htexts, ht⟩ := bind_eq_ok.mp ht
      obtain ⟨o, ho, htexts⟩ := bind_eq_ok.mp htexts
      obtain ⟨s, hs, ho⟩ := bind_eq_ok.mp ho
      cases ho
      cases htexts
      cases ht
      simpa [String.join] using hs

/-! ### Strict resolution -/

section
variable {t : Template} {v : Value} {text : String} {f : ResolutionFault}

theorem value_eq (hv : t.valued context = .ok v) : t.value context = strictly t.source (t.missing context) v :=
  Ends.strict_of_ok (hv ▸ t.resolveValue_ends context)

theorem value_ok : t.value context = .ok v ↔ t.valued context = .ok v ∧ t.missing context = [] :=
  (t.resolveValue_ends context).strict_ok

theorem value_error (h : t.value context = .error f) : (∃ b, t.valued context = .error b ∧ f = .breakdown b) ∨
    ∃ path rest, t.missing context = path :: rest ∧ f = .unresolved ⟨path, t.source⟩ :=
  (t.resolveValue_ends context).strict_error h

theorem render_of_nil (h : t.missing context = []) : t.render context = (t.written context).mapError .breakdown :=
  Ends.strict_of_nil (h ▸ t.resolveText_ends context)

theorem render_error (h : t.render context = .error f) : (∃ b, t.written context = .error b ∧ f = .breakdown b) ∨
    ∃ path rest, t.missing context = path :: rest ∧ f = .unresolved ⟨path, t.source⟩ :=
  (t.resolveText_ends context).strict_error h

end

end Template

end

end Workflow
