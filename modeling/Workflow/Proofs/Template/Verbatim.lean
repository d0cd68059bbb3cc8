import Workflow.Proofs.Assignments
import Workflow.Proofs.InputChecks

/-!
# Text without placeholders

A source in which nothing opens a tag, a comment or a raw section is a template of that text alone. It refers to nothing and
resolves to itself, but for the ends of its lines: every one of them becomes a line feed.
-/

namespace Workflow

namespace Template

/-! ## Sources without tags -/

def openers : List (List Char) := [[leftBrace, leftBrace], [leftBrace, '%'], [leftBrace, '#']]

/-- Nothing in a text opens anything. -/
def Unopened (cs : List Char) : Prop := ∀ opener ∈ openers, ¬ opener <:+: cs

instance : DecidablePred Unopened := fun _ => inferInstanceAs (Decidable (∀ _ ∈ _, _))

theorem startsTag_iff {cs : List Char} : startsTag cs = true ↔ ∃ opener ∈ openers, opener <+: cs := by
  rcases cs with _ | ⟨c, _ | ⟨d, cs⟩⟩
  · simp [startsTag, openers]
  · simp [startsTag, openers, List.cons_prefix_cons]
  · simp only [startsTag, openers, Bool.and_eq_true, Bool.or_eq_true, beq_iff_eq, List.mem_cons, List.not_mem_nil, or_false,
      exists_eq_or_imp, exists_eq_left, List.cons_prefix_cons, List.nil_prefix, and_true]
    grind

theorem unopened_cons {c : Char} {cs : List Char} : Unopened (c :: cs) ↔ startsTag (c :: cs) = false ∧ Unopened cs := by
  have hstarts : startsTag (c :: cs) = false ↔ ∀ opener ∈ openers, ¬ opener <+: c :: cs := by
    rw [Bool.eq_false_iff, ne_eq, startsTag_iff]
    push Not
    rfl
  rw [hstarts]
  simp only [Unopened, List.infix_cons_iff, not_or]
  exact forall₂_and

theorem splitText_eq {cs : List Char} (h : Unopened cs) : splitText cs = (cs, []) := by
  induction cs with
  | nil => rfl
  | cons c cs ih =>
    obtain ⟨hc, hcs⟩ := unopened_cons.mp h
    simp [splitText, hc, ih hcs]

/-! ## Ends of lines -/

theorem startsTag_unifyLines (c : Char) (cs : List Char) : startsTag (c :: unifyLines cs) = startsTag (c :: cs) := by
  fun_cases unifyLines cs <;> simp_all [startsTag, leftBrace]

theorem startsTag_lineFeed (cs : List Char) : startsTag ('\n' :: cs) = false := by cases cs <;> rfl

theorem unopened_unifyLines {cs : List Char} (h : Unopened cs) : Unopened (unifyLines cs) := by
  fun_induction unifyLines cs with
  | case1 rest ih => exact unopened_cons.mpr ⟨startsTag_lineFeed _, ih (unopened_cons.mp (unopened_cons.mp h).2).2⟩
  | case2 rest _ ih => exact unopened_cons.mpr ⟨startsTag_lineFeed _, ih (unopened_cons.mp h).2⟩
  | case3 c rest _ _ ih =>
    obtain ⟨hc, hrest⟩ := unopened_cons.mp h
    exact unopened_cons.mpr ⟨by rwa [startsTag_unifyLines], ih hrest⟩
  | case4 => exact h

theorem not_mem_unifyLines (cs : List Char) : '\r' ∉ unifyLines cs := by
  fun_induction unifyLines cs with
  | case1 rest ih => simp [ih]
  | case2 rest _ ih => simp [ih]
  | case3 c rest _ hc ih => simp [ih, Ne.symm hc]
  | case4 => simp

theorem unifyLines_eq_self {cs : List Char} : unifyLines cs = cs ↔ '\r' ∉ cs := by
  constructor
  · exact fun h => h ▸ not_mem_unifyLines cs
  · intro h
    fun_induction unifyLines cs with
    | case1 rest ih => simp at h
    | case2 rest _ ih => simp at h
    | case3 c rest _ _ ih => rw [ih fun hr => h (List.mem_cons_of_mem c hr)]
    | case4 => rfl

/-- A text whose lines all end in a line feed alone. -/
def unified (s : String) : String := String.ofList (unifyLines s.toList)

theorem unified_eq_self {s : String} : unified s = s ↔ '\r' ∉ s.toList := by
  rw [← unifyLines_eq_self, unified, ← String.toList_inj, String.toList_ofList]

/-! ## The template of a text -/

theorem piecesOf_eq {names : CharacterNames} {s : String} (h : Unopened s.toList) :
    piecesOf names s = textPiece false (unifyLines s.toList) := by
  simp [piecesOf, pieces, splitText_eq (unopened_unifyLines h)]

theorem unifyLines_eq_nil {cs : List Char} : unifyLines cs = [] ↔ cs = [] := by
  fun_cases unifyLines cs <;> simp_all

theorem parse_eq {s : String} (h : Unopened s.toList) :
    parse s = .ok ⟨s, if s = "" then [] else [.text (unified s)]⟩ := by
  have hnil : unifyLines s.toList = [] ↔ s = "" := by rw [unifyLines_eq_nil, String.toList_eq_nil_iff]
  by_cases hs : s = ""
  · subst hs
    rfl
  · simp only [parse, parseWith, piecesOf_eq h, textPiece, if_neg hs, if_neg (mt hnil.mp hs), Bool.false_eq_true, if_false]
    rfl

/-- Resolving a template to text and to a value, whatever was noted before: what both come to, and what they note. -/
def ResolvesTo (t : Template) (context : Members) (lenient : Bool) (text : Except ResolutionFault String)
    (value : Except ResolutionFault Value) (notes : List String) : Prop :=
  ∀ noted, (t.resolveText context lenient).run.run noted = (text, noted ++ notes) ∧
    (t.resolveValue context lenient).run.run noted = (value, noted ++ notes)

end Template

open Template

section
variable {s : String} (h : Unopened s.toList)
include h

theorem exists_parse_unopened : ∃ t, Template.parse s = .ok t ∧ t.paths = .ok [] ∧ ∀ context,
    t.missing context = [] ∧ t.valued context = .ok (.text (unified s)) ∧ t.written context = .ok (unified s) := by
  refine ⟨_, parse_eq h, ?_⟩
  by_cases hs : s = ""
  · subst hs
    exact ⟨rfl, fun context => ⟨rfl, rfl, rfl⟩⟩
  · rw [if_neg hs]
    refine ⟨rfl, fun context => ⟨rfl, ?_, ?_⟩⟩
    · exact congrArg (fun text => Except.ok (Value.text text)) String.empty_append
    · exact congrArg Except.ok String.empty_append

theorem resolvesTo_unopened : ∃ t, Template.parse s = .ok t ∧ t.paths = .ok [] ∧
    ∀ context lenient, t.ResolvesTo context lenient (.ok (unified s)) (.ok (.text (unified s))) [] := by
  obtain ⟨t, ht, hpaths, hresolves⟩ := exists_parse_unopened h
  refine ⟨t, ht, hpaths, fun context lenient => ?_⟩
  obtain ⟨hmissing, hvalue, htext⟩ := hresolves context
  have hvalued := t.resolveValue_ends context
  have hwritten := t.resolveText_ends context
  rw [hmissing, hvalue] at hvalued
  rw [hmissing, htext] at hwritten
  intro noted
  obtain ⟨hl, hs⟩ := hwritten noted
  obtain ⟨hl', hs'⟩ := hvalued noted
  cases lenient with
  | false => exact ⟨by rw [hs, List.append_nil]; rfl, by rw [hs', List.append_nil]; rfl⟩
  | true => exact ⟨hl, hl'⟩

/-! ## Where the text goes -/

theorem resolveScalar_unopened (context : Members) :
    resolveScalar context (.text s) = .ok (.text (unified s), false) := by
  obtain ⟨t, ht, -, hresolves⟩ := exists_parse_unopened h
  obtain ⟨hmissing, hvalue, -⟩ := hresolves context
  rw [resolveScalar_text ht, hmissing, hvalue]
  rfl

theorem renderTemplate_unopened (context : Members) : renderTemplate s context = .ok (unified s) := by
  obtain ⟨t, ht, -, hresolves⟩ := resolvesTo_unopened h
  have htext : t.render context = .ok (unified s) := congrArg Prod.fst (hresolves context false []).1
  simp only [renderTemplate, ht, htext]
  rfl

theorem values_of_prepare {context : Members} {n i : Nat} {a : PersistAction} {p : Prepared} {column : String}
    (hp : a.prepare context n = .ok p) (hi : a.assignments[i]? = some (column, .text s)) :
    p.values[i]? = some (column, .text (unified s)) := by
  obtain ⟨r, hr, hp⟩ := bind_eq_ok.mp hp
  obtain ⟨clause, -, hp⟩ := bind_eq_ok.mp hp
  cases hp
  obtain ⟨rs, hrs, hr⟩ := bind_eq_ok.mp hr
  cases hr
  obtain ⟨hlength, hrows⟩ := List.forall₂_iff_get.mp (mapM_eq_ok.mp hrs)
  obtain ⟨hi, hget⟩ := List.getElem?_eq_some_iff.mp hi
  have hrow := hrows i hi (hlength ▸ hi)
  rw [List.get_eq_getElem, hget] at hrow
  change Except.map (Prod.mk column) (resolveScalar context (.text s)) = _ at hrow
  rw [resolveScalar_unopened h] at hrow
  have hrs : rs[i]? = some (column, .text (unified s), false) :=
    List.getElem?_eq_some_iff.mpr ⟨hlength ▸ hi, (Except.ok.inj hrow).symm⟩
  rw [List.getElem?_map, hrs]
  rfl

/-- **A text in which nothing is opened is data.** It refers to nothing and resolves to itself, whatever the context is and
however it is resolved, when it is written to a column and when it is the path of a file or an artifact. But the ends of its
lines become line feeds, so it is left alone if and only if it has no carriage return. -/
theorem unopened_is_data :
    (∃ t, Template.parse s = .ok t ∧ t.paths = .ok [] ∧
      ∀ context lenient, t.ResolvesTo context lenient (.ok (unified s)) (.ok (.text (unified s))) []) ∧
    (∀ context n (i : Nat) (a : PersistAction) (p : Prepared) (column : String), a.prepare context n = .ok p →
      a.assignments[i]? = some (column, .text s) → p.values[i]? = some (column, .text (unified s))) ∧
    (∀ context, renderTemplate s context = .ok (unified s)) ∧ (unified s = s ↔ '\r' ∉ s.toList) :=
  ⟨resolvesTo_unopened h, fun _ _ _ _ _ _ => values_of_prepare h, renderTemplate_unopened h, unified_eq_self⟩

end

/-- A path with braces and signs of its own. -/
def bracedPath : String := "notes/\x7b2024\x7d %\x7d\x7d#.md\r\n"

def bracedRow : PersistAction := .insert ⟨"notes", [("path", .text bracedPath)]⟩

theorem unopened_is_data_bracedPath : Unopened bracedPath.toList ∧
    (∃ t, Template.parse bracedPath = .ok t ∧ t.paths = .ok [] ∧
      ∀ context lenient, t.ResolvesTo context lenient (.ok (unified bracedPath)) (.ok (.text (unified bracedPath))) []) ∧
    (∃ p, bracedRow.prepare [] 0 = .ok p ∧ p.values[0]? = some ("path", .text (unified bracedPath))) ∧
    renderTemplate bracedPath [] = .ok (unified bracedPath) ∧ unified bracedPath ≠ bracedPath := by
  have hopen : Unopened bracedPath.toList := by decide +kernel
  obtain ⟨hresolves, hwritten, hrendered, hsame⟩ := unopened_is_data hopen
  have hprepared : (bracedRow.prepare [] 0).toOption.any (fun _ => true) = true := by decide
  obtain ⟨p, hp, -⟩ := any_toOption.mp hprepared
  have hreturn : '\r' ∈ bracedPath.toList := by decide
  exact ⟨hopen, hresolves, ⟨p, hp, hwritten [] 0 0 bracedRow p "path" hp rfl⟩, hrendered [], fun he => hsame.mp he hreturn⟩

/-- The carriage return does not arrive. -/
theorem value_carriageReturn : Unopened "a\r\nb".toList ∧
    ∃ t, Template.parse "a\r\nb" = .ok t ∧ t.value [] = .ok (.text "a\nb") ∧ (Value.text "a\nb") ≠ .text "a\r\nb" := by
  have hopen : Unopened "a\r\nb".toList := by decide
  have hunified : unified "a\r\nb" = "a\nb" := by decide
  obtain ⟨t, ht, -, hresolves⟩ := resolvesTo_unopened hopen
  refine ⟨hopen, t, ht, ?_, by simp⟩
  rw [← hunified]
  exact congrArg Prod.fst (hresolves [] false []).2

end Workflow
