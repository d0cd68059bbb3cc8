import Mathlib.Data.List.Basic
import Workflow.Proofs.Template.Readers

/-!
# How expressions are spelled

The expressions that substitution is made of are names, literals, their members and items, and defaults. Whatever parses as
one of them is spelled as one: the parser, which knows many other expressions, builds none of these out of them.
-/

namespace Workflow.Template

/-- An expression of names and literals, members and literal items, and defaults. -/
inductive Plain : Expr → Prop
  | name {s : String} : Plain (.name s)
  | literal {l : Literal} : Plain (.literal l)
  | member {e : Expr} {s : String} : Plain e → Plain (.attribute e s)
  | item {e : Expr} {l : Literal} : Plain e → Plain (.item e (.literal l))
  | default {e : Expr} {l : Literal} : Plain e → Plain (.filter e "default" [.literal l] false)

inductive Spells : List Lexeme → Expr → Prop
  | name {s : String} : constant? s = none → Spells [.name s] (.name s)
  | constant {s : String} {l : Literal} : constant? s = some l → Spells [.name s] (.literal l)
  | int {n : Nat} : Spells [.int n] (.literal (.int n))
  | float {x : Binary64} : Spells [.float x] (.literal (.float x))
  | texts {s : String} {ss : List String} : Spells ((s :: ss).map .text) (.literal (.text (String.join (s :: ss))))
  | enclosed {ts : List Lexeme} {e : Expr} : Spells ts e → Spells (.symbol "(" :: (ts ++ [.symbol ")"])) e
  | member {ts : List Lexeme} {e : Expr} {s : String} : Spells ts e →
      Spells (ts ++ [.symbol ".", .name s]) (.attribute e s)
  | position {ts : List Lexeme} {e : Expr} {n : Nat} : Spells ts e →
      Spells (ts ++ [.symbol ".", .int n]) (.item e (.literal (.int n)))
  | item {ts us : List Lexeme} {e : Expr} {l : Literal} : Spells ts e → Spells us (.literal l) →
      Spells (ts ++ .symbol "[" :: (us ++ [.symbol "]"])) (.item e (.literal l))
  | default {ts us comma : List Lexeme} {e : Expr} {l : Literal} : Spells ts e → Spells us (.literal l) →
      comma = [] ∨ comma = [.symbol ","] →
      Spells (ts ++ .symbol "|" :: .name "default" :: .symbol "(" :: (us ++ comma ++ [.symbol ")"]))
        (.filter e "default" [.literal l] false)

def Covers (ts rest : List Lexeme) (e : Expr) : Prop := ∃ us, ts = us ++ rest ∧ Spells us e

/-- What follows an expression makes another one of it. -/
def Extends (ts rest : List Lexeme) (e₀ e : Expr) : Prop :=
  Plain e₀ ∧ ∀ us, Spells us e₀ → ∃ vs, ts = vs ++ rest ∧ Spells (us ++ vs) e

theorem failAt_ne {α : Type} {ts : List Lexeme} {a : α} : failAt ts ≠ .ok a := by
  unfold failAt
  split
  · nofun
  · nofun

theorem symbol_ok {s : String} {ts rest : List Lexeme} (h : symbol s ts = .ok rest) : ts = .symbol s :: rest := by
  unfold symbol at h
  split at h
  · split at h
    · cases h
      subst s
      rfl
    · cases h
  · exact absurd h failAt_ne

section
variable {n : Nat} {ts rest : List Lexeme} {e e₀ : Expr}

theorem Extends.refl (h : Plain e) : Extends ts ts e e := ⟨h, fun us hus => ⟨[], rfl, by simpa using hus⟩⟩

/-! ## What ends in no plain expression -/

theorem conditionTail_plain (h : conditionTail n e₀ ts = .ok (e, rest)) (he : Plain e) : e = e₀ ∧ ts = rest := by
  induction n generalizing e₀ ts with
  | zero => simp [conditionTail, failAt_ne] at h
  | succ n ih =>
    unfold conditionTail at h
    split at h
    · cases ‹n + 1 = 0›
    · cases ‹n + 1 = _›
      obtain ⟨⟨c, ts'⟩, -, h⟩ := bind_eq_ok.mp h
      dsimp only at h
      split at h
      · obtain ⟨⟨o, ts''⟩, -, h⟩ := bind_eq_ok.mp h
        obtain ⟨rfl, -⟩ := ih h
        cases he
      · obtain ⟨rfl, -⟩ := ih h
        cases he
    · cases h
      exact ⟨rfl, rfl⟩

theorem operationTail_plain {level : Nat} (h : operationTail n level e₀ ts = .ok (e, rest)) (he : Plain e) :
    e = e₀ ∧ ts = rest := by
  induction n generalizing e₀ ts with
  | zero => simp [operationTail, failAt_ne] at h
  | succ n ih =>
    unfold operationTail at h
    split at h
    · obtain ⟨⟨right, ts'⟩, -, h⟩ := bind_eq_ok.mp h
      obtain ⟨rfl, -⟩ := ih h
      cases he
    · split at h
      · cases h
      · cases h
        exact ⟨rfl, rfl⟩

theorem indexTail_single {is acc : List Expr} (h : indexTail n acc ts = .ok (is, rest)) :
    acc.length ≤ is.length ∧ (is.length = acc.length → is = acc.reverse ∧ ts = .symbol "]" :: rest) := by
  induction n generalizing acc ts with
  | zero => simp [indexTail, failAt_ne] at h
  | succ n ih =>
    unfold indexTail at h
    split at h
    · cases h
      simp
    · obtain ⟨⟨i, ts'⟩, -, h⟩ := bind_eq_ok.mp h
      obtain ⟨hle, -⟩ := ih h
      rw [List.length_cons] at hle
      exact ⟨by omega, fun hlength => by omega⟩
    · exact absurd h failAt_ne

theorem not_plain_slice {bounds : List Expr} : ¬ Plain (.slice bounds) := nofun

theorem sliceTail_slice {acc : List Expr} (h : sliceTail n acc ts = .ok (e, rest)) : ¬ Plain e := by
  cases n with
  | zero => simp [sliceTail, failAt_ne] at h
  | succ n =>
    unfold sliceTail at h
    dsimp only at h
    split at h
    all_goals
      obtain ⟨x, -, h⟩ := bind_eq_ok.mp h
      split at h
      · obtain ⟨y, -, h⟩ := bind_eq_ok.mp h
        cases h
        exact not_plain_slice
      · cases h
        exact not_plain_slice

theorem not_plain_negated {negated : Bool} {name : String} {args : List Expr} :
    ¬ Plain (if negated then .unary "not" (.test e name args) else .test e name args) := by
  cases negated <;> nofun

theorem test_plain (h : test n e₀ ts = .ok (e, rest)) : ¬ Plain e := by
  cases n with
  | zero => simp [test, failAt_ne] at h
  | succ n =>
    unfold test at h
    dsimp only at h
    obtain ⟨⟨name, ts'⟩, -, h⟩ := bind_eq_ok.mp h
    dsimp only at h
    split at h
    · obtain ⟨⟨as, ts''⟩, -, h⟩ := bind_eq_ok.mp h
      cases h
      exact not_plain_negated
    · cases h
    · split at h
      · obtain ⟨⟨a, ts₁⟩, -, h⟩ := bind_eq_ok.mp h
        obtain ⟨⟨b, ts₂⟩, -, h⟩ := bind_eq_ok.mp h
        cases h
        exact not_plain_negated
      · cases h
        exact not_plain_negated

/-! ## Names of filters and their arguments -/

theorem dottedName_single {name : String} (h : dottedName n ts = .ok (name, rest)) (hname : '.' ∉ name.toList) :
    ts = .name name :: rest := by
  unfold dottedName at h
  split at h
  · exact absurd h failAt_ne
  · obtain ⟨⟨t, ts'⟩, -, h⟩ := bind_eq_ok.mp h
    cases h
    simp at hname
  · cases h
    rfl
  · exact absurd h failAt_ne

def Arguments.Within (as as' : Arguments) : Prop := (as.extra = true → as'.extra = true) ∧ as.plain.length ≤ as'.plain.length

theorem lastArguments_eq {as as' : Arguments} (h : lastArguments as ts = .ok (as', rest)) : as' = as := by
  unfold lastArguments at h
  split at h
  · cases h
    rfl
  · cases h
    rfl
  · exact absurd h failAt_ne
  · exact absurd h failAt_ne
  · exact absurd h failAt_ne

theorem arguments_within : (∀ spread as ts as' rest, arguments n spread as ts = .ok (as', rest) → as.Within as') ∧
    ∀ spread as ts as' rest, argumentTail n spread as ts = .ok (as', rest) → as.Within as' := by
  induction n with
  | zero => simp [arguments, argumentTail, failAt_ne]
  | succ n ih =>
    obtain ⟨harguments, htail⟩ := ih
    constructor
    · intro spread as ts as' rest h
      unfold arguments at h
      split at h
      · cases h
        exact ⟨id, Nat.le_refl _⟩
      · split at h
        · cases h
        · obtain ⟨x, -, h⟩ := bind_eq_ok.mp h
          obtain ⟨hextra, hplain⟩ := htail _ _ _ _ _ h
          exact ⟨fun _ => hextra rfl, hplain⟩
      · obtain ⟨x, -, h⟩ := bind_eq_ok.mp h
        cases lastArguments_eq h
        exact ⟨fun _ => rfl, Nat.le_refl _⟩
      · obtain ⟨x, -, h⟩ := bind_eq_ok.mp h
        obtain ⟨hextra, hplain⟩ := htail _ _ _ _ _ h
        exact ⟨fun _ => hextra rfl, hplain⟩
      · cases h
      · split at h
        · exact absurd h failAt_ne
        · obtain ⟨x, -, h⟩ := bind_eq_ok.mp h
          obtain ⟨hextra, hplain⟩ := htail _ _ _ _ _ h
          rw [List.length_append] at hplain
          exact ⟨hextra, by omega⟩
    · intro spread as ts as' rest h
      unfold argumentTail at h
      split at h
      · cases h
        exact ⟨id, Nat.le_refl _⟩
      · exact harguments _ _ _ _ _ h
      · exact absurd h failAt_ne

theorem arguments_cases {spread : Bool} {as as' : Arguments} (h : arguments n spread as ts = .ok (as', rest))
    (hextra : as'.extra = false) : as' = as ∧ ts = .symbol ")" :: rest ∨
      ∃ m e ts', n = m + 1 ∧ expression m true ts = .ok (e, ts') ∧
        argumentTail m spread { as with plain := as.plain ++ [e] } ts' = .ok (as', rest) := by
  unfold arguments at h
  split at h
  · exact absurd h failAt_ne
  · rename_i m
    split at h
    · cases h
      exact .inl ⟨rfl, rfl⟩
    · split at h
      · cases h
      · obtain ⟨x, -, h⟩ := bind_eq_ok.mp h
        exact absurd ((arguments_within.2 _ _ _ _ _ h).1 rfl) (by simp [hextra])
    · obtain ⟨x, -, h⟩ := bind_eq_ok.mp h
      cases lastArguments_eq h
      cases hextra
    · obtain ⟨x, -, h⟩ := bind_eq_ok.mp h
      exact absurd ((arguments_within.2 _ _ _ _ _ h).1 rfl) (by simp [hextra])
    · cases h
    · split at h
      · exact absurd h failAt_ne
      · obtain ⟨⟨e, ts'⟩, he, h⟩ := bind_eq_ok.mp h
        exact .inr ⟨m, e, ts', rfl, he, h⟩

/-! ## What is read is spelled -/

theorem adjacentTexts_spec (ts : List Lexeme) : ∃ ss, ts = ss.map .text ++ (adjacentTexts ts).2 ∧
    (adjacentTexts ts).1 = String.join ss := by
  fun_induction adjacentTexts ts with
  | case1 s rest t rest' hrest ih =>
    obtain ⟨ss, hss, hjoin⟩ := ih
    rw [hrest] at hss hjoin
    exact ⟨s :: ss, by rw [List.map_cons, List.cons_append, ← hss], by rw [String.join_cons, ← hjoin]⟩
  | case2 rest => exact ⟨[], rfl, rfl⟩

/-- With some fuel, whatever is read as a plain expression is spelled as one. -/
structure Sound (n : Nat) : Prop where
  expression {conditional : Bool} {ts rest : List Lexeme} {e : Expr} : expression n conditional ts = .ok (e, rest) →
    Plain e → Covers ts rest e
  operation {level : Nat} {ts rest : List Lexeme} {e : Expr} : operation n level ts = .ok (e, rest) →
    Plain e → Covers ts rest e
  operand {filters : Bool} {ts rest : List Lexeme} {e : Expr} : operand n filters ts = .ok (e, rest) →
    Plain e → Covers ts rest e
  primary {ts rest : List Lexeme} {e : Expr} : primary n ts = .ok (e, rest) → Plain e → Covers ts rest e
  tuple {conditional enclosed : Bool} {enders : List String} {ts rest : List Lexeme} {e : Expr} :
    tuple n conditional enders enclosed ts = .ok (e, rest) → Plain e → Covers ts rest e
  index {ts rest : List Lexeme} {e : Expr} : index n ts = .ok (e, rest) → Plain e → Covers ts rest e
  subscripts {ts rest : List Lexeme} {e₀ e : Expr} : subscripts n e₀ ts = .ok (e, rest) → Plain e → Extends ts rest e₀ e
  filterTail {ts rest : List Lexeme} {e₀ e : Expr} : filterTail n e₀ ts = .ok (e, rest) → Plain e → Extends ts rest e₀ e

theorem Covers.extend {ts' : List Lexeme} (h : Extends ts' rest e₀ e) (hc : Covers ts ts' e₀) : Covers ts rest e := by
  obtain ⟨us, rfl, hus⟩ := hc
  obtain ⟨vs, rfl, hvs⟩ := h.2 us hus
  exact ⟨us ++ vs, (List.append_assoc us vs rest).symm, hvs⟩

theorem expression_sound (ih : Sound n) {conditional : Bool} (h : expression (n + 1) conditional ts = .ok (e, rest))
    (he : Plain e) : Covers ts rest e := by
  rw [expression] at h
  obtain ⟨⟨e₀, ts'⟩, h₀, h⟩ := bind_eq_ok.mp h
  dsimp only at h
  split at h
  · obtain ⟨rfl, rfl⟩ := conditionTail_plain h he
    exact ih.operation h₀ he
  · cases h
    exact ih.operation h₀ he

theorem operation_sound (ih : Sound n) {level : Nat} (h : operation (n + 1) level ts = .ok (e, rest)) (he : Plain e) :
    Covers ts rest e := by
  unfold operation at h
  split at h
  · exact ih.operand h he
  · split at h
    · split at h
      · obtain ⟨⟨e₀, ts'⟩, -, h⟩ := bind_eq_ok.mp h
        cases h
        cases he
      · exact ih.operation h he
    · obtain ⟨⟨e₀, ts'⟩, h₀, h⟩ := bind_eq_ok.mp h
      obtain ⟨rfl, rfl⟩ := operationTail_plain h he
      exact ih.operation h₀ he

theorem tuple_sound (ih : Sound n) {conditional enclosed : Bool} {enders : List String}
    (h : tuple (n + 1) conditional enders enclosed ts = .ok (e, rest)) (he : Plain e) : Covers ts rest e := by
  rw [tuple] at h
  split at h
  · split at h
    · cases h
      cases he
    · exact absurd h failAt_ne
  · obtain ⟨⟨e₀, ts'⟩, h₀, h⟩ := bind_eq_ok.mp h
    dsimp only at h
    split at h
    · obtain ⟨x, -, h⟩ := map_eq_ok.mp h
      cases h
      cases he
    · cases h
      exact ih.expression h₀ he

theorem index_sound (ih : Sound n) (h : index (n + 1) ts = .ok (e, rest)) (he : Plain e) : Covers ts rest e := by
  unfold index at h
  dsimp only at h
  split at h
  · exact absurd he (sliceTail_slice h)
  · obtain ⟨⟨e₀, ts'⟩, h₀, h⟩ := bind_eq_ok.mp h
    dsimp only at h
    split at h
    · exact absurd he (sliceTail_slice h)
    · cases h
      exact ih.expression h₀ he

theorem operand_sound (ih : Sound n) {filters : Bool} (h : operand (n + 1) filters ts = .ok (e, rest)) (he : Plain e) :
    Covers ts rest e := by
  have hrest {e₁ : Expr} {ts₁ : List Lexeme} (h : ((subscripts n e₁ ts₁).bind fun x =>
      if filters then filterTail n x.1 x.2 else pure (x.1, x.2)) = .ok (e, rest)) :
      ∃ e₂ ts₂, Extends ts₁ ts₂ e₁ e₂ ∧ Extends ts₂ rest e₂ e := by
    obtain ⟨⟨e₂, ts₂⟩, h₂, h⟩ := bind_eq_ok.mp h
    dsimp only at h
    split at h
    · have hfilters := ih.filterTail h he
      exact ⟨e₂, ts₂, ih.subscripts h₂ hfilters.1, hfilters⟩
    · cases h
      exact ⟨e, rest, ih.subscripts h₂ he, .refl he⟩
  unfold operand at h
  dsimp only at h
  split at h
  · obtain ⟨x, hx, h⟩ := bind_eq_ok.mp h
    obtain ⟨y, -, rfl⟩ := map_eq_ok.mp hx
    obtain ⟨e₂, ts₂, ⟨hsigned, -⟩, -⟩ := hrest h
    cases hsigned
  · obtain ⟨x, hx, h⟩ := bind_eq_ok.mp h
    obtain ⟨y, -, rfl⟩ := map_eq_ok.mp hx
    obtain ⟨e₂, ts₂, ⟨hsigned, -⟩, -⟩ := hrest h
    cases hsigned
  · obtain ⟨⟨e₁, ts₁⟩, h₁, h⟩ := bind_eq_ok.mp h
    obtain ⟨e₂, ts₂, hsubscripts, hfilters⟩ := hrest h
    exact .extend hfilters (.extend hsubscripts (ih.primary h₁ hsubscripts.1))

theorem primary_sound (ih : Sound n) (h : primary (n + 1) ts = .ok (e, rest)) (he : Plain e) : Covers ts rest e := by
  unfold primary at h
  split at h
  · split at h
    · cases h
      exact ⟨[_], rfl, .constant ‹_›⟩
    · cases h
      exact ⟨[_], rfl, .name ‹_›⟩
  · rename_i s ts
    obtain ⟨ss, hss, hjoin⟩ := adjacentTexts_spec ts
    rw [adjacentTexts] at h
    cases h
    refine ⟨(s :: ss).map .text, by rw [List.map_cons, List.cons_append, ← hss], ?_⟩
    rw [hjoin, ← String.join_cons]
    exact .texts
  · cases h
    exact ⟨[_], rfl, .int⟩
  · cases h
    exact ⟨[_], rfl, .float⟩
  · obtain ⟨⟨e₀, ts'⟩, h₀, h⟩ := bind_eq_ok.mp h
    obtain ⟨ts'', hclosed, h⟩ := bind_eq_ok.mp h
    cases h
    cases symbol_ok hclosed
    obtain ⟨us, rfl, hus⟩ := ih.tuple h₀ he
    exact ⟨_, by simp, .enclosed hus⟩
  · obtain ⟨x, -, h⟩ := map_eq_ok.mp h
    cases h
    cases he
  · obtain ⟨x, -, h⟩ := map_eq_ok.mp h
    cases h
    cases he
  · exact absurd h failAt_ne

theorem Extends.step {w ts' : List Lexeme} {e₁ : Expr} (h : Extends ts' rest e₁ e) (hplain : Plain e₀)
    (hw : ∀ us, Spells us e₀ → Spells (us ++ w) e₁) : Extends (w ++ ts') rest e₀ e := by
  refine ⟨hplain, fun us hus => ?_⟩
  obtain ⟨vs, rfl, hvs⟩ := h.2 _ (hw us hus)
  exact ⟨w ++ vs, (List.append_assoc w vs rest).symm, by rwa [← List.append_assoc]⟩

theorem subscripts_sound (ih : Sound n) (h : subscripts (n + 1) e₀ ts = .ok (e, rest)) (he : Plain e) :
    Extends ts rest e₀ e := by
  unfold subscripts at h
  split at h
  · rename_i s ts
    have hext := ih.subscripts h he
    obtain _ | _ | hplain := hext.1
    exact hext.step (w := [.symbol ".", .name s]) hplain fun us => .member
  · rename_i m ts
    have hext := ih.subscripts h he
    obtain _ | _ | _ | hplain := hext.1
    exact hext.step (w := [.symbol ".", .int m]) hplain fun us => .position
  · cases h
  · exact absurd h failAt_ne
  · cases (ih.subscripts h he).1
  · rename_i ts _
    obtain ⟨⟨i, ts₁⟩, hi, h⟩ := bind_eq_ok.mp h
    obtain ⟨⟨is, ts₂⟩, his, h⟩ := bind_eq_ok.mp h
    dsimp only at h
    split at h
    · rename_i i'
      have hext := ih.subscripts h he
      obtain ⟨rfl, rfl⟩ : i' = i ∧ ts₁ = .symbol "]" :: ts₂ := by
        obtain ⟨hsame, hclosed⟩ := (indexTail_single his).2 rfl
        exact ⟨by simpa using hsame, hclosed⟩
      obtain _ | _ | _ | @⟨_, l, hplain⟩ := hext.1
      obtain ⟨us', rfl, hus'⟩ := ih.index hi .literal
      have hstep := hext.step (w := .symbol "[" :: (us' ++ [.symbol "]"])) hplain fun us hus => .item hus hus'
      simpa using hstep
    · cases (ih.subscripts h he).1
  · obtain ⟨x, -, h⟩ := bind_eq_ok.mp h
    cases (ih.subscripts h he).1
  · cases h
    exact .refl he

/-- A single literal between the parentheses may have a comma behind it. -/
theorem arguments_sound (ih : ∀ m < n, Sound m) {l : Literal}
    (h : arguments n false ⟨[], false⟩ ts = .ok (⟨[.literal l], false⟩, rest)) : ∃ us comma : List Lexeme,
      ts = us ++ comma ++ .symbol ")" :: rest ∧ Spells us (.literal l) ∧ (comma = [] ∨ comma = [.symbol ","]) := by
  obtain ⟨hnone, -⟩ | ⟨m, e, ts₁, rfl, he, h⟩ := arguments_cases h rfl
  · cases hnone
  have hsound : Sound m := ih m (Nat.lt_succ_self m)
  unfold argumentTail at h
  split at h
  · exact absurd h failAt_ne
  · split at h
    · cases h
      obtain ⟨us, rfl, hus⟩ := hsound.expression he .literal
      exact ⟨us, [], by simp, hus, .inl rfl⟩
    · obtain ⟨hsame, rfl⟩ | ⟨k, e', ts₂, rfl, -, h⟩ := arguments_cases h rfl
      · cases hsame
        obtain ⟨us, rfl, hus⟩ := hsound.expression he .literal
        exact ⟨us, [.symbol ","], by simp, hus, .inr rfl⟩
      · have hlength := (arguments_within.2 _ _ _ _ _ h).2
        simp at hlength
    · exact absurd h failAt_ne

theorem filterName_sound (ih : ∀ m < n, Sound m) {l : Literal}
    (h : filterName n ts = .ok (("default", ⟨[.literal l], false⟩), rest)) : ∃ us comma : List Lexeme,
      ts = .name "default" :: .symbol "(" :: (us ++ comma ++ .symbol ")" :: rest) ∧ Spells us (.literal l) ∧
        (comma = [] ∨ comma = [.symbol ","]) := by
  unfold filterName at h
  split at h
  · exact absurd h failAt_ne
  · obtain ⟨⟨name, ts₁⟩, hname, h⟩ := bind_eq_ok.mp h
    dsimp only at h
    split at h
    · obtain ⟨⟨as, ts₂⟩, has, h⟩ := bind_eq_ok.mp h
      cases h
      cases dottedName_single hname (by decide)
      obtain ⟨us, comma, rfl, hus, hcomma⟩ := arguments_sound (fun m hm => ih m (Nat.lt_succ_of_lt hm)) has
      exact ⟨us, comma, rfl, hus, hcomma⟩
    · cases h

theorem filterTail_sound (ih : ∀ m < n + 1, Sound m) (h : filterTail (n + 1) e₀ ts = .ok (e, rest)) (he : Plain e) :
    Extends ts rest e₀ e := by
  have hsound : Sound n := ih n (Nat.lt_succ_self n)
  unfold filterTail at h
  split at h
  · obtain ⟨⟨⟨name, as⟩, ts₁⟩, hname, h⟩ := bind_eq_ok.mp h
    have hext := hsound.filterTail h he
    obtain ⟨plain, extra⟩ := as
    obtain _ | _ | _ | _ | @⟨_, l, hplain⟩ := hext.1
    obtain ⟨us', comma, rfl, hus', hcomma⟩ := filterName_sound (fun m hm => ih m (Nat.lt_succ_of_lt hm)) hname
    have hstep := hext.step
      (w := .symbol "|" :: .name "default" :: .symbol "(" :: (us' ++ comma ++ [.symbol ")"])) hplain
      fun us hus => .default hus hus' hcomma
    simpa using hstep
  · obtain ⟨⟨e₁, ts₁⟩, h₁, h⟩ := bind_eq_ok.mp h
    exact absurd (hsound.filterTail h he).1 (test_plain h₁)
  · obtain ⟨x, -, h⟩ := bind_eq_ok.mp h
    cases (hsound.filterTail h he).1
  · cases h
    exact .refl he

theorem sound (n : Nat) : Sound n := by
  induction n using Nat.strongRecOn with
  | ind n ih =>
    cases n with
    | zero =>
      exact {
        expression := by simp [Template.expression, failAt_ne]
        operation := by simp [Template.operation, failAt_ne]
        operand := by simp [Template.operand, failAt_ne]
        primary := by simp [Template.primary, failAt_ne]
        tuple := by simp [Template.tuple, failAt_ne]
        index := by simp [Template.index, failAt_ne]
        subscripts := by simp [Template.subscripts, failAt_ne]
        filterTail := by simp [Template.filterTail, failAt_ne] }
    | succ n =>
      have hn : Sound n := ih n (Nat.lt_succ_self n)
      exact {
        expression := expression_sound hn
        operation := operation_sound hn
        operand := operand_sound hn
        primary := primary_sound hn
        tuple := tuple_sound hn
        index := index_sound hn
        subscripts := subscripts_sound hn
        filterTail := filterTail_sound ih }

end

end Workflow.Template
