import Workflow.Proofs.Except
import Workflow.Proofs.Predicate.Tokens

/-!
# The grammar of predicates

    predicate := [EXISTS table WHERE] clause (AND clause)*
    clause    := column operator value | column [NOT] IN ( value (, value)* ) | column IS [NOT] NULL
    value     := string | number | TRUE | FALSE | NULL | word | template | :param

A tree says how tokens make up a predicate, and `Means` which predicate that is. The reader accepts the
tokens of a tree that means something and no others.
-/

namespace Workflow.Predicate

/-! ## Leaves -/

def openBraces : List Char := ['\x7b', '\x7b']

inductive ValueOf (templates : Bool) (t : Token) : Operand → Prop
  | quoted {s : List Char} : t.kind = .string → t.chars = quoteText s → (templates = true → ¬ openBraces <:+: s) →
      ValueOf templates t (.literal (.text (String.ofList s)))
  | quotedTemplate {s : List Char} {m : Template} : templates = true → t.kind = .string → t.chars = quoteText s →
      openBraces <:+: s → Template.parse (String.ofList s) = .ok m → ValueOf templates t (.template m)
  | template {m : Template} : templates = true → t.kind = .template → Template.parse t.text = .ok m →
      ValueOf templates t (.template m)
  | number {s : Scalar} : t.kind = .number → readNumber t.chars = .ok s → ValueOf templates t (.literal s)
  | param {name : List Char} : t.kind = .param → t.chars = ':' :: name → ValueOf templates t (.param (String.ofList name))
  | true : t.keyword? = some .true → ValueOf templates t (.literal (.bool true))
  | false : t.keyword? = some .false → ValueOf templates t (.literal (.bool false))
  | null : t.keyword? = some .null → ValueOf templates t (.literal .null)
  | word : t.kind = .word → t.keyword? = none → '.' ∉ t.chars → ValueOf templates t (.literal (.text t.text))

inductive ColumnOf (t : Token) : Column → Prop
  | plain : t.kind = .word → t.keyword? = none → '.' ∉ t.chars → ColumnOf t ⟨none, t.text⟩
  | qualified {a b : List Char} : t.kind = .word → t.keyword? = none → t.chars = a ++ '.' :: b → '.' ∉ a → '.' ∉ b →
      ColumnOf t ⟨some (String.ofList a), String.ofList b⟩

def IsTable (t : Token) : Prop := t.kind = .word ∧ t.keyword? = none ∧ '.' ∉ t.chars

/-! ## Trees -/

inductive ClauseTree where
  | comparison (column operator value : Token)
  | nullTest (column is : Token) (negation : Option Token) (null : Token)
  | membership (column : Token) (negation : Option Token) (within opening first : Token) (more : List (Token × Token))
      (closing : Token)

/-- How tokens make up a predicate; the three tokens before the clauses are `EXISTS table WHERE`. -/
structure Tree where
  exist : Option (Token × Token × Token)
  first : ClauseTree
  more : List (Token × ClauseTree)

def pairTokens (more : List (Token × Token)) : List Token := more.flatMap fun p => [p.1, p.2]

def ClauseTree.tokens : ClauseTree → List Token
  | comparison c op v => [c, op, v]
  | nullTest c is n null => c :: is :: (n.toList ++ [null])
  | membership c n i o v more e => c :: (n.toList ++ i :: o :: v :: (pairTokens more ++ [e]))

def moreTokens (more : List (Token × ClauseTree)) : List Token := more.flatMap fun p => p.1 :: p.2.tokens

def Tree.tokens (d : Tree) : List Token :=
  (match d.exist with
  | some (e, t, w) => [e, t, w]
  | none => []) ++ d.first.tokens ++ moreTokens d.more

inductive ClauseTree.Means (templates : Bool) : ClauseTree → Condition → Prop
  | comparison {c op v : Token} {column : Column} {operator : Operator} {o : Operand} :
      ColumnOf c column → op.kind = .operator → (op.chars, operator) ∈ operatorTexts → ValueOf templates v o →
      Means templates (.comparison c op v) (.comparison column operator o)
  | nullTest {c is null : Token} {n : Option Token} {column : Column} :
      ColumnOf c column → is.keyword? = some .is → (∀ t ∈ n, t.keyword? = some .not) → null.keyword? = some .null →
      Means templates (.nullTest c is n null) (.comparison column (if n.isSome then .notNull else .isNull) (.literal .null))
  | membership {c i p v e : Token} {n : Option Token} {more : List (Token × Token)} {column : Column} {o : Operand}
      {os : List Operand} :
      ColumnOf c column → (∀ t ∈ n, t.keyword? = some .not) → i.keyword? = some .in → p.kind = .leftParen →
      ValueOf templates v o → List.Forall₂ (fun q o => q.1.kind = .comma ∧ ValueOf templates q.2 o) more os →
      e.kind = .rightParen → Means templates (.membership c n i p v more e) (.membership column n.isSome (o :: os))

/-- The clauses behind the first one, each after an `AND`. -/
abbrev MoreMeans (templates : Bool) (more : List (Token × ClauseTree)) (cs : List Condition) : Prop :=
  List.Forall₂ (fun q c => q.1.keyword? = some .and ∧ q.2.Means templates c) more cs

def TableOf : Option (Token × Token × Token) → Option String → Prop
  | none, table => table = none
  | some (e, t, w), table =>
    e.keyword? = some .exists ∧ IsTable t ∧ w.keyword? = some .where ∧ table = some t.text

/-- The predicate that a tree means. -/
structure Tree.Means (templates : Bool) (d : Tree) (p : Predicate) : Prop where
  table : TableOf d.exist p.table
  conditions : ∃ c cs, p.conditions = c :: cs ∧ d.first.Means templates c ∧ MoreMeans templates d.more cs

/-! ## Facts about leaves -/

theorem kind_of_keyword {t : Token} {k : Keyword} (h : t.keyword? = some k) : t.kind = .word := by
  unfold Token.keyword? at h
  split at h
  · assumption
  · cases h

theorem holdsBraces_iff (s : List Char) : holdsBraces s = true ↔ openBraces <:+: s := by
  fun_induction holdsBraces s with
  | case1 rest => exact iff_of_true rfl ⟨[], rest, rfl⟩
  | case2 c rest hc ih =>
    rw [ih, List.infix_cons_iff]
    refine ⟨.inr, fun h => h.resolve_left ?_⟩
    rintro ⟨r, hr⟩
    simp only [openBraces, List.cons_append, List.nil_append, List.cons.injEq] at hr
    exact hc r (by rw [hr.1]) hr.2.symm
  | case3 => simp [openBraces]

theorem operatorOf_eq {s : List Char} {op : Operator} (h : (s, op) ∈ operatorTexts) : operatorOf s = op := by
  simp only [operatorTexts, List.mem_cons, Prod.mk.injEq, List.not_mem_nil, or_false] at h
  rcases h with h | h | h | h | h | h | h <;> obtain ⟨rfl, rfl⟩ := h <;> rfl

theorem columnOf_eq_ok {t : Token} {c : Column} : columnOf t = .ok c ↔ ColumnOf t c := by
  unfold columnOf
  constructor
  · intro h
    split at h
    · cases h
    · split at h
      · cases h
      · rename_i hk
        simp only [not_or, Decidable.not_not] at hk
        rcases sep_cases '.' t.chars with hd | ⟨a, b, hs, ha⟩
        · simp only [textParts, Token.text, String.toList_ofList, partsBetween_no_sep hd, List.map_cons, List.map_nil] at h
          cases h
          exact .plain hk.1 hk.2 hd
        · rcases sep_cases '.' b with hb | ⟨a', b', hs', ha'⟩
          · simp only [textParts, Token.text, String.toList_ofList, hs, partsBetween_append ha, partsBetween_no_sep hb,
              List.map_cons, List.map_nil] at h
            cases h
            exact .qualified hk.1 hk.2 hs ha hb
          · simp only [textParts, Token.text, String.toList_ofList, hs, hs', partsBetween_append ha,
              partsBetween_append ha', List.map_cons] at h
            cases hp : partsBetween '.' b' with
            | nil => exact absurd hp (partsBetween_ne_nil b')
            | cons x xs => simp [hp, fail] at h
  · intro h
    cases h with
    | plain hk hw hd =>
      simp [hk, hw, textParts, Token.text, partsBetween_no_sep hd]
    | qualified hk hw hs ha hb =>
      simp [hk, hw, textParts, Token.text, hs, partsBetween_append ha, partsBetween_no_sep hb]

section
variable {templates : Bool}

theorem ColumnOf.no_keyword {t : Token} {c : Column} (h : ColumnOf t c) : t.keyword? = none := by
  cases h <;> assumption

theorem ClauseTree.Means.head {c : ClauseTree} {cond : Condition} (h : c.Means templates cond) :
    ∃ t us, c.tokens = t :: us ∧ ColumnOf t cond.column := by
  cases h with
  | comparison hc => exact ⟨_, _, rfl, hc⟩
  | nullTest hc => exact ⟨_, _, rfl, hc⟩
  | membership hc => exact ⟨_, _, rfl, hc⟩

end

end Workflow.Predicate
