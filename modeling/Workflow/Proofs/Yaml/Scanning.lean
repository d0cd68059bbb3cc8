import Workflow.Proofs.Yaml.Quoted
import Workflow.Proofs.Yaml.Word
import Workflow.Yaml.Layout

/-!
# The tokens of one line

In a text of JSON no block is ever open and the whole text is one line. So the tokens are read off it one by one: a
bracket changes the depth, and the colon behind a quoted text makes a key of it.
-/

namespace Workflow.Yaml.Layout

variable {l : Layout} {more : List Char} {gap fuel : Nat}

/-! ## Layouts without blocks -/

/-- No block is open and no key is required. -/
structure Calm (l : Layout) : Prop where
  indent : l.indent = -1
  outer : l.outer = []
  free : ∀ k ∈ l.keys, k.2.required = false
  count : l.count = l.tokens.length

theorem lex_eq {α : Type} {r : Lex α} {a : α} {c : Cursor} (h : Lex.Reads r l.cursor a c) :
    l.lex r = some (a, { l with cursor := c }) := by
  have hr : r.run l.cursor = some (a, c) := h
  rw [lex, hr]
  rfl

theorem Calm.dropKey (h : l.Calm) : l.dropKey = some { l with keys := l.keys.filter fun k => k.1 != l.depth } := by
  have hany : (l.keys.any fun k => k.1 == l.depth && k.2.required) = false := by
    rw [List.any_eq_false]
    intro k hk
    simp [h.free k hk]
  rw [Layout.dropKey, hany, if_neg Bool.false_ne_true]

theorem Calm.dropStale (h : l.Calm) : l.dropStale = some { l with keys := l.keys.filter fun k => !l.isStale k.2 } := by
  have hany : (l.keys.any fun k => l.isStale k.2 && k.2.required) = false := by
    rw [List.any_eq_false]
    intro k hk
    simp [h.free k hk]
  rw [Layout.dropStale, hany, if_neg Bool.false_ne_true]

theorem Calm.unwind (h : l.Calm) (column : Int) : l.unwind column = l := by
  rw [Layout.unwind, h.outer]
  split
  all_goals rfl

theorem Calm.filterKeys (h : l.Calm) (p : Nat × KeyPlace → Bool) : Calm { l with keys := l.keys.filter p } :=
  ⟨h.indent, h.outer, fun k hk => h.free k (List.mem_filter.mp hk).1, h.count⟩

theorem Calm.moved (h : l.Calm) (c : Cursor) : Calm { l with cursor := c } := ⟨h.indent, h.outer, h.free, h.count⟩

/-! ## Steps -/

def Leads (more : List Char) : Prop := ∀ d ∈ more.head?, IsPrinted d ∧ d ≠ ' ' ∧ d ≠ '#'

/-- The layout behind some spaces; the places that are too far back are forgotten. -/
def settled (l : Layout) (more : List Char) (gap : Nat) : Layout :=
  let l : Layout := { l with cursor := l.cursor.ahead more gap }
  { l with keys := l.keys.filter fun k => !l.isStale k.2 }

theorem settled_depth (more : List Char) (gap : Nat) : (l.settled more gap).depth = l.depth := rfl

theorem settled_keyAllowed (more : List Char) (gap : Nat) : (l.settled more gap).keyAllowed = l.keyAllowed := rfl

theorem Calm.settled (h : l.Calm) (more : List Char) (gap : Nat) : (l.settled more gap).Calm :=
  (h.moved (l.cursor.ahead more gap)).filterKeys _

theorem reads_spacesAndComment {c : Cursor} (hc : c.rest = List.replicate gap ' ' ++ more) (hm : Leads more) :
    Lex.Reads Lex.spacesAndComment c () (c.ahead more gap) := by
  have hgap : Printed (List.replicate gap ' ') := by
    intro d hd
    rw [List.eq_of_mem_replicate hd]
    decide
  have hrun : ∀ d ∈ List.replicate gap ' ', (d == ' ') = true := by
    intro d hd
    rw [List.eq_of_mem_replicate hd]
    rfl
  have hstop : Lex.Stops (· == ' ') more := by
    intro d hd
    simp [(hm d hd).2.1]
  have ht := Lex.reads_takeRun hc hgap hrun hstop
  rw [List.length_replicate] at ht
  have hsharp : more.head? ≠ some '#' := by
    intro he
    exact (hm '#' he).2.2 rfl
  refine ht.bind ((Lex.reads_peek _).bind ?_)
  rw [Cursor.ahead_rest, if_neg hsharp]
  exact Lex.reads_pure ..

theorem skipBlanks_eq (hl : l.cursor.rest = List.replicate gap ' ' ++ more) (hm : Leads more) :
    l.skipBlanks (fuel + 1) = some { l with cursor := l.cursor.ahead more gap } := by
  have hbreak : Lex.Stops isBreak (l.cursor.ahead more gap).rest := by
    intro d hd
    exact (hm d hd).1.not_break
  rw [skipBlanks, lex_eq (reads_spacesAndComment hl hm)]
  simp only [Option.bind_eq_bind, Option.bind_some, lex_eq (l := { l with cursor := l.cursor.ahead more gap })
    (Lex.reads_lineBreak hbreak), if_true]
  rfl

/-- Reading goes on behind the blanks with one token. -/
theorem run_succ (h : l.Calm) (hl : l.cursor.rest = List.replicate gap ' ' ++ more) (hm : Leads more) :
    l.run (fuel + 1) = (l.settled more gap).token.bind fun l =>
      if l.tokens.head? = some .streamEnd then some l.tokens.reverse else run fuel l := by
  have hc := h.moved (l.cursor.ahead more gap)
  have hu := (h.settled more gap).unwind
  rw [run, skipBlanks_eq hl hm]
  simp only [Option.bind_eq_bind, Option.bind_some, hc.dropStale]
  change ((l.settled more gap).unwind _).token.bind _ = _
  rw [hu]
  rfl

structure Behind (t : Token) (more : List Char) (depth : Nat) (allowed : Bool) (l l₁ : Layout) : Prop where
  calm : l₁.Calm
  rest : l₁.cursor.rest = more
  depth : l₁.depth = depth
  allowed : l₁.keyAllowed = allowed
  tokens : l₁.tokens = t :: l.tokens

theorem Calm.behind (h : l.Calm) (c : Cursor) (depth : Nat) (allowed : Bool) (t : Token) :
    Behind t c.rest depth allowed l { emit t { l with cursor := c } with depth := depth, keyAllowed := allowed } := by
  refine ⟨⟨h.indent, h.outer, h.free, ?_⟩, rfl, rfl, rfl, rfl⟩
  simp [Layout.emit, h.count]

/-! ## Places of keys -/

/-- The layout with its cursor noted as the place of a key, if one may start there. -/
def noted (l : Layout) : Layout :=
  if l.keyAllowed then
    { l with keys := (l.depth, ⟨l.count, false, l.cursor⟩) :: l.keys.filter fun k => k.1 != l.depth }
  else l

@[simp] theorem noted_cursor (l : Layout) : l.noted.cursor = l.cursor := by
  unfold noted
  split
  all_goals rfl

@[simp] theorem noted_depth (l : Layout) : l.noted.depth = l.depth := by
  unfold noted
  split
  all_goals rfl

@[simp] theorem noted_indent (l : Layout) : l.noted.indent = l.indent := by
  unfold noted
  split
  all_goals rfl

@[simp] theorem noted_tokens (l : Layout) : l.noted.tokens = l.tokens := by
  unfold noted
  split
  all_goals rfl

theorem Calm.noted (h : l.Calm) : l.noted.Calm := by
  unfold Layout.noted
  split
  · refine ⟨h.indent, h.outer, ?_, h.count⟩
    exact List.forall_mem_cons.mpr ⟨rfl, (h.filterKeys _).free⟩
  · exact h

theorem Calm.noteKey (h : l.Calm) : l.noteKey = some l.noted := by
  have hcolumn : (l.indent == l.column) = false := by
    rw [h.indent, beq_eq_false_iff_ne]
    unfold column
    omega
  unfold Layout.noteKey Layout.noted
  split
  · have hrequired : (!l.isFlow && l.indent == l.column) = false := by rw [hcolumn, Bool.and_false]
    rw [h.dropKey, ← hrequired]
    rfl
  · rfl

/-! ## Tokens -/

section
variable {d : Char} {t : Token}

theorem Behind.of_noted {l₁ : Layout} {depth : Nat} {allowed : Bool} (h : Behind t more depth allowed l.noted l₁) :
    Behind t more depth allowed l l₁ := ⟨h.calm, h.rest, h.depth, h.allowed, by rw [h.tokens, noted_tokens]⟩

theorem Calm.openBracket (h : l.Calm) (hl : l.cursor.rest = d :: more) (hd : IsPrinted d) (t : Token) :
    ∃ l₁, l.openBracket t = some l₁ ∧ Behind t more (l.depth + 1) true l l₁ := by
  have hs := lex_eq (l := l.noted) (Lex.reads_skip_one (l.noted_cursor ▸ hl) hd)
  have hb := (h.noted.behind (l.noted.cursor.ahead more 1) (l.depth + 1) true t).of_noted
  refine ⟨_, ?_, hb⟩
  rw [Layout.openBracket, h.noteKey]
  simp only [Option.bind_eq_bind, Option.bind_some, hs]
  simp [Layout.emit]

theorem Calm.closeBracket (h : l.Calm) (hl : l.cursor.rest = d :: more) (hd : IsPrinted d) {depth : Nat}
    (hdepth : l.depth = depth + 1) (t : Token) : ∃ l₁, l.closeBracket t = some l₁ ∧ Behind t more depth false l l₁ := by
  have hs := lex_eq (l := { l with keys := l.keys.filter fun k => k.1 != l.depth }) (Lex.reads_skip_one hl hd)
  have hb := (h.filterKeys fun k => k.1 != l.depth).behind (l.cursor.ahead more 1) depth false t
  refine ⟨_, ?_, hb.calm, hb.rest, hb.depth, hb.allowed, hb.tokens⟩
  rw [Layout.closeBracket, h.dropKey, if_neg (by omega)]
  simp only [Option.bind_eq_bind, Option.bind_some, hs]
  simp [Layout.emit, hdepth]

theorem Calm.sign (h : l.Calm) (hl : l.cursor.rest = d :: more) (hd : IsPrinted d) (t : Token) (allowed : Bool) :
    ∃ l₁, l.sign t allowed = some l₁ ∧ Behind t more l.depth allowed l l₁ := by
  have hc : Calm { l with keyAllowed := allowed } := ⟨h.indent, h.outer, h.free, h.count⟩
  have hs := lex_eq (l := { l with keyAllowed := allowed, keys := l.keys.filter fun k => k.1 != l.depth })
    (Lex.reads_skip_one hl hd)
  have hb := (h.filterKeys fun k => k.1 != l.depth).behind (l.cursor.ahead more 1) l.depth allowed t
  refine ⟨_, ?_, hb.calm, hb.rest, hb.depth, hb.allowed, hb.tokens⟩
  rw [Layout.sign, hc.dropKey]
  simp only [Option.bind_eq_bind, Option.bind_some, hs]
  rfl

theorem Calm.quotedScalar {s : String} (h : l.Calm) (hl : l.cursor.rest = (jsonText s).toList ++ more)
    (hs : IsBasic s.toList) : ∃ l₁, l.quotedScalar true = some l₁ ∧ Behind (.scalar s false) more l.depth false l l₁ ∧
      l₁.cursor = l.cursor.ahead more (jsonText s).toList.length ∧ l₁.keys = l.noted.keys := by
  have hq : Lex.Reads (do return Token.scalar (String.ofList (← Lex.quotedScalar true)) false) l.noted.cursor
      (.scalar s false) (l.cursor.ahead more (jsonText s).toList.length) := by
    rw [noted_cursor]
    refine (Lex.reads_quotedScalar hs hl).bind ?_
    rw [String.ofList_toList]
    exact Lex.reads_pure ..
  have hb := (h.noted.behind (l.cursor.ahead more (jsonText s).toList.length) l.depth false (.scalar s false)).of_noted
  refine ⟨_, ?_, hb, rfl, rfl⟩
  rw [Layout.quotedScalar, Layout.keyStart, h.noteKey]
  simp only [Option.bind_eq_bind, Option.bind_some, lex_eq hq]
  simp [emit]

theorem Calm.plainScalar {w : List Char} (h : l.Calm) (hl : l.cursor.rest = w ++ more) (hw : IsWord w)
    (he : Ends l.isFlow more) :
    ∃ l₁, l.plainScalar = some l₁ ∧ Behind (.scalar (String.ofList w) true) more l.depth false l l₁ := by
  have hr := lex_eq (l := l.noted) (Lex.reads_plain (l.indent + 1) hw (l.noted_cursor ▸ hl) he)
  have hb := (h.noted.behind (l.noted.cursor.ahead more w.length) l.depth false (.scalar (String.ofList w) true)).of_noted
  have hflow : l.noted.isFlow = l.isFlow := by rw [isFlow, isFlow, noted_depth]
  refine ⟨_, ?_, hb⟩
  rw [Layout.plainScalar, h.noteKey]
  simp only [Option.bind_eq_bind, Option.bind_some, hflow, noted_indent, hr]
  simp [Layout.emit]

theorem Calm.emitAt (h : l.Calm) (n : Nat) (t : Token) : (l.emitAt n t).Calm := by
  refine ⟨h.indent, h.outer, h.free, ?_⟩
  simp only [Layout.emitAt, List.length_append, List.length_cons, List.length_take, List.length_drop, h.count]
  omega

theorem Calm.value_key (h : l.Calm) (hl : l.cursor.rest = ':' :: more) (hflow : l.isFlow = true) {k : Nat × KeyPlace}
    (hk : l.keys.find? (fun k => k.1 == l.depth) = some k) :
    ∃ l₁, l.value = some l₁ ∧ Behind .value more l.depth false (l.emitAt k.2.tokens .key) l₁ := by
  have hb := ((h.filterKeys fun k => k.1 != l.depth).emitAt k.2.tokens .key).behind (l.cursor.ahead more 1) l.depth false .value
  refine ⟨_, ?_, hb.calm, hb.rest, hb.depth, hb.allowed, hb.tokens⟩
  obtain ⟨kept, hkept⟩ : ∃ kept : Layout, kept = Layout.emitAt k.2.tokens .key
      { l with keys := l.keys.filter fun k => k.1 != l.depth, keyAllowed := false } := ⟨_, rfl⟩
  have hin : kept.isFlow = true := by
    rw [hkept]
    exact hflow
  have hs : kept.lex (Lex.skip 1) = some ((), { kept with cursor := l.cursor.ahead more 1 }) := by
    have hr := Lex.reads_skip_one hl (by decide)
    rw [hkept]
    exact lex_eq hr
  rw [Layout.value, hk]
  simp only [← hkept, hin, if_true, Option.bind_eq_bind, hs, Option.bind_some]
  rw [hkept]
  rfl

theorem Calm.value_lost (h : l.Calm) (hl : l.cursor.rest = ':' :: more) (hflow : l.isFlow = true)
    (hk : l.keys.find? (fun k => k.1 == l.depth) = none) :
    ∃ l₁, l.value = some l₁ ∧ Behind .value more l.depth false l l₁ := by
  have hs := h.sign hl (by decide) .value false
  rw [Layout.value, hk]
  simp only [blockSign, hflow, if_true, Option.bind_eq_bind, Option.bind_some, Bool.not_true]
  exact hs

/-! ## The sign of a token -/

theorem reads_atSeparator {c : Cursor} (hc : c.rest = d :: more) (hd : d ≠ '-' ∧ d ≠ '.') :
    Lex.Reads Lex.atSeparator c false c := by
  refine (Lex.reads_rest c).bind ?_
  rw [hc]
  split
  · rename_i he
    rw [List.cons.injEq] at he
    exact absurd he.1 hd.1
  · rename_i he
    rw [List.cons.injEq] at he
    exact absurd he.1 hd.2
  · exact Lex.reads_pure ..

def openings : List (Char × Token) := [('[', .flowSequence), ('\x7b', .flowMapping)]

def closings : List (Char × Token) := [(']', .flowSequenceEnd), ('\x7d', .flowMappingEnd)]

theorem token_open (hl : l.cursor.rest = d :: more) (hb : (d, t) ∈ openings) : l.token = l.openBracket t := by
  simp only [openings, List.mem_cons, Prod.mk.injEq, List.not_mem_nil, or_false] at hb
  rcases hb with ⟨rfl, rfl⟩ | ⟨rfl, rfl⟩
  all_goals
    simp only [token, hl, lex_eq (reads_atSeparator hl (by decide))]
    simp

theorem token_close (hl : l.cursor.rest = d :: more) (hb : (d, t) ∈ closings) : l.token = l.closeBracket t := by
  simp only [closings, List.mem_cons, Prod.mk.injEq, List.not_mem_nil, or_false] at hb
  rcases hb with ⟨rfl, rfl⟩ | ⟨rfl, rfl⟩
  all_goals
    simp only [token, hl, lex_eq (reads_atSeparator hl (by decide))]
    simp

theorem token_comma (hl : l.cursor.rest = ',' :: more) : l.token = l.flowEntry := by
  simp only [token, hl, lex_eq (reads_atSeparator hl (by decide))]
  simp

theorem token_colon (hl : l.cursor.rest = ':' :: more) (hflow : l.isFlow = true) : l.token = l.value := by
  simp only [token, hl, lex_eq (reads_atSeparator hl (by decide))]
  simp [hflow]

theorem token_quote (hl : l.cursor.rest = doubleQuote :: more) : l.token = l.quotedScalar true := by
  simp only [token, hl, lex_eq (reads_atSeparator hl (by decide))]
  simp [doubleQuote, singleQuote]

theorem isAlphanum_starts (hd : d.isAlphanum = true) : endsWord (some d) = false ∧ ∀ e ∈ signs, d ≠ e := by
  have hne (e : Char) (he : e.isAlphanum = false) : d ≠ e := by
    rintro rfl
    rw [hd] at he
    cases he
  constructor
  · simp [endsWord, hne ' ' (by decide), hne '\t' (by decide), (isAlphanum_printed hd).not_break]
  · intro e he
    have hsigns : signs.all (fun e => !e.isAlphanum) = true := by decide
    have hsign := List.all_eq_true.mp hsigns e he
    exact hne e (by simpa using hsign)

theorem token_word {w : List Char} (hw : IsWord w) (hl : l.cursor.rest = w ++ more) : l.token = l.plainScalar := by
  cases hw with
  | @word d ds hd hds =>
    obtain ⟨hend, hsigns⟩ := isAlphanum_starts hd
    have hpoint : d ≠ '.' := by
      rintro rfl
      cases hd
    rw [List.cons_append] at hl
    have hsep := lex_eq (reads_atSeparator hl ⟨hsigns '-' (by decide), hpoint⟩)
    have hmark (e : Char) (he : signs.contains e = true) : d ≠ e := hsigns e (by simpa using he)
    have hstart : startsPlain l.isFlow d (ds ++ more).head? = true := by
      have hc : signs.contains d = false := by
        rw [List.contains_eq_mem, decide_eq_false_iff_not]
        intro hm
        exact hsigns d hm rfl
      simp only [startsPlain, hend, hc, Bool.not_false, Bool.and_self, Bool.true_or]
    generalize ds ++ more = rest at hl hstart
    simp only [token, hl, hsep, Option.bind_eq_bind, Option.bind_some]
    simp [hmark, hstart, signs]
  | @minus d ds hd hds =>
    obtain ⟨hend, hsigns⟩ := isAlphanum_starts hd
    have hminus : d ≠ '-' := hsigns '-' (by decide)
    rw [List.cons_append, List.cons_append] at hl
    generalize ds ++ more = rest at hl
    have hsep : l.lex Lex.atSeparator = some (false, l) := by
      refine lex_eq ((Lex.reads_rest _).bind ?_)
      rw [hl]
      split
      · rename_i he
        simp only [List.cons.injEq] at he
        exact absurd he.2.1 hminus
      · rename_i he
        simp at he
      · exact Lex.reads_pure ..
    simp only [token, hl, hsep, Option.bind_eq_bind, Option.bind_some]
    simp [startsPlain, hend, singleQuote, doubleQuote]

end

/-! ## Texts -/

/-- At a depth, and where a key may start or not, a text is read as some tokens, the end of the stream among them. -/
def Scans (more : List Char) (depth : Nat) (allowed : Bool) (ts : List Token) : Prop :=
  ∀ (l : Layout) (gap fuel : Nat), l.Calm → l.cursor.rest = List.replicate gap ' ' ++ more → l.depth = depth →
    l.keyAllowed = allowed → more.length + 2 ≤ fuel → l.run fuel = some (l.tokens.reverse ++ ts)

section
variable {rest : List Char} {depth depth₁ : Nat} {allowed allowed₁ : Bool} {t : Token} {ts : List Token} {d : Char}

theorem Scans.step (hm : Leads rest) (hlen : more.length < rest.length) (ht : t ≠ .streamEnd)
    (hstep : ∀ l : Layout, l.Calm → l.cursor.rest = rest → l.depth = depth → l.keyAllowed = allowed →
      ∃ l₁, l.token = some l₁ ∧ Behind t more depth₁ allowed₁ l l₁)
    (h : Scans more depth₁ allowed₁ ts) : Scans rest depth allowed (t :: ts) := by
  intro l gap fuel hc hl hd ha hf
  obtain ⟨fuel, rfl⟩ : ∃ n, fuel = n + 1 := ⟨fuel - 1, by omega⟩
  obtain ⟨l₁, htoken, hb⟩ := hstep (l.settled rest gap) (hc.settled rest gap) rfl hd ha
  have hhead : l₁.tokens.head? ≠ some .streamEnd := by
    rw [hb.tokens]
    simpa using ht
  have hnext := h l₁ 0 fuel hb.calm (by simpa using hb.rest) hb.depth hb.allowed (by omega)
  rw [run_succ hc hl hm, htoken, Option.bind_some, if_neg hhead, hnext, hb.tokens]
  simp [settled]

theorem Scans.space (h : Scans more depth allowed ts) : Scans (' ' :: more) depth allowed ts := by
  intro l gap fuel hc hl hd ha hf
  refine h l (gap + 1) fuel hc ?_ hd ha (by simp at hf; omega)
  rw [hl, List.replicate_succ', List.append_assoc, List.singleton_append]

theorem scans_nil (allowed : Bool) : Scans [] 0 allowed [.streamEnd] := by
  intro l gap fuel hc hl hd ha hf
  obtain ⟨fuel, rfl⟩ : ∃ n, fuel = n + 1 := ⟨fuel - 1, by omega⟩
  have hs := hc.settled [] gap
  have hfinish : (l.settled [] gap).token = (l.settled [] gap).finish := by
    simp [token, settled]
  rw [run_succ hc hl (by simp [Leads]), hfinish, finish, outsideBlocks, hs.unwind, hs.dropKey]
  simp [emit, settled]

theorem Scans.opens (hb : (d, t) ∈ openings)
    (h : Scans more (depth + 1) true ts) : Scans (d :: more) depth allowed (t :: ts) := by
  have hall : ∀ b ∈ openings, IsPrinted b.1 ∧ b.1 ≠ ' ' ∧ b.1 ≠ '#' ∧ b.2 ≠ .streamEnd := by decide
  have hd := hall _ hb
  refine .step (by simpa [Leads] using ⟨hd.1, hd.2.1, hd.2.2.1⟩) (by simp) hd.2.2.2 ?_ h
  intro l hc hl hdepth _
  rw [token_open hl hb, ← hdepth]
  exact hc.openBracket hl hd.1 t

theorem Scans.closes (hb : (d, t) ∈ closings)
    (h : Scans more depth false ts) : Scans (d :: more) (depth + 1) allowed (t :: ts) := by
  have hall : ∀ b ∈ closings, IsPrinted b.1 ∧ b.1 ≠ ' ' ∧ b.1 ≠ '#' ∧ b.2 ≠ .streamEnd := by decide
  have hd := hall _ hb
  refine .step (by simpa [Leads] using ⟨hd.1, hd.2.1, hd.2.2.1⟩) (by simp) hd.2.2.2 ?_ h
  intro l hc hl hdepth _
  rw [token_close hl hb]
  exact hc.closeBracket hl hd.1 hdepth t

theorem Scans.comma (h : Scans more depth true ts) : Scans (',' :: more) depth allowed (.flowEntry :: ts) := by
  refine .step (by simp [Leads]; decide) (by simp) (by simp) ?_ h
  intro l hc hl hdepth _
  rw [token_comma hl, ← hdepth]
  exact hc.sign hl (by decide) .flowEntry true

theorem leads_jsonText (s : String) (more : List Char) : Leads ((jsonText s).toList ++ more) := by
  rw [Lex.jsonText_toList]
  intro d hd
  cases hd
  decide

theorem Scans.quote {s : String} (hs : IsBasic s.toList) (h : Scans more depth false ts) :
    Scans ((jsonText s).toList ++ more) depth allowed (.scalar s false :: ts) := by
  refine .step (leads_jsonText s more) ?_ (by simp) ?_ h
  · rw [List.length_append, Lex.length_jsonText]
    omega
  · intro l hc hl hdepth _
    obtain ⟨l₁, hquoted, hb, -⟩ := hc.quotedScalar hl hs
    rw [Lex.jsonText_toList] at hl
    rw [token_quote hl, ← hdepth]
    exact ⟨l₁, hquoted, hb⟩

theorem leads_word {w : List Char} (hw : IsWord w) (more : List Char) : Leads (w ++ more) := by
  obtain ⟨d, ds, rfl⟩ := List.exists_cons_of_ne_nil hw.ne_nil
  intro e he
  cases he
  have hd := hw.chars d List.mem_cons_self
  exact ⟨isWordChar_printed hd, isWordChar_ne hd (by decide), isWordChar_ne hd (by decide)⟩

theorem Scans.word {w : List Char} (hw : IsWord w) (he : Ends (depth != 0) more) (h : Scans more depth false ts) :
    Scans (w ++ more) depth allowed (.scalar (String.ofList w) true :: ts) := by
  refine .step (leads_word hw more) ?_ (by simp) ?_ h
  · have hlen := List.length_pos_iff.mpr hw.ne_nil
    rw [List.length_append]
    omega
  · intro l hc hl hdepth _
    rw [token_word hw hl, ← hdepth]
    refine hc.plainScalar hl hw ?_
    rw [isFlow, hdepth]
    exact he

/-! ## Keys -/

/-- The place of a key is found as long as it is not too far back. -/
theorem find?_settled {k : Nat × KeyPlace} {ks : List (Nat × KeyPlace)} (hk : l.keys = k :: ks)
    (hks : ∀ j ∈ ks, j.1 ≠ k.1) (more : List Char) :
    (l.settled more 0).keys.find? (fun j => j.1 == k.1) = if l.isStale k.2 then none else some k := by
  have hkeys : (l.settled more 0).keys = l.keys.filter fun j => !l.isStale j.2 := rfl
  rw [hkeys, hk]
  by_cases hs : l.isStale k.2 = true
  · have hnone : (ks.filter fun j => !l.isStale j.2).find? (fun j => j.1 == k.1) = none := by
      rw [List.find?_eq_none]
      intro j hj
      simpa using hks j (List.mem_filter.mp hj).1
    rw [if_pos hs, List.filter_cons_of_neg (by simp [hs])]
    exact hnone
  · rw [if_neg hs, List.filter_cons_of_pos (by simpa using hs), List.find?_cons_of_pos (by simp)]

/-- The tokens of a key. One whose text is too long for a key is a value of its own. -/
def nameTokens (s : String) : List Token :=
  if (jsonText s).toList.length ≤ longestKey then [.key, .scalar s false, .value] else [.scalar s false, .value]

theorem Behind.colon {l₁ : Layout} {s : String} (hc : l.Calm) (ha : l.keyAllowed = true) (hdepth : l.depth = depth + 1)
    (hb : Behind (.scalar s false) (':' :: more) l.depth false l l₁)
    (hcursor : l₁.cursor = l.cursor.ahead (':' :: more) (jsonText s).toList.length) (hkeys : l₁.keys = l.noted.keys) :
    ∃ l₂, (l₁.settled (':' :: more) 0).token = some l₂ ∧ l₂.Calm ∧ l₂.cursor.rest = more ∧ l₂.depth = depth + 1 ∧
      l₂.keyAllowed = false ∧ l₂.tokens = (nameTokens s).reverse ++ l.tokens := by
  have hset := hb.calm.settled (':' :: more) 0
  have hdepth₁ : (l₁.settled (':' :: more) 0).depth = l.depth := hb.depth
  have hflow : (l₁.settled (':' :: more) 0).isFlow = true := by
    rw [isFlow, hdepth₁, hdepth]
    rfl
  have hnoted : l₁.keys = (l.depth, ⟨l.count, false, l.cursor⟩) :: l.keys.filter fun k => k.1 != l.depth := by
    rw [hkeys, noted, if_pos ha]
  have hothers : ∀ k ∈ l.keys.filter fun k => k.1 != l.depth, k.1 ≠ l.depth := by
    intro k hk
    simpa using (List.mem_filter.mp hk).2
  have hstale : l₁.isStale ⟨l.count, false, l.cursor⟩ = decide (longestKey < (jsonText s).toList.length) := by
    simp [isStale, hcursor]
  have hfind := find?_settled hnoted hothers (':' :: more)
  rw [hstale] at hfind
  rw [token_colon (l := l₁.settled (':' :: more) 0) rfl hflow]
  have htokens : (l₁.settled (':' :: more) 0).tokens = .scalar s false :: l.tokens := hb.tokens
  have hcount : (l₁.settled (':' :: more) 0).count = l.count + 1 := by
    rw [hset.count, htokens, hc.count, List.length_cons]
  by_cases hlong : (jsonText s).toList.length ≤ longestKey
  · rw [if_neg (by simpa using hlong)] at hfind
    obtain ⟨l₂, hvalue, h₂⟩ := hset.value_key rfl hflow (hdepth₁ ▸ hfind)
    refine ⟨l₂, hvalue, h₂.calm, h₂.rest, by rw [h₂.depth, hdepth₁, hdepth], h₂.allowed, ?_⟩
    rw [h₂.tokens, nameTokens, if_pos hlong]
    simp [emitAt, htokens, hcount]
  · rw [if_pos (by simpa using hlong)] at hfind
    obtain ⟨l₂, hvalue, h₂⟩ := hset.value_lost rfl hflow (hdepth₁ ▸ hfind)
    refine ⟨l₂, hvalue, h₂.calm, h₂.rest, by rw [h₂.depth, hdepth₁, hdepth], h₂.allowed, ?_⟩
    rw [h₂.tokens, nameTokens, if_neg hlong, htokens]
    rfl

theorem Scans.name {s : String} (hs : IsBasic s.toList) (h : Scans more (depth + 1) false ts) :
    Scans ((jsonText s).toList ++ ':' :: more) (depth + 1) true (nameTokens s ++ ts) := by
  intro l gap fuel hc hl hdepth ha hf
  have hlen : more.length + 2 ≤ fuel - 2 := by
    rw [List.length_append, List.length_cons, Lex.length_jsonText] at hf
    omega
  obtain ⟨fuel, rfl⟩ : ∃ n, fuel = n + 2 := ⟨fuel - 2, by omega⟩
  have hset := hc.settled ((jsonText s).toList ++ ':' :: more) gap
  have hrest : (l.settled ((jsonText s).toList ++ ':' :: more) gap).cursor.rest = (jsonText s).toList ++ ':' :: more := rfl
  obtain ⟨l₁, hquoted, hb, hcursor, hkeys⟩ := hset.quotedScalar hrest hs
  obtain ⟨l₂, hvalue, hc₂, hrest₂, hdepth₂, ha₂, htokens₂⟩ :=
    hb.colon hset ((settled_keyAllowed ..).trans ha) ((settled_depth ..).trans hdepth) hcursor hkeys
  have hquote : (l.settled ((jsonText s).toList ++ ':' :: more) gap).token = some l₁ := by
    rw [← hquoted]
    rw [Lex.jsonText_toList] at hrest ⊢
    exact token_quote hrest
  have hhead₁ : l₁.tokens.head? ≠ some .streamEnd := by simp [hb.tokens]
  have hhead₂ : l₂.tokens.head? ≠ some .streamEnd := by
    rw [htokens₂, nameTokens]
    split
    all_goals simp
  have hlead : Leads (':' :: more) := by
    simp [Leads]
    decide
  have hnogap : l₁.cursor.rest = List.replicate 0 ' ' ++ ':' :: more := hb.rest
  have hnext := h l₂ 0 fuel hc₂ (by simpa using hrest₂) hdepth₂ ha₂ hlen
  rw [run_succ hc hl (leads_jsonText s _), hquote, Option.bind_some, if_neg hhead₁,
    run_succ hb.calm hnogap hlead, hvalue, Option.bind_some, if_neg hhead₂, hnext, htokens₂]
  simp [settled]

end

end Workflow.Yaml.Layout
