import Workflow.Proofs.Text.Escapes
import Workflow.Proofs.Text.Units
import Workflow.Proofs.Yaml.Cursor
import Workflow.Value.Json

/-!
# Texts of JSON in a document

A text that JSON writes in quotes is a quoted scalar, and is read as the text that was written. This holds up to U+FFFF;
characters beyond are written as two units.
-/

namespace Workflow.Yaml

/-- How a character up to U+FFFF is written in a text of JSON. -/
inductive Written : Char → List Char → Prop
  | plain {d : Char} : IsPrinted d → d ≠ '\\' → d ≠ doubleQuote → Written d [d]
  | letter {d e : Char} : letterEscape? d = some e → Written d ['\\', e]
  | unit {d : Char} : d.toNat < 0x10000 → Written d ('\\' :: 'u' :: hexDigits 4 d.toNat)

theorem jsonChar_written {d : Char} (h : d.toNat < 0x10000) : Written d (jsonChar d) := by
  unfold jsonChar
  split
  · exact .letter ‹_›
  · rename_i hl
    obtain ⟨hb, hq⟩ := ne_of_letterEscape? hl
    by_cases hp : IsPrinted d
    · rw [if_pos (show 32 ≤ d.toNat ∧ d.toNat < 127 from hp)]
      exact .plain hp hb hq
    · have hu : (utf16Units d).flatMap unitEscape = '\\' :: 'u' :: hexDigits 4 d.toNat := by
        simp [utf16Units_small h, unitEscape]
      rw [if_neg (show ¬ (32 ≤ d.toNat ∧ d.toNat < 127) from hp), hu]
      exact .unit h

theorem letterEscape?_printed {d e : Char} (h : letterEscape? d = some e) : IsPrinted e := by
  have hl := escapeChar?_letter h
  unfold letterEscape? at h
  split at h
  · rename_i hd
    cases h
    rcases hd with rfl | rfl
    all_goals decide
  · repeat' split at h
    all_goals
      cases h
    all_goals decide

theorem hexDigit_printed : ∀ n < 16, IsPrinted (hexDigit n) := by decide

theorem hexDigits_printed (w n : Nat) : Printed (hexDigits w n) := by
  induction w generalizing n with
  | zero => simp [Printed, hexDigits]
  | succ w ih =>
    intro c hc
    rw [hexDigits, List.mem_append, List.mem_singleton] at hc
    rcases hc with hc | rfl
    · exact ih _ c hc
    · exact hexDigit_printed _ (Nat.mod_lt n (by decide))

theorem Written.printed {d : Char} {cs : List Char} (h : Written d cs) : Printed cs := by
  cases h with
  | plain hd => simpa [Printed] using hd
  | letter he => simpa [Printed] using ⟨by decide, letterEscape?_printed he⟩
  | unit =>
    have hx := hexDigits_printed 4 d.toNat
    simpa [Printed] using ⟨by decide, by decide, hx⟩

def IsBasic (s : List Char) : Prop := ∀ c ∈ s, c.toNat < 0x10000

theorem jsonChars_printed {s : List Char} (h : IsBasic s) : Printed (s.flatMap jsonChar) := by
  intro c hc
  obtain ⟨d, hd, hcd⟩ := List.mem_flatMap.mp hc
  exact (jsonChar_written (h d hd)).printed c hcd

namespace Lex

variable {c : Cursor} {d e : Char} {s t more : List Char} {p : Char → Bool}

/-! ## Escapes -/

theorem reads_escape_letter (h : c.rest = e :: more) (he : letterEscape? d = some e) :
    Reads escape c [d] (c.ahead more 1) := by
  refine (reads_peek c).bind ?_
  rw [h, List.head?_cons]
  simp only [escapeChar?_letter he]
  exact (reads_skip_one h (letterEscape?_printed he)).bind (reads_pure ..)

theorem reads_hexRun (h : c.rest = hexDigits 4 d.toNat ++ more) (hd : d.toNat < 0x10000) :
    Reads (hexRun 4) c d.toNat (c.ahead more 4) := by
  have hlen := length_hexDigits 4 d.toNat
  have hs : Reads (skip 4) c () (c.ahead more 4) := by
    have := reads_skip h (hexDigits_printed 4 d.toNat)
    rwa [hlen] at this
  refine (reads_rest c).bind ?_
  rw [h, List.take_left' hlen]
  refine (reads_check (by simp [hlen]) c).bind (hs.bind ?_)
  have hdigits : hexNumeral? (hexDigits 4 d.toNat) = some d.toNat := by
    rw [hexNumeral?_hexDigits, Nat.mod_eq_of_lt (by omega)]
  rw [hdigits]
  exact reads_pure ..

theorem reads_escapedCode (d : Char) (c : Cursor) : Reads (escapedCode d.toNat) c d c := by
  have hd := toNat_scalar d
  have hlow : isLowSurrogate d.toNat = false := by
    simp only [isLowSurrogate, Bool.and_eq_false_iff, decide_eq_false_iff_not]
    omega
  unfold escapedCode
  rw [if_neg (by omega), hlow, if_neg (by simp), if_pos (by omega), Char.ofNat_toNat]
  exact reads_pure ..

theorem reads_escape_unit (h : c.rest = 'u' :: (hexDigits 4 d.toNat ++ more)) (hd : d.toNat < 0x10000) :
    Reads escape c [d] (c.ahead more 5) := by
  have hhex := reads_hexRun (c := c.ahead (hexDigits 4 d.toNat ++ more) 1) rfl hd
  rw [Cursor.ahead_ahead] at hhex
  refine (reads_peek c).bind ?_
  rw [h, List.head?_cons]
  exact (reads_skip_one h (by decide)).bind (hhex.bind ((reads_escapedCode d _).bind (reads_pure ..)))

/-! ## Runs -/

/-- The longest start of a text that is written as it is and belongs to a class. -/
theorem exists_run (p : Char → Bool) (hb : p '\\' = false) (hq : p doubleQuote = false) (hs : IsBasic s)
    (more : List Char) : ∃ run others, s = run ++ others ∧ run.flatMap jsonChar = run ∧ (∀ d ∈ run, p d = true) ∧
      Stops p (others.flatMap jsonChar ++ doubleQuote :: more) := by
  induction s with
  | nil => exact ⟨[], [], rfl, rfl, by simp, by simpa [Stops] using hq⟩
  | cons d s ih =>
    obtain ⟨hd, hs⟩ := List.forall_mem_cons.mp hs
    have hw := jsonChar_written hd
    by_cases hpd : jsonChar d = [d] ∧ p d = true
    · obtain ⟨run, others, rfl, hrun, hp, hstop⟩ := ih hs
      refine ⟨d :: run, others, rfl, ?_, ?_, hstop⟩
      · rw [List.flatMap_cons, hpd.1, hrun, List.singleton_append]
      · exact List.forall_mem_cons.mpr ⟨hpd.2, hp⟩
    · refine ⟨[], d :: s, rfl, rfl, by simp, ?_⟩
      generalize hx : jsonChar d = x at hw hpd
      rw [List.flatMap_cons, hx]
      cases hw with
      | plain => simpa [Stops] using hpd
      | letter => simpa [Stops] using hb
      | unit => simpa [Stops] using hb

def isGap (d : Char) : Bool := d == ' ' || d == '\t'

def isInk (d : Char) : Bool := d != doubleQuote && d != '\\' && !endsWord (some d)

theorem isInk_of_printed (hp : IsPrinted d) (hs : d ≠ ' ') (hb : d ≠ '\\') (hq : d ≠ doubleQuote) : isInk d = true := by
  have ht : d ≠ '\t' := hp.ne (by decide)
  simp [isInk, endsWord, hs, hb, hq, ht, hp.not_break]

theorem exists_nonempty_run (p : Char → Bool) (hb : p '\\' = false) (hq : p doubleQuote = false) (hs : IsBasic (d :: s))
    (hd : p d = true) (hx : jsonChar d = [d]) (more : List Char) : ∃ run others, d :: s = run ++ others ∧ run ≠ [] ∧
      run.flatMap jsonChar = run ∧ (∀ d ∈ run, p d = true) ∧
      Stops p (others.flatMap jsonChar ++ doubleQuote :: more) := by
  obtain ⟨run, others, he, hrun, hp, hstop⟩ := exists_run p hb hq hs more
  refine ⟨run, others, he, ?_, hrun, hp, hstop⟩
  rintro rfl
  rw [List.nil_append] at he
  rw [← he, List.flatMap_cons, hx] at hstop
  have hno : p d = false := hstop d rfl
  rw [hd] at hno
  cases hno

theorem reads_quotedSpaces {run : List Char} (h : c.rest = run ++ more) (hp : Printed run)
    (hr : ∀ d ∈ run, isGap d = true) (hm : Stops isGap more) (hne : more ≠ []) (hb : Stops isBreak more) :
    Reads quotedSpaces c run (c.ahead more run.length) := by
  obtain ⟨d, ds, rfl⟩ := List.exists_cons_of_ne_nil hne
  refine (reads_takeRun h hp hr hm).bind ((reads_peek _).bind ?_)
  have hd : isBreak d = false := hb d rfl
  simp only [Cursor.ahead_rest, List.head?_cons, hd]
  exact reads_pure ..

/-! ## Quoted scalars -/

section
variable {fuel : Nat} {run a : List Char} {c₁ c₂ : Cursor}

theorem reads_quotedFrom_end (h : c.rest = doubleQuote :: more) :
    Reads (quotedFrom true (fuel + 1) t) c t (c.ahead more 1) := by
  refine (reads_rest c).bind ?_
  rw [h]
  exact (reads_skip_one h (by decide)).bind (reads_pure ..)

theorem reads_quotedFrom_escape (h : c.rest = '\\' :: more) (he : Reads escape (c.ahead more 1) [d] c₁)
    (hr : Reads (quotedFrom true fuel (t ++ [d])) c₁ a c₂) : Reads (quotedFrom true (fuel + 1) t) c a c₂ := by
  refine (reads_rest c).bind ?_
  rw [h]
  exact (reads_skip_one h (by decide)).bind (he.bind hr)

theorem reads_quotedFrom_run (hc : p = isGap ∨ p = isInk) (h : c.rest = run ++ more) (hne : run ≠ [])
    (hp : Printed run) (hrun : ∀ d ∈ run, p d = true) (hm : Stops p more) (hmore : more ≠ []) (hb : Stops isBreak more)
    (hr : Reads (quotedFrom true fuel (t ++ run)) (c.ahead more run.length) a c₂) :
    Reads (quotedFrom true (fuel + 1) t) c a c₂ := by
  obtain ⟨d, ds, hd⟩ := List.exists_cons_of_ne_nil hne
  have hpd : p d = true := hrun d (hd ▸ List.mem_cons_self)
  refine (reads_rest c).bind ?_
  rw [h, hd, List.cons_append]
  rcases hc with rfl | rfl
  · have hsp : d = ' ' ∨ d = '\t' := by simpa [isGap] using hpd
    have hq : d ≠ doubleQuote := by
      rintro rfl
      revert hsp
      decide
    have hbs : d ≠ '\\' := by
      rintro rfl
      revert hsp
      decide
    have hw : endsWord (some d) = true := by
      rcases hsp with rfl | rfl
      all_goals rfl
    simp only [if_true, hq, hbs, hw, if_false, and_false]
    exact (reads_quotedSpaces h hp hrun hm hmore hb).bind hr
  · obtain ⟨⟨hq, hbs⟩, hw⟩ : (d ≠ doubleQuote ∧ d ≠ '\\') ∧ endsWord (some d) = false := by simpa [isInk] using hpd
    simp only [if_true, hq, hbs, hw, if_false, and_false]
    have ht := reads_takeRun h hp hrun hm
    refine ht.bind ?_
    rw [if_neg hne]
    exact hr

end

/-- Behind its opening quote, a text is read up to its closing one. -/
theorem reads_quotedFrom (fuel : Nat) (hs : IsBasic s) (hf : (s.flatMap jsonChar).length < fuel)
    (h : c.rest = s.flatMap jsonChar ++ doubleQuote :: more) :
    Reads (quotedFrom true fuel t) c (t ++ s) (c.ahead more ((s.flatMap jsonChar).length + 1)) := by
  -- a step takes an escape or a whole run, so the induction is on the steps that are left
  induction fuel generalizing s t c with
  | zero => omega
  | succ fuel ih =>
    cases s with
    | nil => simpa using reads_quotedFrom_end h
    | cons d s =>
      obtain ⟨hd, hs'⟩ := List.forall_mem_cons.mp hs
      have hw := jsonChar_written hd
      generalize hx : jsonChar d = x at hw
      cases hw with
      | @letter e he =>
        rw [List.flatMap_cons, hx] at h hf ⊢
        have hlen : (['\\', e] ++ s.flatMap jsonChar).length = 2 + (s.flatMap jsonChar).length := by
          rw [List.length_append, List.length_cons, List.length_singleton]
        rw [hlen] at hf ⊢
        refine reads_quotedFrom_escape h (reads_escape_letter rfl he) ?_
        have hr := ih (c := c.ahead _ 2) (t := t ++ [d]) hs' (by omega) rfl
        rw [Cursor.ahead_ahead, List.append_assoc, ← Nat.add_assoc] at hr
        exact hr
      | unit =>
        rw [List.flatMap_cons, hx] at h hf ⊢
        have hlen : (('\\' :: 'u' :: hexDigits 4 d.toNat) ++ s.flatMap jsonChar).length =
            6 + (s.flatMap jsonChar).length := by
          rw [List.length_append, List.length_cons, List.length_cons, length_hexDigits]
        rw [hlen] at hf ⊢
        simp only [List.cons_append, List.append_assoc] at h
        refine reads_quotedFrom_escape h (reads_escape_unit rfl hd) ?_
        have hr := ih (c := c.ahead _ 6) (t := t ++ [d]) hs' (by omega) rfl
        rw [Cursor.ahead_ahead, List.append_assoc, ← Nat.add_assoc] at hr
        exact hr
      | plain hp hb hq =>
        obtain ⟨p, hc, hpd⟩ : ∃ p, (p = isGap ∨ p = isInk) ∧ p d = true := by
          by_cases hd : d = ' '
          · exact ⟨isGap, .inl rfl, by simp [isGap, hd]⟩
          · exact ⟨isInk, .inr rfl, isInk_of_printed hp hd hb hq⟩
        have hpb : p '\\' = false ∧ p doubleQuote = false := by
          rcases hc with rfl | rfl
          all_goals decide
        obtain ⟨run, others, he, hne, hrun, hprun, hstop⟩ := exists_nonempty_run p hpb.1 hpb.2 hs hpd hx more
        rw [he] at hs h hf ⊢
        have hprinted := jsonChars_printed hs
        rw [List.flatMap_append, hrun] at h hf hprinted ⊢
        rw [List.append_assoc] at h
        have hothers : IsBasic others := fun c hc => hs c (List.mem_append_right _ hc)
        have hlen : 0 < run.length := List.length_pos_iff.mpr hne
        have hrunp : Printed run := fun c hc => hprinted c (List.mem_append_left _ hc)
        have hbreak : Stops isBreak (others.flatMap jsonChar ++ doubleQuote :: more) :=
          stops_break (jsonChars_printed hothers) (by decide)
        refine reads_quotedFrom_run hc h hne hrunp hprun hstop (by simp) hbreak ?_
        have hr := ih (c := c.ahead (others.flatMap jsonChar ++ doubleQuote :: more) run.length) (t := t ++ run) hothers
          (by rw [List.length_append] at hf; omega) rfl
        simpa [Nat.add_assoc] using hr

theorem jsonText_toList (s : String) :
    (jsonText s).toList = doubleQuote :: (s.toList.flatMap jsonChar ++ [doubleQuote]) := by simp [jsonText]

theorem length_jsonText (s : String) : (jsonText s).toList.length = (s.toList.flatMap jsonChar).length + 2 := by
  rw [jsonText_toList, List.length_cons, List.length_append, List.length_singleton]

theorem reads_quotedScalar {s : String} (hs : IsBasic s.toList) (h : c.rest = (jsonText s).toList ++ more) :
    Reads (quotedScalar true) c s.toList (c.ahead more (jsonText s).toList.length) := by
  rw [jsonText_toList, List.cons_append, List.append_assoc, List.singleton_append] at h
  have hfuel : (s.toList.flatMap jsonChar).length < (s.toList.flatMap jsonChar ++ doubleQuote :: more).length + 1 := by
    rw [List.length_append]
    omega
  have hr := reads_quotedFrom (c := c.ahead (s.toList.flatMap jsonChar ++ doubleQuote :: more) 1) (t := []) _ hs hfuel rfl
  rw [Cursor.ahead_ahead, List.nil_append, Nat.add_comm 1, ← length_jsonText] at hr
  exact (reads_skip_one h (by decide)).bind ((reads_bound _).bind hr)

end Lex

end Workflow.Yaml
