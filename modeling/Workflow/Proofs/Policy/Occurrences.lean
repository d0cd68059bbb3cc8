import Workflow.Policy
import Workflow.Proofs.Predicate.Layout
import Workflow.Proofs.Predicate.Params
import Workflow.Proofs.Text.Split

/-!
# Occurrences of the actor

The parameter of the actor is looked for in the text of a condition, and a condition is read token by token. In a
condition that can be read no occurrence reaches across the end of a token, so the text is rewritten token by token; but
an occurrence within a quoted text or a template counts as well.
-/

namespace Workflow

open Predicate

/-! ## Occurrences -/

theorem afterActor?_isSome (cs : List Char) : (afterActor? cs).isSome =
    (actorParameter.isPrefixOf cs && !(cs.drop actorParameter.length).head?.any CharSet.word.contains) := by
  unfold afterActor?
  dsimp only
  cases actorParameter.isPrefixOf cs with
  | false => rfl
  | true => cases (cs.drop actorParameter.length).head?.any CharSet.word.contains <;> rfl

theorem afterActor?_of_ne {c : Char} (hc : c ≠ ':') (cs : List Char) : (afterActor? (c :: cs)).isSome = false := by
  rw [afterActor?_isSome, actorParameter, List.isPrefixOf_cons_cons]
  simp [hc.symm]

theorem prefix_of_occurrence {cs : List Char} (h : (afterActor? cs).isSome = true) : actorParameter <+: cs := by
  rw [afterActor?_isSome, Bool.and_eq_true, List.isPrefixOf_iff_prefix] at h
  exact h.1

theorem skip_of_occurrence {c : Char} {cs : List Char} (h : (afterActor? (c :: cs)).isSome = true) :
    actorParameter.length - 1 ≤ cs.length := by
  simpa [actorParameter] using (prefix_of_occurrence h).length_le

section
variable {identifier : List Char} {s r : List Char}

theorem substitute_of_not_mentions (h : mentionsActorChars s = false) : substituteActorChars identifier 0 s = s := by
  induction s with
  | nil => rfl
  | cons c s ih =>
    rw [mentionsActorChars, Bool.or_eq_false_iff] at h
    rw [substituteActorChars, h.1, if_neg (by simp), ih h.2]

theorem mentions_of_no_colon (h : ':' ∉ s) : mentionsActorChars s = false := by
  induction s with
  | nil => rfl
  | cons c s ih =>
    have hc : c ≠ ':' := by
      rintro rfl
      simp at h
    rw [mentionsActorChars, afterActor?_of_ne hc, ih (fun hm => h (List.mem_cons_of_mem _ hm))]
    rfl

/-! ## Seams -/

/-- Whether an occurrence starts in the first part of a text does not depend on the second part. -/
def Seam (s r : List Char) : Prop := ∀ u, u ≠ [] → u <:+ s → (afterActor? (u ++ r)).isSome = (afterActor? u).isSome

theorem Seam.tail {c : Char} (h : Seam (c :: s) r) : Seam s r :=
  fun u hu hs => h u hu (hs.trans (List.suffix_cons c s))

theorem Seam.mentions (h : Seam s r) : mentionsActorChars (s ++ r) = (mentionsActorChars s || mentionsActorChars r) := by
  induction s with
  | nil => rfl
  | cons c s ih =>
    have hc := h (c :: s) (by simp) List.suffix_rfl
    rw [List.cons_append] at hc
    rw [List.cons_append, mentionsActorChars, mentionsActorChars, hc, ih h.tail, Bool.or_assoc]

theorem Seam.substitute (h : Seam s r) {skip : Nat} (hs : skip ≤ s.length) :
    substituteActorChars identifier skip (s ++ r) =
      substituteActorChars identifier skip s ++ substituteActorChars identifier 0 r := by
  induction s generalizing skip with
  | nil =>
    obtain rfl := Nat.le_zero.mp hs
    rfl
  | cons c s ih =>
    cases skip with
    | succ skip =>
      rw [List.cons_append, substituteActorChars, substituteActorChars]
      exact ih h.tail (Nat.le_of_succ_le_succ hs)
    | zero =>
      have hc := h (c :: s) (by simp) List.suffix_rfl
      rw [List.cons_append] at hc
      rw [List.cons_append, substituteActorChars, substituteActorChars, hc]
      split
      · rename_i ha
        -- an occurrence that starts before the seam ends before it
        rw [ih h.tail (skip_of_occurrence ha), List.append_assoc]
      · rw [ih h.tail (Nat.zero_le _), List.cons_append]

theorem seam_of_no_colon (h : ':' ∉ s) (r : List Char) : Seam s r := by
  intro u hu hs
  cases u with
  | nil => exact absurd rfl hu
  | cons c u =>
    have hc : c ≠ ':' := by
      rintro rfl
      exact h (hs.subset (List.mem_cons_self ..))
    rw [List.cons_append, afterActor?_of_ne hc, afterActor?_of_ne hc]

theorem isPrefixOf_append {p v : List Char} (h : ∀ c ∈ r.head?, c ∉ p) : p.isPrefixOf (v ++ r) = p.isPrefixOf v := by
  induction p generalizing v with
  | nil => rfl
  | cons a p ih =>
    cases v with
    | nil =>
      cases r with
      | nil => rfl
      | cons q r =>
        have hq : a ≠ q := fun he => h q rfl (he ▸ List.mem_cons_self)
        simp [List.isPrefixOf, hq]
    | cons b v =>
      rw [List.cons_append, List.isPrefixOf_cons_cons, List.isPrefixOf_cons_cons,
        ih fun c hc hm => h c hc (List.mem_cons_of_mem _ hm)]

/-- What follows the name of a parameter does not matter to an occurrence, if it is no word character. -/
theorem afterActor?_append {v : List Char} (h : ∀ c ∈ r.head?, CharSet.word.contains c = false) :
    (afterActor? (':' :: v ++ r)).isSome = (afterActor? (':' :: v)).isSome := by
  have hp : ∀ c ∈ r.head?, c ∉ actorParameter.tail := by
    intro c hc hm
    have hall : (actorParameter.tail.all CharSet.word.contains) = true := by decide
    have hw := List.all_eq_true.mp hall c hm
    rw [h c hc] at hw
    cases hw
  rw [afterActor?_isSome, afterActor?_isSome]
  have ha : actorParameter = ':' :: actorParameter.tail := rfl
  rw [ha, List.cons_append, List.isPrefixOf_cons_cons, List.isPrefixOf_cons_cons, isPrefixOf_append hp]
  cases hv : actorParameter.tail.isPrefixOf v with
  | false => simp
  | true =>
    obtain ⟨v', rfl⟩ := List.isPrefixOf_iff_prefix.mp hv
    cases v' with
    | nil =>
      cases r with
      | nil => rfl
      | cons q r => simp [actorParameter, h q rfl]
    | cons d v' => simp [actorParameter]

theorem seam_of_param {v : List Char} (hv : ':' ∉ v) (h : ∀ c ∈ r.head?, CharSet.word.contains c = false) :
    Seam (':' :: v) r := by
  intro u hu hs
  rcases List.suffix_cons_iff.mp hs with rfl | hs
  · exact afterActor?_append h
  · exact seam_of_no_colon hv r u hu hs

theorem seam_of_closed {q : Char} (hq : CharSet.word.contains q = false) (hc : q ≠ ':') (w r : List Char) :
    Seam (w ++ [q]) r := by
  intro u hu hs
  obtain ⟨v, rfl⟩ : ∃ v, u = v ++ [q] := by
    obtain ⟨x, hx⟩ := hs
    obtain ⟨v, d, rfl⟩ := (List.eq_nil_or_concat' u).resolve_left hu
    rw [← List.append_assoc] at hx
    exact ⟨v, by rw [(List.append_inj' hx rfl).2]⟩
  cases v with
  | nil => rw [List.nil_append, List.singleton_append, afterActor?_of_ne hc, afterActor?_of_ne hc]
  | cons d v =>
    by_cases hd : d = ':'
    · subst hd
      have hr : (afterActor? (':' :: v ++ q :: r)).isSome = (afterActor? (':' :: v)).isSome :=
        afterActor?_append (by simp [hq])
      have hn : (afterActor? (':' :: v ++ [q])).isSome = (afterActor? (':' :: v)).isSome :=
        afterActor?_append (by simp [hq])
      rw [hn, ← hr, List.append_assoc, List.singleton_append]
    · simp only [List.cons_append, afterActor?_of_ne hd]

end

/-! ## Tokens -/

theorem word_of_blank {c : Char} (h : isBlank c = true) : CharSet.word.contains c = false :=
  stops_of_blank (by decide +kernel) h

section
variable {n : Nat} {cs : List Char} {t : Token} {ts : List Token}

theorem not_word_of_leads {k : TokenKind} {c : Char} (h : leads k c = true) (hn : k ≠ .number) (hw : k ≠ .word) :
    CharSet.word.contains c = false := by
  have hc : c ∈ ['\x7b', singleQuote, ':', '<', '>', '!', '=', '(', ')', ','] := by
    cases k <;> simp_all [leads]
    tauto
  have hall : (['\x7b', singleQuote, ':', '<', '>', '!', '=', '(', ')', ','].all fun c => !CharSet.word.contains c) =
      true := by
    decide
  simpa using List.all_eq_true.mp hall c hc

theorem word_of_isWordPart {c : Char} (h : isWordPart c = true) : CharSet.word.contains c = true := by
  have hc : c.toNat < 128 := by
    simp only [isWordPart, Char.isAlphanum, Bool.or_eq_true] at h
    rcases h with (h | h) | h
    · exact isWordStart_ascii (by simp [isWordStart, h])
    · exact Nat.lt_of_le_of_lt (Char.isDigit_iff_toNat.mp h).2 (by decide)
    · exact isWordStart_ascii (by simp [isWordStart, h])
  have hp : (!isWordPart c || CharSet.word.contains c) = true :=
    ascii (p := fun c => !isWordPart c || CharSet.word.contains c) (by decide) hc
  simpa [h] using hp

/-- A parameter ends where no word character follows: neither a part of a name nor a digit of any script. -/
theorem param_end {m : Nat} (ht : scanToken? n (t.chars ++ cs) = some (t, cs)) (hl : Laid m cs ts)
    (hs : Spaced (t :: ts)) (hk : t.kind = .param) : ∀ c ∈ cs.head?, CharSet.word.contains c = false := by
  intro c hc
  obtain ⟨scan, hm, hscan, -⟩ := scanToken?_scanner ht
  have hpart : isWordPart c = false := by
    simp only [scanners, hk, List.mem_cons, Prod.mk.injEq, reduceCtorEq, false_and, false_or, or_false, true_and,
      List.not_mem_nil] at hm
    subst hm
    exact (scanParam?_split hscan).2 c hc
  rcases hl.lead c hc with hb | ⟨u, hu, hlead⟩
  · exact word_of_blank hb
  · have hv : u.kind.isValue = false := (List.isChain_cons.mp hs).1 u hu (by rw [hk]; rfl)
    have hn : u.kind ≠ .number := fun h => by
      rw [h] at hv
      cases hv
    refine not_word_of_leads hlead hn fun hw => ?_
    rw [hw, leads] at hlead
    rw [isWordPart_of_isWordStart hlead] at hpart
    cases hpart

theorem no_colon_of_token (ht : scanToken? n (t.chars ++ cs) = some (t, cs)) (hshape : t.Shaped) (hp : t.kind ≠ .param)
    (hs : t.kind ≠ .string) (htemplate : t.kind ≠ .template) : ':' ∉ t.chars := by
  obtain ⟨scan, hm, hscan, -⟩ := scanToken?_scanner ht
  simp only [scanners, List.mem_cons, Prod.mk.injEq, List.not_mem_nil, or_false] at hm
  rcases hm with hm | hm | hm | hm | hm | hm | hm | hm | hm <;> obtain ⟨hk, rfl⟩ := hm <;>
    simp only [Token.Shaped, hk] at hshape
  · exact absurd hk htemplate
  · exact absurd hk hs
  · intro hm
    exact absurd (List.all_eq_true.mp (scanNumber?_split hscan).2 ':' hm) (by decide)
  · exact absurd hk hp
  · obtain ⟨op, hop⟩ := hshape
    have hd : ∀ p ∈ operatorTexts, ':' ∉ p.1 := by decide
    exact hd _ hop
  · rw [(scanChar?_split hscan).2]
    decide
  · rw [(scanChar?_split hscan).2]
    decide
  · rw [(scanChar?_split hscan).2]
    decide
  · exact hshape.no_colon

theorem seam_of_token {m : Nat} (ht : scanToken? n (t.chars ++ cs) = some (t, cs)) (hl : Laid m cs ts)
    (hs : Spaced (t :: ts)) (hshape : t.Shaped) : Seam t.chars cs := by
  -- a quoted text and a template are closed by a mark; all other tokens but the parameters have no colon
  by_cases hk : t.kind = .param
  · simp only [Token.Shaped, hk] at hshape
    obtain ⟨name, hc, hn⟩ := hshape
    rw [hc]
    exact seam_of_param hn.no_colon (param_end ht hl hs hk)
  by_cases hk' : t.kind = .string
  · simp only [Token.Shaped, hk'] at hshape
    obtain ⟨content, hc⟩ := hshape
    rw [hc]
    exact seam_of_closed (by decide) (by decide) _ cs
  by_cases hk'' : t.kind = .template
  · obtain ⟨scan, hm, hscan, -⟩ := scanToken?_scanner ht
    simp only [scanners, hk'', List.mem_cons, Prod.mk.injEq, reduceCtorEq, false_and, or_false, true_and,
      List.not_mem_nil] at hm
    subst hm
    obtain ⟨-, w, hw⟩ := scanTemplate?_split hscan
    rw [hw]
    exact seam_of_closed (by decide) (by decide) w cs
  · exact seam_of_no_colon (no_colon_of_token ht hshape hk hk' hk'') cs

/-! ## Texts -/

variable {identifier : List Char}

theorem substitute_laid (h : Laid n cs ts) (hs : Spaced ts) (hshape : ∀ t ∈ ts, t.Shaped) :
    substituteActorChars identifier 0 cs =
      rewriteTokens (fun t => substituteActorChars identifier 0 t.chars) n cs ts := by
  induction h with
  | nil => rfl
  | @blank n c cs ts hb hl ih =>
    have hc : c ≠ ':' := by
      rintro rfl
      exact absurd hb (by decide)
    rw [rewriteTokens_blank hl, ← ih hs hshape, substituteActorChars, afterActor?_of_ne hc, if_neg (by simp)]
  | @token n cs t ts ht hl ih =>
    obtain ⟨-, -, -, hp⟩ := scanToken?_scanner ht
    have hseam := seam_of_token ht hl hs (hshape t (by simp))
    rw [rewriteTokens_token hp, hseam.substitute (Nat.zero_le _),
      ih (List.isChain_cons.mp hs).2 fun t ht => hshape t (by simp [ht])]

theorem mentions_laid (h : Laid n cs ts) (hs : Spaced ts) (hshape : ∀ t ∈ ts, t.Shaped) :
    mentionsActorChars cs = ts.any fun t => mentionsActorChars t.chars := by
  induction h with
  | nil => rfl
  | @blank n c cs ts hb hl ih =>
    have hc : c ≠ ':' := by
      rintro rfl
      exact absurd hb (by decide)
    rw [mentionsActorChars, afterActor?_of_ne hc, Bool.false_or, ih hs hshape]
  | @token n cs t ts ht hl ih =>
    have hseam := seam_of_token ht hl hs (hshape t (by simp))
    rw [hseam.mentions, List.any_cons, ih (List.isChain_cons.mp hs).2 fun t ht => hshape t (by simp [ht])]

/-! ## What a token has of the actor -/

theorem occurrence_of_name {name : List Char} (hn : IsName name) :
    (afterActor? (':' :: name)).isSome = true ↔ name = actorParameter.tail := by
  have ha : actorParameter = ':' :: actorParameter.tail := rfl
  rw [afterActor?_isSome, ha, List.isPrefixOf_cons_cons]
  constructor
  · intro h
    simp only [beq_self_eq_true, Bool.true_and, Bool.and_eq_true, List.isPrefixOf_iff_prefix] at h
    obtain ⟨⟨v, rfl⟩, hd⟩ := h
    cases v with
    | nil => simp
    | cons d v => simp [actorParameter, word_of_isWordPart (hn.parts d (by simp))] at hd
  · rintro rfl
    rfl

theorem param?_eq_actor {name : List Char} (hk : t.kind = .param) (hc : t.chars = ':' :: name) :
    t.param? = some "actor" ↔ name = actorParameter.tail := by
  simp only [Token.param?, hk, if_true, hc, List.drop_succ_cons, List.drop_zero, Option.some.injEq]
  rw [← String.toList_inj, String.toList_ofList]
  rfl

theorem mentions_token (ht : scanToken? n (t.chars ++ cs) = some (t, cs)) (hshape : t.Shaped) (hs : t.kind ≠ .string)
    (htemplate : t.kind ≠ .template) : mentionsActorChars t.chars = true ↔ t.param? = some "actor" := by
  by_cases hk : t.kind = .param
  · simp only [Token.Shaped, hk] at hshape
    obtain ⟨name, hc, hn⟩ := hshape
    rw [param?_eq_actor hk hc, hc, mentionsActorChars, mentions_of_no_colon hn.no_colon, Bool.or_false,
      occurrence_of_name hn]
  · rw [Token.param?_of_kind hk, mentions_of_no_colon (no_colon_of_token ht hshape hk hs htemplate)]
    simp

theorem chars_of_param? (hshape : t.Shaped) (h : t.param? = some "actor") : t.chars = actorParameter := by
  by_cases hk : t.kind = .param
  · simp only [Token.Shaped, hk] at hshape
    obtain ⟨name, hc, -⟩ := hshape
    rw [hc, (param?_eq_actor hk hc).mp h]
    rfl
  · rw [Token.param?_of_kind hk] at h
    cases h

end

end Workflow
