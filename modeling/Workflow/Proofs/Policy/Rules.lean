import Workflow.Proofs.Plan
import Workflow.Proofs.Policy.Occurrences

/-!
# The rules of a plan

A rule has the condition of its policy with the identifier of the actor in place of each parameter of the actor, and every
other token as it was, unless a quoted text or a template of the condition has the parameter in it. Such a text is rewritten
too, and keeps a condition that does not depend on the actor from being refused.
-/

namespace Workflow

open Predicate

/-! ## Filling in the actor -/

def fillToken (identifier : List Char) (t : Token) : List Char :=
  if t.param? = some "actor" then identifier else t.chars

/-- A condition with the identifier in place of the parameters of the actor among its tokens. -/
def fillActor (identifier : String) (ts : List Token) (condition : String) : String :=
  String.ofList (rewriteTokens (fillToken identifier.toList) 0 condition.toList ts)

/-- No quoted text and no template has the parameter of the actor in it. -/
def Unquoted (ts : List Token) : Prop :=
  ∀ t ∈ ts, t.kind = .string ∨ t.kind = .template → mentionsActorChars t.chars = false

section
variable {identifier cs s : List Char} {f g : Token → List Char} {n : Nat} {ts : List Token}

theorem rewriteTokens_congr (h : ∀ t ∈ ts, f t = g t) : rewriteTokens f n cs ts = rewriteTokens g n cs ts := by
  induction ts generalizing n cs with
  | nil => rfl
  | cons t ts ih =>
    obtain ⟨ht, hts⟩ := List.forall_mem_cons.mp h
    rw [rewriteTokens, rewriteTokens, ht, ih hts]

theorem rewriteTokens_length_le (h : ∀ t ∈ ts, (f t).length ≤ (g t).length) :
    (rewriteTokens f n cs ts).length ≤ (rewriteTokens g n cs ts).length := by
  induction ts generalizing n cs with
  | nil => exact Nat.le_refl _
  | cons t ts ih =>
    obtain ⟨ht, hts⟩ := List.forall_mem_cons.mp h
    simp only [rewriteTokens, List.length_append]
    exact Nat.add_le_add (Nat.add_le_add_left ht _) (ih hts)

/-- Where one way to rewrite is never longer than another and both lead to the same text, they agree on every token. -/
theorem eq_of_rewriteTokens_eq (h : ∀ t ∈ ts, (f t).length ≤ (g t).length)
    (he : rewriteTokens f n cs ts = rewriteTokens g n cs ts) : ∀ t ∈ ts, f t = g t := by
  induction ts generalizing n cs with
  | nil => simp
  | cons t ts ih =>
    obtain ⟨ht, hts⟩ := List.forall_mem_cons.mp h
    simp only [rewriteTokens, List.append_assoc, List.append_cancel_left_eq] at he
    have hl := congrArg List.length he
    simp only [List.length_append] at hl
    have hr : (rewriteTokens f (t.position + t.chars.length) (cs.drop (t.position - n + t.chars.length)) ts).length ≤
        (rewriteTokens g (t.position + t.chars.length) (cs.drop (t.position - n + t.chars.length)) ts).length :=
      rewriteTokens_length_le hts
    obtain ⟨hft, hrest⟩ := List.append_inj he (by omega)
    exact List.forall_mem_cons.mpr ⟨hft, ih hts hrest⟩

/-! ## Lengths -/

theorem length_le_substitute (hi : actorParameter.length ≤ identifier.length) (skip : Nat) :
    s.length ≤ (substituteActorChars identifier skip s).length + skip := by
  induction s generalizing skip with
  | nil => simp
  | cons c s ih =>
    cases skip with
    | succ skip =>
      have := ih skip
      simp only [substituteActorChars, List.length_cons]
      omega
    | zero =>
      simp only [substituteActorChars]
      split
      · have := ih (actorParameter.length - 1)
        simp only [List.length_cons, List.length_append, actorParameter, List.length_nil] at this hi ⊢
        omega
      · have := ih 0
        simp only [List.length_cons]
        omega

theorem substitute_length_le (hi : identifier.length ≤ actorParameter.length) {skip : Nat} (hs : skip ≤ s.length) :
    (substituteActorChars identifier skip s).length + skip ≤ s.length := by
  induction s generalizing skip with
  | nil =>
    obtain rfl := Nat.le_zero.mp hs
    exact Nat.le_refl _
  | cons c s ih =>
    cases skip with
    | succ skip =>
      have := ih (Nat.le_of_succ_le_succ hs)
      simp only [substituteActorChars, List.length_cons]
      omega
    | zero =>
      simp only [substituteActorChars]
      split
      · rename_i ha
        have := ih (skip_of_occurrence ha)
        simp only [List.length_cons, List.length_append, actorParameter, List.length_nil] at this hi ⊢
        omega
      · have := ih (Nat.zero_le _)
        simp only [List.length_cons]
        omega

theorem substitute_actorParameter {skip : Nat} (hs : skip ≤ s.length) :
    s.take skip ++ substituteActorChars actorParameter skip s = s := by
  induction s generalizing skip with
  | nil =>
    obtain rfl := Nat.le_zero.mp hs
    rfl
  | cons c s ih =>
    cases skip with
    | succ skip => rw [List.take_succ_cons, substituteActorChars, List.cons_append, ih (Nat.le_of_succ_le_succ hs)]
    | zero =>
      rw [substituteActorChars]
      split
      · rename_i ha
        have htake : actorParameter = c :: s.take (actorParameter.length - 1) :=
          List.prefix_iff_eq_take.mp (prefix_of_occurrence ha)
        have hrest := ih (skip_of_occurrence ha)
        rw [List.take_zero, List.nil_append]
        calc
          actorParameter ++ substituteActorChars actorParameter (actorParameter.length - 1) s
              = c :: (s.take (actorParameter.length - 1) ++
                  substituteActorChars actorParameter (actorParameter.length - 1) s) := by
            rw [← List.cons_append, ← htake]
          _ = c :: s := by rw [hrest]
      · have hrest := ih (Nat.zero_le s.length)
        rw [List.take_zero, List.nil_append] at hrest ⊢
        rw [hrest]

theorem eq_actor_of_substitute (h : substituteActorChars identifier 0 s = s) (hm : mentionsActorChars s = true) :
    identifier = actorParameter := by
  induction s with
  | nil => cases hm
  | cons c s ih =>
    rw [substituteActorChars] at h
    split at h
    · rename_i ha
      have hle := congrArg List.length h
      -- another length would show in the length of the text, whatever is written after it
      have hlen : identifier.length = actorParameter.length := by
        rcases Nat.le_total identifier.length actorParameter.length with hi | hi
        · have := substitute_length_le hi (skip_of_occurrence ha)
          simp only [List.length_append, List.length_cons, actorParameter, List.length_nil] at *
          omega
        · have := length_le_substitute (s := s) hi (actorParameter.length - 1)
          simp only [List.length_append, List.length_cons, actorParameter, List.length_nil] at *
          omega
      obtain ⟨v, hv⟩ := prefix_of_occurrence ha
      rw [← hv] at h
      exact (List.append_inj h hlen).1
    · rename_i ha
      rw [List.cons.injEq] at h
      rw [mentionsActorChars, Bool.eq_false_of_not_eq_true ha, Bool.false_or] at hm
      exact ih h.2 hm

/-! ## Conditions -/

theorem substitute_parameter : substituteActorChars identifier 0 actorParameter = identifier := by
  have ha : (afterActor? actorParameter).isSome = true := rfl
  rw [actorParameter] at ha ⊢
  simp [substituteActorChars, ha, actorParameter]

theorem fillToken_of_quoted {t : Token} (h : t.kind = .string ∨ t.kind = .template) : fillToken identifier t = t.chars := by
  have hk : t.kind ≠ .param := by rcases h with h | h <;> simp [h]
  simp [fillToken, Token.param?_of_kind hk]

theorem fillToken_of_param {t : Token} (hshape : t.Shaped) (h : t.param? = some "actor") :
    fillToken identifier t = substituteActorChars identifier 0 t.chars := by
  rw [fillToken, if_pos h, chars_of_param? hshape h, substitute_parameter]

theorem fillToken_eq_substitute {t : Token} {m : Nat} {r : List Char} (ht : scanToken? m (t.chars ++ r) = some (t, r))
    (hshape : t.Shaped) (hq : t.kind = .string ∨ t.kind = .template → mentionsActorChars t.chars = false) :
    fillToken identifier t = substituteActorChars identifier 0 t.chars := by
  by_cases ha : t.param? = some "actor"
  · exact fillToken_of_param hshape ha
  · rw [fillToken, if_neg ha, substitute_of_not_mentions]
    -- only a token that is no text of its own shows by its kind that it is not the parameter
    by_cases hs : t.kind = .string
    · exact hq (.inl hs)
    by_cases htemplate : t.kind = .template
    · exact hq (.inr htemplate)
    · rwa [← mentions_token ht hshape hs htemplate, Bool.not_eq_true] at ha

theorem fillToken_cases {t : Token} (hshape : t.Shaped) :
    fillToken identifier t = substituteActorChars identifier 0 t.chars ∨ fillToken identifier t = t.chars := by
  by_cases ha : t.param? = some "actor"
  · exact .inl (fillToken_of_param hshape ha)
  · exact .inr (if_neg ha)

theorem fillToken_actorParameter {t : Token} (hshape : t.Shaped) :
    fillToken actorParameter t = substituteActorChars actorParameter 0 t.chars := by
  have hsub : substituteActorChars actorParameter 0 t.chars = t.chars := by
    simpa using substitute_actorParameter (s := t.chars) (Nat.zero_le _)
  have hcases : fillToken actorParameter t = substituteActorChars actorParameter 0 t.chars ∨
      fillToken actorParameter t = t.chars := fillToken_cases hshape
  rcases hcases with hf | hf
  · exact hf
  · exact hf.trans hsub.symm

/-- Both ways to fill in the actor agree on a condition only if they agree on each of its tokens. -/
theorem fillToken_of_rewrite (hshape : ∀ t ∈ ts, t.Shaped)
    (he : rewriteTokens (fun t => substituteActorChars identifier 0 t.chars) n cs ts =
      rewriteTokens (fillToken identifier) n cs ts) :
    ∀ t ∈ ts, fillToken identifier t = substituteActorChars identifier 0 t.chars := by
  -- the length of the identifier decides which of the two is never longer than the other
  rcases Nat.le_total identifier.length actorParameter.length with hi | hi
  · refine fun t ht => (eq_of_rewriteTokens_eq (fun t ht => ?_) he t ht).symm
    rcases fillToken_cases (hshape t ht) with hf | hf
    · exact (congrArg List.length hf).ge
    · rw [hf]
      exact substitute_length_le hi (Nat.zero_le _)
  · refine eq_of_rewriteTokens_eq (fun t ht => ?_) he.symm
    rcases fillToken_cases (hshape t ht) with hf | hf
    · exact (congrArg List.length hf).le
    · rw [hf]
      exact length_le_substitute hi 0

/-- What is written for a condition is the condition with its actor filled in, exactly if no text within it is mistaken for
the parameter, or nothing is changed at all. -/
theorem substitute_eq_fill_iff (h : Laid n cs ts) (hs : Spaced ts) (hshape : ∀ t ∈ ts, t.Shaped) :
    substituteActorChars identifier 0 cs = rewriteTokens (fillToken identifier) n cs ts ↔
      identifier = actorParameter ∨ Unquoted ts := by
  rw [substitute_laid h hs hshape]
  constructor
  · intro he
    by_contra hno
    obtain ⟨hi, hu⟩ := not_or.mp hno
    refine hu fun t ht hq => ?_
    by_contra hm
    -- a quoted text is left as it is, so the text with the mention in it is not changed either
    have hsame : t.chars = substituteActorChars identifier 0 t.chars :=
      (fillToken_of_quoted hq).symm.trans (fillToken_of_rewrite hshape he t ht)
    exact hi (eq_actor_of_substitute hsame.symm (by simpa using hm))
  · rintro (rfl | hu)
    · exact rewriteTokens_congr fun t ht => (fillToken_actorParameter (hshape t ht)).symm
    · refine rewriteTokens_congr fun t ht => ?_
      obtain ⟨m, r, hscan⟩ := h.scanned t ht
      exact (fillToken_eq_substitute hscan (hshape t ht) (hu t ht)).symm

/-- A condition that mentions the actor has the parameter, unless the mention is in a quoted text or a template. -/
theorem param_of_mentions (h : Laid n cs ts) (hs : Spaced ts) (hshape : ∀ t ∈ ts, t.Shaped)
    (hm : mentionsActorChars cs = true) (hu : Unquoted ts) : "actor" ∈ ts.filterMap Token.param? := by
  rw [mentions_laid h hs hshape, List.any_eq_true] at hm
  obtain ⟨t, ht, hm⟩ := hm
  obtain ⟨m, r, hscan⟩ := h.scanned t ht
  refine List.mem_filterMap.mpr ⟨t, ht, ?_⟩
  have hs : t.kind ≠ .string := fun hk => by simp [hu t ht (.inl hk)] at hm
  have htemplate : t.kind ≠ .template := fun hk => by simp [hu t ht (.inr hk)] at hm
  exact (mentions_token hscan (hshape t ht) hs htemplate).mp hm

end

/-! ## Rules -/

/-- A rule comes from a policy of a table: it is for the actor of the policy and for one of its operations. -/
structure AccessRule.From (r : AccessRule) (t : Table) (a : AccessPolicy) (b : Actor) : Prop where
  table : r.table = t.name
  named : b.name = a.actor
  actor : r.actor = b.name
  operation : r.operation ∈ a.operations
  source : r.sourceCondition = a.condition

theorem actorNamed?_eq_some {actors : List Actor} {name : String} {b : Actor} (h : actorNamed? actors name = some b) :
    b ∈ actors ∧ b.name = name :=
  ⟨List.mem_reverse.mp (List.mem_of_find?_eq_some h), by simpa using List.find?_some h⟩

theorem rules_eq_ok {table : String} {actors : List Actor} {a : AccessPolicy} {rules : List AccessRule}
    (h : a.rules table actors = .ok rules) : ∃ b ∈ actors, b.name = a.actor ∧
      rules = a.operations.map fun o => ⟨table, b.name, o, substituteActor a.condition b.identifier, a.condition⟩ := by
  unfold AccessPolicy.rules AccessPolicy.rulesBy at h
  split at h
  · cases h
  · rename_i b hb
    obtain ⟨hm, hn⟩ := actorNamed?_eq_some hb
    split at h
    · cases h
      exact ⟨b, hm, hn, rfl⟩
    · cases h

theorem policiesBy_eq_ok {t : Table} {actor? : String → Option Actor} {tp : TablePolicies} :
    t.policiesBy actor? = .ok tp ↔ t.access ≠ [] ∧ ∃ parts,
      List.Forall₂ (fun (a : AccessPolicy) part => a.rulesBy t.name actor? = .ok part) t.access parts ∧
      tp = ⟨t.name, parts.flatten, Operation.all.filter fun o => parts.flatten.all fun r => r.operation != o⟩ := by
  unfold Table.policiesBy
  rw [← List.isEmpty_eq_false_iff]
  cases t.access.isEmpty with
  | true => simp
  | false =>
    simp only [← mapM_eq_ok]
    cases t.access.mapM (AccessPolicy.rulesBy t.name actor?) with
    | error f => simp [Except.map]
    | ok parts => simp [Except.map, eq_comm]

theorem rule_from {t : Table} {actors : List Actor} {tp : TablePolicies} (h : t.policies actors = .ok tp) :
    ∀ r ∈ tp.rules, ∃ a ∈ t.access, ∃ b ∈ actors, r.From t a b ∧ r.condition = substituteActor a.condition b.identifier := by
  intro r hr
  obtain ⟨-, parts, hparts, rfl⟩ := policiesBy_eq_ok.mp h
  obtain ⟨part, hpart, hr⟩ := List.mem_flatten.mp hr
  obtain ⟨a, ha, hrules⟩ := (exists_of_forall₂ hparts).2 part hpart
  obtain ⟨b, hb, hn, rfl⟩ := rules_eq_ok hrules
  obtain ⟨o, ho, rfl⟩ := List.mem_map.mp hr
  exact ⟨a, ha, b, hb, ⟨rfl, hn, rfl, ho, rfl⟩, rfl⟩

theorem condition_filled {expression : String} {q : Predicate} (hq : Predicate.parse expression = .ok q)
    (hm : mentionsActor expression = true) :
    ∃ ts, tokens expression.toList = .ok ts ∧ (Unquoted ts → "actor" ∈ q.params) ∧ ∀ identifier,
      substituteActor expression identifier = fillActor identifier ts expression ↔ identifier = ":actor" ∨ Unquoted ts := by
  obtain ⟨ts, ht, hs, hp⟩ := params_of_parseWith hq
  have hl := laid_of_tokens ht
  have hshape := tokens_shaped ht
  refine ⟨ts, ht, fun hu => hp ▸ param_of_mentions hl hs hshape hm hu, fun identifier => ?_⟩
  have ha : identifier = ":actor" ↔ identifier.toList = actorParameter := String.toList_inj.symm
  rw [ha, ← substitute_eq_fill_iff hl hs hshape, substituteActor, fillActor, String.ofList_inj]

section
variable {settings : Settings} {custom : Option (List String)} {source : Option String}
  {loaded : Except (List Diagnostic) Manifest} {c : Compilation} {p : Plan}

/-- A policy of an accepted manifest has the actor for a parameter, and its rules have the condition with the actor filled
in for its parameters, unless the condition has a quoted text or a template with the parameter in it. -/
theorem compile_policies (h : compile settings custom source loaded = .ok c) (hp : c.plan = some p) :
    (∀ t ∈ p.manifest.database.tables, ∀ a ∈ t.access, ∃ q ts, Predicate.parse a.condition = .ok q ∧
      tokens a.condition.toList = .ok ts ∧ (Unquoted ts → "actor" ∈ q.params)) ∧
    ∀ e ∈ p.policies, ∀ r ∈ e.2.rules, ∃ t ∈ p.manifest.database.tables, ∃ a ∈ t.access, ∃ b ∈ p.manifest.database.actors,
      e.1 = t.name ∧ r.From t a b ∧ ∃ ts, tokens a.condition.toList = .ok ts ∧
        (r.condition = fillActor b.identifier ts a.condition ↔ b.identifier = ":actor" ∨ Unquoted ts) := by
  obtain ⟨-, hsound⟩ := compile_sound h hp
  have hcondition : ∀ t ∈ p.manifest.database.tables, ∀ a ∈ t.access, ∃ q, Predicate.parse a.condition = .ok q := by
    intro t ht a ha
    obtain ⟨q, hfits⟩ := (hsound.closed.policies t ht a ha).condition
    exact ⟨q, hfits.parse⟩
  constructor
  · intro t ht a ha
    obtain ⟨q, hq⟩ := hcondition t ht a ha
    obtain ⟨ts, hts, hparam, -⟩ := condition_filled hq (hsound.actors t ht a ha)
    exact ⟨q, ts, hq, hts, hparam⟩
  · intro e he r hr
    obtain ⟨t, ht, hname, hpolicies⟩ := (exists_of_forall₂ (compile_indexes h hp).policies).2 e he
    obtain ⟨a, ha, b, hb, hfrom, hrule⟩ := rule_from hpolicies r hr
    obtain ⟨q, hq⟩ := hcondition t ht a ha
    obtain ⟨ts, hts, -, hfill⟩ := condition_filled hq (hsound.actors t ht a ha)
    exact ⟨t, ht, a, ha, b, hb, hname, hfrom, ts, hts, hrule ▸ hfill b.identifier⟩

end

theorem compile_policies_workshop : ∃ c p,
    compile .standard none none (Manifest.load (workshop "owner = :actor" 1000)) = .ok c ∧ c.plan = some p ∧
    (∀ t ∈ p.manifest.database.tables, ∀ a ∈ t.access, ∃ q ts, Predicate.parse a.condition = .ok q ∧
      tokens a.condition.toList = .ok ts ∧ (Unquoted ts → "actor" ∈ q.params)) ∧
    ∀ e ∈ p.policies, ∀ r ∈ e.2.rules, ∃ t ∈ p.manifest.database.tables, ∃ a ∈ t.access, ∃ b ∈ p.manifest.database.actors,
      e.1 = t.name ∧ r.From t a b ∧ ∃ ts, tokens a.condition.toList = .ok ts ∧
        (r.condition = fillActor b.identifier ts a.condition ↔ b.identifier = ":actor" ∨ Unquoted ts) := by
  have hc : (compile .standard none none (Manifest.load (workshop "owner = :actor" 1000))).toOption.any
      (fun c => c.plan.isSome) = true := by
    decide +kernel
  obtain ⟨c, h, hp⟩ := any_toOption.mp hc
  obtain ⟨p, hp⟩ := Option.isSome_iff_exists.mp hp
  exact ⟨c, p, h, hp, compile_policies h hp⟩

/-- A quoted text that looks like the parameter passes for it: the rule compares with the text of the identifier. -/
theorem compile_policies_quoted : ∃ c p q,
    compile .standard none none (Manifest.load (workshop "owner = ':actor'" 1000)) = .ok c ∧ c.plan = some p ∧
    Predicate.parse "owner = ':actor'" = .ok q ∧ "actor" ∉ q.params ∧
    ∃ e ∈ p.policies, ∃ r ∈ e.2.rules, r.sourceCondition = "owner = ':actor'" ∧ r.condition = "owner = 'auth.uid()'" := by
  have hc : (compile .standard none none (Manifest.load (workshop "owner = ':actor'" 1000))).toOption.any
      (fun c => c.plan.any fun p => p.policies.any fun e => e.2.rules.any fun r =>
        r.sourceCondition = "owner = ':actor'" ∧ r.condition = "owner = 'auth.uid()'") = true := by
    decide +kernel
  have hq : (Predicate.parse "owner = ':actor'").toOption.any (fun q => "actor" ∉ q.params) = true := by
    decide
  obtain ⟨c, h, hp⟩ := any_toOption.mp hc
  obtain ⟨p, hp, he⟩ := (Option.any_eq_true ..).mp hp
  obtain ⟨e, he, hr⟩ := List.any_eq_true.mp he
  obtain ⟨r, hr, hs⟩ := List.any_eq_true.mp hr
  obtain ⟨q, hq, hn⟩ := any_toOption.mp hq
  exact ⟨c, p, q, h, hp, hq, by simpa using hn, e, he, r, hr, by simpa using hs⟩

end Workflow
