import Workflow.Proofs.Predicate.Faults
import Workflow.Proofs.Predicate.Recutting

/-!
# What lies between tokens

A text is cut round by round. After every round the tokens that were found, and blanks besides them, are all of the text up
to the position that is reached.
-/

namespace Workflow.Predicate

/-- How far the cutting of a text has come: the position that is reached, and the tokens found so far. -/
structure Progress where
  position : Nat
  found : List Token

/-- One round: a blank is skipped, or the token that starts here is taken. -/
inductive Progress.Step (cs : List Char) : Progress → Progress → Prop
  | blank {n : Nat} {ts : List Token} {c : Char} : cs[n]? = some c → isBlank c = true → Step cs ⟨n, ts⟩ ⟨n + 1, ts⟩
  | token {n : Nat} {ts : List Token} {t : Token} {r : List Char} : scanToken? n (cs.drop n) = some (t, r) →
      Step cs ⟨n, ts⟩ ⟨n + t.chars.length, ts ++ [t]⟩

/-- What a number of rounds leads to. -/
inductive Reaches (cs : List Char) : Nat → Progress → Prop
  | start : Reaches cs 0 ⟨0, []⟩
  | round {k : Nat} {p q : Progress} : Reaches cs k p → p.Step cs q → Reaches cs (k + 1) q

/-- The tokens found so far are pieces of the text, one behind the other, and there is nothing but blanks besides them. -/
structure Progress.Accounts (cs : List Char) (p : Progress) : Prop where
  within : p.position ≤ cs.length
  increasing : p.found.Pairwise fun t u => t.position < u.position
  apart : p.found.Pairwise fun t u => t.position + t.chars.length ≤ u.position
  nonempty : ∀ t ∈ p.found, t.chars ≠ []
  reached : ∀ t ∈ p.found, t.position + t.chars.length ≤ p.position
  sliced : ∀ t ∈ p.found, t.chars = (cs.drop t.position).take t.chars.length
  blank : ∀ i < p.position, (∃ t ∈ p.found, t.position ≤ i ∧ i < t.position + t.chars.length) ∨
    ∃ c, cs[i]? = some c ∧ isBlank c = true

/-- No token and no blank starts at a position. -/
def Unmatched (cs : List Char) (n : Nat) : Prop :=
  ∃ c rest, cs.drop n = c :: rest ∧ isBlank c = false ∧ ∀ q ∈ scanners, q.2 (c :: rest) = none

section
variable {cs : List Char} {p q : Progress}

/-! ## One round -/

theorem Progress.Step.advances (h : p.Step cs q) : p.position < q.position := by
  cases h with
  | blank => exact Nat.lt_succ_self _
  | token ht => exact Nat.lt_add_of_pos_right (List.length_pos_iff.mpr (scanToken?_ne_nil ht))

theorem Progress.Step.accounts (h : p.Step cs q) (ha : p.Accounts cs) : q.Accounts cs := by
  obtain ⟨hwithin, hincreasing, hapart, hnonempty, hreached, hsliced, hblank⟩ := ha
  cases h with
  | @blank n ts c hc hb =>
    have hn : n < cs.length := (List.getElem?_eq_some_iff.mp hc).1
    refine ⟨hn, hincreasing, hapart, hnonempty, fun t ht => Nat.le_succ_of_le (hreached t ht), hsliced, fun i hi => ?_⟩
    rcases Nat.lt_succ_iff_lt_or_eq.mp hi with hi | rfl
    · exact hblank i hi
    · exact .inr ⟨c, hc, hb⟩
  | @token n ts t r ht =>
    have hsplit : cs.drop n = t.chars ++ r := scanToken?_split ht
    have hne : t.chars ≠ [] := scanToken?_ne_nil ht
    obtain ⟨-, -, -, hp⟩ := scanToken?_scanner ht
    have hlength : cs.length - n = t.chars.length + r.length := by
      rw [← List.length_drop, hsplit, List.length_append]
    have hpos : 0 < t.chars.length := List.length_pos_iff.mpr hne
    refine ⟨by dsimp only; omega, ?_, ?_, ?_, ?_, ?_, fun i hi => ?_⟩
    · refine List.pairwise_append.mpr ⟨hincreasing, List.pairwise_singleton .., fun u hu v hv => ?_⟩
      have hu' : 0 < u.chars.length := List.length_pos_iff.mpr (hnonempty u hu)
      rw [List.mem_singleton.mp hv, hp]
      exact Nat.lt_of_lt_of_le (Nat.lt_add_of_pos_right hu') (hreached u hu)
    · refine List.pairwise_append.mpr ⟨hapart, List.pairwise_singleton .., fun u hu v hv => ?_⟩
      rw [List.mem_singleton.mp hv, hp]
      exact hreached u hu
    · exact List.forall_mem_append.mpr ⟨hnonempty, List.forall_mem_singleton.mpr hne⟩
    · refine List.forall_mem_append.mpr ⟨fun u hu => Nat.le_add_right_of_le (hreached u hu), ?_⟩
      exact List.forall_mem_singleton.mpr (by rw [hp])
    · refine List.forall_mem_append.mpr ⟨hsliced, List.forall_mem_singleton.mpr ?_⟩
      rw [hp, hsplit, List.take_left]
    · by_cases hi' : i < n
      · rcases hblank i hi' with ⟨u, hu, hiu⟩ | hb
        · exact .inl ⟨u, List.mem_append_left _ hu, hiu⟩
        · exact .inr hb
      · exact .inl ⟨t, List.mem_append_right _ (List.mem_singleton_self t), by dsimp only at hi; omega⟩

/-! ## All rounds -/

theorem Reaches.accounts {k : Nat} (h : Reaches cs k p) : p.Accounts cs := by
  induction h with
  | start => exact ⟨Nat.zero_le _, .nil, .nil, nofun, nofun, nofun, nofun⟩
  | round _ hs ih => exact hs.accounts ih

theorem Reaches.le_position {k : Nat} (h : Reaches cs k p) : k ≤ p.position := by
  induction h with
  | start => exact Nat.le_refl 0
  | round _ hs ih => exact Nat.lt_of_le_of_lt ih hs.advances

/-- What becomes of a text of which some tokens are found: the others are found too, or the rounds end at a position where
nothing matches. -/
inductive Settles (cs : List Char) (ts : List Token) : Except Stop (List Token) → Prop
  | cut {k : Nat} {us : List Token} : Reaches cs k ⟨cs.length, ts ++ us⟩ → Settles cs ts (.ok us)
  | stuck {k n : Nat} {us : List Token} : Reaches cs k ⟨n, ts ++ us⟩ → Unmatched cs n →
      Settles cs ts (.error ⟨n, cs.drop n⟩)

theorem Settles.cons {t : Token} {ts : List Token} {r : Except Stop (List Token)} (h : Settles cs (ts ++ [t]) r) :
    Settles cs ts (r.map (t :: ·)) := by
  cases h with
  | cut h => exact .cut (by rwa [List.append_cons])
  | stuck h hn =>
    rw [List.append_assoc, List.singleton_append] at h
    exact .stuck h hn

theorem scanToken?_eq_none {n : Nat} (h : scanToken? n cs = none) : ∀ q ∈ scanners, q.2 cs = none := by
  intro q hq
  exact Option.map_eq_none_iff.mp (List.findSome?_eq_none_iff.mp h q hq)

theorem tokensFrom_settles {fuel n k : Nat} {rest : List Char} {ts : List Token} (hr : cs.drop n = rest)
    (hf : rest.length ≤ fuel) (h : Reaches cs k ⟨n, ts⟩) : Settles cs ts (tokensFrom fuel n rest) := by
  fun_induction tokensFrom fuel n rest generalizing k ts with
  | case1 fuel n =>
    have hn : n = cs.length := Nat.le_antisymm h.accounts.within (List.drop_eq_nil_iff.mp hr)
    rw [hn, ← List.append_nil ts] at h
    exact .cut h
  | case2 n rest hne => exact absurd (List.length_eq_zero_iff.mp (Nat.le_zero.mp hf)) hne
  | case3 fuel n c rest hb ih =>
    have hc : cs[n]? = some c := by rw [← List.head?_drop, hr, List.head?_cons]
    refine ih ?_ (Nat.le_of_succ_le_succ hf) (h.round (.blank hc hb))
    rw [← List.drop_drop, hr, List.drop_one, List.tail_cons]
  | case4 fuel n c rest hb ht =>
    rw [← List.append_nil ts] at h
    rw [← hr]
    exact .stuck h ⟨c, rest, hr, Bool.not_eq_true _ ▸ hb, scanToken?_eq_none ht⟩
  | case5 fuel n c rest hb t rest' ht ih =>
    have hsplit := scanToken?_split ht
    have hpos : 0 < t.chars.length := List.length_pos_iff.mpr (scanToken?_ne_nil ht)
    refine (ih ?_ ?_ (h.round (.token (hr ▸ ht)))).cons
    · rw [← List.drop_drop, hr, hsplit, List.drop_left]
    · have := congrArg List.length hsplit
      simp only [List.length_append, List.length_cons] at this hf
      omega

/-- **The tokens of a text are pieces of it in order, with nothing but blanks before, between and behind them**, and where no
token starts, the same holds up to there and the text is refused at that offset. Every token takes a character at least, so
there are no more rounds than characters. -/
theorem tokens_account (expression : String) :
    ((∃ ts k, tokens expression.toList = .ok ts ∧ Reaches expression.toList k ⟨expression.toList.length, ts⟩ ∧
        (⟨expression.toList.length, ts⟩ : Progress).Accounts expression.toList) ∨
      ∃ stop ts k, tokens expression.toList = .error stop ∧ Reaches expression.toList k ⟨stop.offset, ts⟩ ∧
        (⟨stop.offset, ts⟩ : Progress).Accounts expression.toList ∧ Unmatched expression.toList stop.offset ∧
        ∀ templates, parseWith templates expression = .error (.predicate expression
          (.input stop.offset (String.ofList ((expression.toList.drop stop.offset).take 10))))) ∧
    (∀ k p, Reaches expression.toList k p → p.Accounts expression.toList ∧ k ≤ expression.toList.length) ∧
    ∀ q ∈ scanners, ∀ x s r, q.2 x = some (s, r) → s ≠ [] := by
  refine ⟨?_, fun k p h => ⟨h.accounts, h.le_position.trans h.accounts.within⟩, fun q hq x s r => scanner_ne_nil hq⟩
  have hsettles : Settles expression.toList [] (tokens expression.toList) :=
    tokensFrom_settles List.drop_zero (Nat.le_refl _) .start
  generalize ht : tokens expression.toList = result at hsettles
  cases hsettles with
  | cut h => exact .inl ⟨_, _, rfl, h, h.accounts⟩
  | stuck h hn =>
    refine .inr ⟨_, _, _, rfl, h, h.accounts, hn, fun templates => ?_⟩
    rw [parseWith, read, ht]
    rfl

end

end Workflow.Predicate
