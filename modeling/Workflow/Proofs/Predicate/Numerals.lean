import Workflow.Proofs.Breakdown
import Workflow.Proofs.Predicate.Lexing

/-!
# Written numbers in predicates

A written number before a delimiter is one token, and is read as the number that it stands for.
-/

namespace Workflow.Predicate

section
variable {n : Numeral} {rest : List Char}

/-! ## Scanning -/

theorem scanDigits?_append {ds : List Char} (hd : Digits ds) (hn : ds ≠ []) (hr : ∀ c ∈ rest.head?, isDecimal c = false) :
    scanDigits? (ds ++ rest) = some (ds, rest) := by
  obtain ⟨ht, hs⟩ := span_append hd.isDecimal hr
  cases ds with
  | nil => exact absurd rfl hn
  | cons d ds =>
    have hc := hd.isDecimal d (List.mem_cons_self ..)
    rw [List.cons_append] at ht hs ⊢
    simp only [scanDigits?, hc, if_true, ht, hs]

theorem scanFraction_append {ds : List Char} (hd : Digits ds) (hr : ∀ c ∈ rest.head?, isDecimal c = false ∧ c ≠ '.') :
    scanFraction (Numeral.pointText ds ++ rest) = (Numeral.pointText ds, rest) := by
  cases ds with
  | nil =>
    unfold scanFraction
    split
    · rename_i he
      rw [Numeral.pointText, List.nil_append] at he
      exact absurd rfl (hr '.' (by rw [he]; rfl)).2
    · rfl
  | cons d ds =>
    have := scanDigits?_append hd (by simp) fun c hc => (hr c hc).1
    simp only [Numeral.pointText, List.cons_append] at this ⊢
    simp only [scanFraction, this]

theorem scanExponent_append {x : Option (Bool × List Char)} (hx : ∀ y ∈ x, Digits y.2 ∧ y.2 ≠ [])
    (hr : ∀ c ∈ rest.head?, isDecimal c = false ∧ c ≠ 'e' ∧ c ≠ 'E') :
    scanExponent (Numeral.powerText x ++ rest) = (Numeral.powerText x, rest) := by
  cases x with
  | none =>
    cases rest with
    | nil => rfl
    | cons c rest =>
      have hc := (hr c rfl).2
      simp [Numeral.powerText, scanExponent, hc]
  | some y =>
    obtain ⟨negative, ds⟩ := y
    obtain ⟨hd, hn⟩ := hx _ rfl
    have := scanDigits?_append hd hn fun c hc => (hr c hc).1
    cases negative <;> simp [Numeral.powerText, scanExponent, this]

theorem scanUnsigned?_append (hn : n.WellFormed) (hr : Ended rest) :
    scanUnsigned? (n.unsigned ++ rest) = some (n.unsigned, rest) := by
  have hp : ∀ c ∈ (Numeral.powerText n.exponent ++ rest).head?, isDecimal c = false ∧ c ≠ '.' := by
    cases n.exponent with
    | none =>
      intro c hc
      refine ⟨hr.stops (p := isDecimal) (by decide) c hc, ?_⟩
      simpa using hr.stops (p := (· == '.')) (by decide) c hc
    | some y =>
      intro c hc
      obtain rfl : 'e' = c := by simpa [Numeral.powerText] using hc
      decide
  have hw : ∀ c ∈ (Numeral.pointText n.fraction ++ (Numeral.powerText n.exponent ++ rest)).head?, isDecimal c = false := by
    cases n.fraction with
    | nil => exact fun c hc => (hp c hc).1
    | cons d ds =>
      intro c hc
      obtain rfl : '.' = c := by simpa [Numeral.pointText] using hc
      decide
  have he : ∀ c ∈ rest.head?, isDecimal c = false ∧ c ≠ 'e' ∧ c ≠ 'E' := by
    intro c hc
    refine ⟨hr.stops (p := isDecimal) (by decide) c hc, ?_⟩
    have := hr.stops (p := fun c => c == 'e' || c == 'E') (by decide) c hc
    simpa using this
  have h1 := scanDigits?_append hn.whole hn.someWhole hw
  have h2 := scanFraction_append hn.fraction hp
  have h3 := scanExponent_append hn.exponent he
  rw [Numeral.unsigned, List.append_assoc, List.append_assoc]
  simp only [scanUnsigned?, h1, Option.map_some, h2, h3, List.append_assoc]

theorem unsigned_head (hn : n.WellFormed) : ∃ c cs, n.unsigned = c :: cs ∧ c.isDigit = true := by
  cases hw : n.whole with
  | nil => exact absurd hw hn.someWhole
  | cons c cs => exact ⟨c, _, by rw [Numeral.unsigned, hw]; rfl, hn.whole c (by simp [hw])⟩

theorem scanNumber?_append (hn : n.WellFormed) (hr : Ended rest) : scanNumber? (n.text ++ rest) = some (n.text, rest) := by
  have hs := scanUnsigned?_append hn hr
  unfold Numeral.text
  cases n.negative with
  | true => simp [scanNumber?, hs]
  | false =>
    obtain ⟨c, cs, hu, hc⟩ := unsigned_head hn
    simp only [Bool.false_eq_true, if_false, List.nil_append]
    rw [hu] at hs ⊢
    unfold scanNumber?
    split
    · rename_i he
      simp only [List.cons_append, List.cons.injEq] at he
      rw [he.1] at hc
      exact absurd hc (by decide)
    · exact hs

theorem Cuts.number {P : Except Stop (List Token) → Prop} (hn : n.WellFormed) (hr : Ended rest)
    (h : Cuts rest fun r => ∀ t : Token, t.kind = .number → t.chars = n.text → P (r.map (t :: ·))) :
    Cuts (n.text ++ rest) P := by
  have hs := scanNumber?_append hn hr
  obtain ⟨c, cs, ht, hl⟩ : ∃ c cs, n.text = c :: cs ∧ LeadsOnly .number c := by
    unfold Numeral.text
    cases n.negative with
    | true => exact ⟨'-', n.unsigned, rfl, by decide⟩
    | false =>
      obtain ⟨c, cs, hu, hc⟩ := unsigned_head hn
      exact ⟨c, cs, by simpa using hu, isDigit_leads hc⟩
  rw [ht] at hs h ⊢
  exact .token (by simp [scanners]) hl hs h

/-! ## Reading -/

theorem isFloatText_digits {ds : List Char} (hd : Digits ds) : isFloatText ds = false := by
  unfold isFloatText
  rw [List.any_eq_false]
  intro c hc he
  have := hd c hc
  simp only [Bool.or_eq_true, beq_iff_eq] at he
  rcases he with (rfl | rfl) | rfl <;> exact absurd this (by decide)

theorem isFloatText_text (hf : n.IsFloat) : isFloatText n.text = true := by
  unfold isFloatText
  rw [List.any_eq_true]
  rcases hf with hf | he
  · refine ⟨'.', ?_, rfl⟩
    cases h : n.fraction with
    | nil => exact absurd h hf
    | cons d ds => simp [Numeral.text, Numeral.unsigned, h, Numeral.pointText]
  · refine ⟨'e', ?_, rfl⟩
    cases h : n.exponent with
    | none => exact absurd h he
    | some y => simp [Numeral.text, Numeral.unsigned, h, Numeral.powerText]

theorem readExponent_powerText (x : Option (Bool × List Char)) : readExponent (Numeral.powerText x) = Numeral.tens x := by
  cases x with
  | none => rfl
  | some y =>
    obtain ⟨negative, ds⟩ := y
    cases negative <;> rfl

theorem readUnsignedFloat_unsigned (hn : n.WellFormed) (negative : Bool) :
    readUnsignedFloat negative n.unsigned = .ofDecimal negative n.digits n.power := by
  have hp : ∀ c ∈ (Numeral.powerText n.exponent).head?, isDecimal c = false := by
    cases n.exponent with
    | none => simp [Numeral.powerText]
    | some y =>
      intro c hc
      obtain rfl : 'e' = c := by simpa [Numeral.powerText] using hc
      decide
  have hw : ∀ c ∈ (Numeral.pointText n.fraction ++ Numeral.powerText n.exponent).head?, isDecimal c = false := by
    cases n.fraction with
    | nil => exact hp
    | cons d ds =>
      intro c hc
      obtain rfl : '.' = c := by simpa [Numeral.pointText] using hc
      decide
  obtain ⟨ht, hd⟩ := span_append hn.whole.isDecimal hw
  have he := readExponent_powerText n.exponent
  unfold readUnsignedFloat Numeral.digits Numeral.power
  rw [Numeral.unsigned, List.append_assoc, ht, hd]
  cases hf : n.fraction with
  | nil =>
    cases hx : n.exponent with
    | none => rfl
    | some y =>
      rw [hx] at he
      rw [← he]
      rfl
  | cons d ds =>
    have hds := hn.fraction
    rw [hf] at hds
    obtain ⟨ht, hd⟩ := span_append hds.isDecimal hp
    simp only [Numeral.pointText, List.cons_append] at ht hd ⊢
    rw [ht, hd, he]

theorem readNumber_float (hn : n.WellFormed) (hf : n.IsFloat) :
    readNumber n.text = .ok (.float (.ofDecimal n.negative n.digits n.power)) := by
  rw [readNumber, if_pos (isFloatText_text hf)]
  have hr := readUnsignedFloat_unsigned hn
  unfold Numeral.text
  cases hs : n.negative with
  | true => simp [readFloat, hr]
  | false =>
    obtain ⟨c, cs, hu, hc⟩ := unsigned_head hn
    have := hr false
    simp only [Bool.false_eq_true, if_false, List.nil_append]
    rw [hu] at this ⊢
    unfold readFloat
    split
    · rename_i he
      simp only [List.cons.injEq] at he
      rw [he.1] at hc
      exact absurd hc (by decide)
    · rw [this]

end

/-! ## Integers -/

def integerNumeral (n : Int) : Numeral := ⟨n < 0, decimalDigits n.natAbs, [], none⟩

theorem integerNumeral_wellFormed (n : Int) : (integerNumeral n).WellFormed :=
  ⟨decimalDigits_digits _, decimalDigits_ne_nil _, by simp [integerNumeral, Digits], by simp [integerNumeral]⟩

theorem toString_toList (n : Int) : (toString n).toList = (integerNumeral n).text := by
  rw [integer_toList]
  simp [integerNumeral, Numeral.text, Numeral.unsigned, Numeral.pointText, Numeral.powerText]

theorem isFloatText_integer (n : Int) : isFloatText (integerNumeral n).text = false := by
  have hd := isFloatText_digits (decimalDigits_digits n.natAbs)
  unfold isFloatText at hd ⊢
  simp only [integerNumeral, Numeral.text, Numeral.unsigned, Numeral.pointText, Numeral.powerText, List.append_nil,
    List.any_append, hd, Bool.or_false]
  by_cases hn : n < 0
  · simp [hn]
  · simp [hn]

theorem readDigits_natAbs {n : Int} (h : isWritable n = true) : readDigits (decimalDigits n.natAbs) = .ok n.natAbs :=
  readDigits_eq_ok.mpr ⟨of_decide_eq_true h, (decimalNumeral_decimalDigits n.natAbs).symm⟩

theorem readNumber_integer {n : Int} (h : isWritable n = true) : readNumber (integerNumeral n).text = .ok (.int n) := by
  rw [readNumber, isFloatText_integer]
  have hv := readDigits_natAbs h
  have hw := integerNumeral_wellFormed n
  have hu : (integerNumeral n).unsigned = decimalDigits n.natAbs := by
    simp [integerNumeral, Numeral.unsigned, Numeral.pointText, Numeral.powerText]
  simp only [Bool.false_eq_true, if_false, Numeral.text, hu]
  by_cases hn : n < 0
  · have he : -Int.ofNat n.natAbs = n := by
      rw [Int.ofNat_eq_natCast]
      omega
    simp only [integerNumeral, hn, decide_true, if_true, List.cons_append, List.nil_append, readInt, hv, Except.map, he]
  · obtain ⟨c, cs, hc, hd⟩ := unsigned_head hw
    rw [hu] at hc
    simp only [integerNumeral, hn, decide_false, Bool.false_eq_true, if_false, List.nil_append]
    unfold readInt
    split
    · rename_i he
      rw [hc] at he
      simp only [List.cons.injEq] at he
      rw [he.1] at hd
      exact absurd hd (by decide)
    · have he : Int.ofNat n.natAbs = n := by
        rw [Int.ofNat_eq_natCast]
        omega
      simp only [hv, Except.map, he]

/-! ## Numbers of a clause -/

theorem readNumber_eq_ok {cs : List Char} {s : Scalar} (h : readNumber cs = .ok s) :
    s = .float (readFloat cs) ∨ ∃ n, s = .int n := by
  unfold readNumber at h
  split at h
  · cases h
    exact .inl rfl
  · obtain ⟨n, -, rfl⟩ := map_eq_ok.mp h
    exact .inr ⟨n, rfl⟩

theorem float_numeral {x : Binary64} (hf : x.isFinite = true) (hw : x.WellFormed) :
    ∃ n : Numeral, n.WellFormed ∧ x.text.toList = n.text ∧ readNumber n.text = .ok (.float x) := by
  cases x with
  | finite negative m e =>
    obtain ⟨n, hn, hp, ht, hv⟩ := Binary64.finiteText_numeral hw
    exact ⟨n, hn, ht, by rw [readNumber_float hn hp, hv]⟩
  | infinite negative => cases hf
  | nan => cases hf

theorem readFloat_text {x : Binary64} (hf : x.isFinite = true) (hw : x.WellFormed) : readFloat x.text.toList = x := by
  obtain ⟨n, -, ht, hr⟩ := float_numeral hf hw
  rw [ht]
  rcases readNumber_eq_ok hr with h | ⟨n, h⟩
  · exact (Scalar.float.inj h).symm
  · cases h

theorem readFloat_wellFormed (cs : List Char) : (readFloat cs).WellFormed ∧ readFloat cs ≠ .nan := by
  unfold readFloat
  split
  · exact Binary64.ofDecimal_wellFormed ..
  · exact Binary64.ofDecimal_wellFormed ..

end Workflow.Predicate
