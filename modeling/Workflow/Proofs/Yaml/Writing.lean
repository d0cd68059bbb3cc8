import Workflow.Proofs.Value.Json
import Workflow.Proofs.Yaml.Numbers
import Workflow.Proofs.Yaml.Scanning

/-!
# The tokens of a text of JSON

A value of JSON that is written on one line is read as the tokens of that value.
-/

namespace Workflow

open Yaml Yaml.Layout

/-! ## Values -/

/-- The values that JSON writes with characters up to U+FFFF: numbers are finite, and the keys of a mapping are different
texts. -/
inductive Value.IsBasicJson : Value → Prop
  | text {s : String} : IsBasic s.toList → IsBasicJson (.text s)
  | scalar {s : Scalar} : s.IsJson → (∀ t, s ≠ .text t) → IsBasicJson (.scalar s)
  | list {vs : List Value} : (∀ v ∈ vs, IsBasicJson v) → IsBasicJson (.list vs)
  | mapping {ms : Members} : (∀ m ∈ ms, ∃ n, m.1 = .text n ∧ IsBasic n.toList) → (ms.map Prod.fst).Nodup →
      (∀ m ∈ ms, IsBasicJson m.2) → IsBasicJson (.mapping ms)

instance (s : List Char) : Decidable (IsBasic s) := List.decidableBAll _ s

theorem Value.isBasicJson_text {s : String} : IsBasicJson (.text s) ↔ IsBasic s.toList := by
  constructor
  · intro h
    cases h with
    | text hs => exact hs
    | scalar _ ht => exact absurd rfl (ht s)
  · exact .text

theorem Value.isBasicJson_list {vs : List Value} : IsBasicJson (.list vs) ↔ ∀ v ∈ vs, IsBasicJson v := by
  constructor
  · intro h
    cases h with
    | list hvs => exact hvs
  · exact .list

theorem Value.isBasicJson_mapping {ms : Members} : IsBasicJson (.mapping ms) ↔
    (∀ m ∈ ms, ∃ n, m.1 = .text n ∧ IsBasic n.toList) ∧ (ms.map Prod.fst).Nodup ∧ ∀ m ∈ ms, IsBasicJson m.2 := by
  constructor
  · intro h
    cases h with
    | mapping hk hn hms => exact ⟨hk, hn, hms⟩
  · rintro ⟨hk, hn, hms⟩
    exact .mapping hk hn hms

def Scalar.token : Scalar → Token
  | text s => .scalar s false
  | s => .scalar s.json true

theorem Scalar.token_eq {s : Scalar} (h : ∀ t, s ≠ .text t) : s.token = .scalar s.json true := by
  cases s with
  | text t => exact absurd rfl (h t)
  | _ => rfl

def entryMark (first : Bool) : List Token := if first then [] else [.flowEntry]

mutual

def Value.tokens : Value → List Token
  | .scalar s => [s.token]
  | .list vs => .flowSequence :: itemTokens true vs
  | .mapping ms => .flowMapping :: memberTokens true ms
  | _ => []

def itemTokens : Bool → List Value → List Token
  | _, [] => [.flowSequenceEnd]
  | first, v :: vs => entryMark first ++ (v.tokens ++ itemTokens false vs)

def memberTokens : Bool → Members → List Token
  | _, [] => [.flowMappingEnd]
  | first, (k, v) :: ms => entryMark first ++ (nameTokens k.plainText ++ (v.tokens ++ memberTokens false ms))

end

/-! ## Texts -/

def entryText (first : Bool) : List Char := if first then [] else [',', ' ']

def behindBracket (close : String) : Bool → List String → List Char
  | _, [] => close.toList
  | first, s :: ss => entryText first ++ (s.toList ++ behindBracket close false ss)

theorem joinWith_toList (separator s : String) (ss : List String) :
    (joinWith separator (s :: ss)).toList = s.toList ++ ss.flatMap fun t => separator.toList ++ t.toList := by
  induction ss generalizing s with
  | nil => simp [joinWith]
  | cons t ss ih =>
    rw [joinWith_cons_cons, ih, List.flatMap_cons, List.append_assoc, List.append_assoc]

theorem enclose_line (level : Nat) (left right : String) (ss : List String) :
    (JsonStyle.line.enclose level left right ss).toList = left.toList ++ behindBracket right true ss := by
  have hbehind (ss : List String) :
      behindBracket right false ss = (ss.flatMap fun t => ", ".toList ++ t.toList) ++ right.toList := by
    induction ss with
    | nil => rfl
    | cons t ss ih => simp [behindBracket, entryText, ih]
  cases ss with
  | nil => simp [JsonStyle.enclose, behindBracket]
  | cons s ss =>
    have hjoin := joinWith_toList ", " s ss
    simp [JsonStyle.enclose, JsonStyle.line, JsonStyle.newline, behindBracket, entryText, hbehind, hjoin]

/-! ## Words -/

theorem Numeral.WellFormed.isWord {n : Numeral} (h : n.WellFormed) : IsWord n.text := by
  obtain ⟨d, ds, hd, hdigit⟩ := Predicate.unsigned_head h
  have halpha : d.isAlphanum = true := by simp [Char.isAlphanum, hdigit]
  have hds : ∀ e ∈ ds, isWordChar e = true := by
    intro e he
    exact (isNumeralChar_spec (h.chars e (hd ▸ List.mem_cons_of_mem d he))).word
  rw [Numeral.text, hd]
  split
  · exact .minus halpha hds
  · exact .word halpha hds

theorem isWord_integer (n : Int) : IsWord (toString n).toList := by
  rw [Predicate.toString_toList]
  exact (Predicate.integerNumeral_wellFormed n).isWord

theorem isWord_float {x : Binary64} (hf : x.isFinite = true) (hw : x.WellFormed) : IsWord (jsonNumber x).toList := by
  obtain ⟨n, hn, ht, -⟩ := Predicate.float_numeral hf hw
  cases x with
  | finite negative m e =>
    have hj : jsonNumber (.finite negative m e) = (Binary64.finite negative m e).text := rfl
    rw [hj, ht]
    exact hn.isWord
  | infinite => cases hf
  | nan => cases hf

theorem Scalar.IsJson.isWord {s : Scalar} (h : s.IsJson) (ht : ∀ t, s ≠ .text t) : IsWord s.json.toList := by
  cases s with
  | null => exact .word (by decide) (List.all_eq_true.mp (by decide))
  | bool b =>
    cases b
    all_goals exact .word (by decide) (List.all_eq_true.mp (by decide))
  | int n => exact isWord_integer n
  | float x => exact isWord_float h.1 h.2
  | text t => exact absurd rfl (ht t)
  | date => cases h
  | dateTime => cases h
  | bytes => cases h

/-! ## Scanning -/

/-- The text of a value at any level is read as its tokens. -/
def Value.Scanned (v : Value) : Prop :=
  ∀ {more : List Char} {depth : Nat} {ts : List Token} (level : Nat) (allowed : Bool), Ends (depth != 0) more →
    Scans more depth false ts → Scans ((v.jsonAt .line level).toList ++ more) depth allowed (v.tokens ++ ts)

section
variable {more : List Char} {depth : Nat} {ts : List Token}

theorem ends_behindBracket {d : Char} {close : String} (hc : close.toList = [d]) (hd : isEnd d = true) (ss : List String)
    (more : List Char) (depth : Nat) : Ends (depth + 1 != 0) (behindBracket close false ss ++ more) := by
  refine .inr ⟨rfl, ?_⟩
  cases ss with
  | nil => exact ⟨d, more, by simp [behindBracket, hc], hd⟩
  | cons s ss => exact ⟨',', _, rfl, rfl⟩

theorem scans_entry {first allowed : Bool} (ha : first = true → allowed = true) (h : Scans more depth true ts) :
    Scans (entryText first ++ more) depth allowed (entryMark first ++ ts) := by
  cases first with
  | true =>
    rw [ha rfl]
    exact h
  | false => exact .comma (.space h)

theorem scans_items {vs : List Value} (hvs : ∀ v ∈ vs, v.Scanned) (h : Scans more depth false ts) (level : Nat)
    {first allowed : Bool} (ha : first = true → allowed = true) :
    Scans (behindBracket "]" first (Value.jsonItems .line level vs) ++ more) (depth + 1) allowed
      (itemTokens first vs ++ ts) := by
  induction vs generalizing first allowed with
  | nil => exact .closes (by decide) h
  | cons v vs ih =>
    obtain ⟨hv, hvs⟩ := List.forall_mem_cons.mp hvs
    have hclose : ("]").toList = [']'] := rfl
    have hends := ends_behindBracket hclose (by decide) (Value.jsonItems .line level vs) more depth
    have hothers : Scans (behindBracket "]" false (Value.jsonItems .line level vs) ++ more) (depth + 1) false
        (itemTokens false vs ++ ts) := ih hvs (by simp)
    have hitem := hv level true hends hothers
    simp only [Value.jsonItems, behindBracket, itemTokens, List.append_assoc]
    exact scans_entry ha hitem

theorem scans_members {ms : Members} (hk : ∀ m ∈ ms, ∃ n, m.1 = .text n ∧ IsBasic n.toList)
    (hms : ∀ m ∈ ms, m.2.Scanned) (h : Scans more depth false ts) (level : Nat) {first allowed : Bool}
    (ha : first = true → allowed = true) :
    Scans (behindBracket "\x7d" first ((Value.jsonMembers .line level ms).map Prod.snd) ++ more) (depth + 1) allowed
      (memberTokens first ms ++ ts) := by
  induction ms generalizing first allowed with
  | nil => exact .closes (by decide) h
  | cons m ms ih =>
    obtain ⟨k, v⟩ := m
    obtain ⟨⟨n, hn, hb⟩, hks⟩ := List.forall_mem_cons.mp hk
    obtain ⟨hv, hvs⟩ := List.forall_mem_cons.mp hms
    obtain rfl : k = .text n := hn
    have hclose : ("\x7d").toList = ['\x7d'] := rfl
    have hends := ends_behindBracket hclose (by decide) ((Value.jsonMembers .line level ms).map Prod.snd) more depth
    have hothers : Scans (behindBracket "\x7d" false ((Value.jsonMembers .line level ms).map Prod.snd) ++ more) (depth + 1)
        false (memberTokens false ms ++ ts) := ih hks hvs (by simp)
    have hvalue := hv level false hends hothers
    have hmember := Scans.name hb hvalue.space
    have hcolon : (": ").toList = [':', ' '] := rfl
    have hkey : (Scalar.text n).jsonKey = n := rfl
    simp only [Value.jsonMembers, List.map_cons, behindBracket, memberTokens, List.append_assoc, String.toList_append,
      hcolon, hkey, List.cons_append, List.nil_append]
    exact scans_entry ha hmember

end

theorem Value.IsBasicJson.scanned {v : Value} (h : v.IsBasicJson) : v.Scanned := by
  induction h with
  | text hs =>
    intro more depth ts level allowed he hts
    exact .quote hs hts
  | @scalar s hs ht =>
    intro more depth ts level allowed he hts
    have hword := hs.isWord ht
    have hscan : Scans (s.json.toList ++ more) depth allowed (.scalar (String.ofList s.json.toList) true :: ts) :=
      .word hword he hts
    rw [String.ofList_toList] at hscan
    rw [Value.jsonAt, Value.tokens, Scalar.token_eq ht]
    exact hscan
  | list _ ih =>
    intro more depth ts level allowed he hts
    have hitems : Scans (behindBracket "]" true (jsonItems .line (level + 1) _) ++ more) (depth + 1) true
        (itemTokens true _ ++ ts) := scans_items ih hts (level + 1) (by simp)
    rw [Value.jsonAt, enclose_line, Value.tokens, List.append_assoc]
    exact .opens (by decide) hitems
  | mapping hk _ _ ih =>
    intro more depth ts level allowed he hts
    have hmembers : Scans (behindBracket "\x7d" true ((jsonMembers .line (level + 1) _).map Prod.snd) ++ more) (depth + 1)
        true (memberTokens true _ ++ ts) := scans_members hk ih hts (level + 1) (by simp)
    rw [Value.jsonAt, enclose_line, Value.tokens, List.append_assoc]
    exact .opens (by decide) hmembers

/-! ## Whole texts -/

theorem jsonText_printed {s : String} (h : IsBasic s.toList) : Printed (jsonText s).toList := by
  have hquote : Printed [doubleQuote] := by simp [Printed]; decide
  rw [Lex.jsonText_toList]
  exact hquote.append ((jsonChars_printed h).append hquote)

theorem printed_behindBracket {close : String} (hc : Printed close.toList) {ss : List String}
    (hs : ∀ s ∈ ss, Printed s.toList) (first : Bool) : Printed (behindBracket close first ss) := by
  induction ss generalizing first with
  | nil => exact hc
  | cons s ss ih =>
    obtain ⟨hs, hss⟩ := List.forall_mem_cons.mp hs
    have hentry : Printed (entryText first) := by
      cases first
      all_goals
        simp [Printed, entryText]
        try decide
    exact hentry.append (hs.append (ih hss false))

theorem Value.jsonItems_eq (style : JsonStyle) (level : Nat) (vs : List Value) :
    jsonItems style level vs = vs.map (jsonAt style level) := by
  induction vs with
  | nil => rfl
  | cons v vs ih => rw [jsonItems, ih, List.map_cons]

theorem Value.jsonMembers_eq (style : JsonStyle) (level : Nat) (ms : Members) :
    jsonMembers style level ms = ms.map fun m => (m.1, jsonText m.1.jsonKey ++ ": " ++ jsonAt style level m.2) := by
  induction ms with
  | nil => rfl
  | cons m ms ih => rw [jsonMembers, ih, List.map_cons]

theorem Value.IsBasicJson.printed {v : Value} (h : v.IsBasicJson) (level : Nat) :
    Printed (v.jsonAt .line level).toList := by
  induction h generalizing level with
  | text hs => exact jsonText_printed hs
  | scalar hs ht => exact (hs.isWord ht).printed
  | @list vs _ ih =>
    have hitems : ∀ s ∈ jsonItems .line (level + 1) vs, Printed s.toList := by
      intro s hs
      rw [jsonItems_eq] at hs
      obtain ⟨v, hv, rfl⟩ := List.mem_map.mp hs
      exact ih v hv (level + 1)
    rw [jsonAt, enclose_line]
    exact Yaml.Printed.append (by decide) (printed_behindBracket (by decide) hitems true)
  | @mapping ms hk _ _ ih =>
    have hmembers : ∀ s ∈ (jsonMembers .line (level + 1) ms).map Prod.snd, Printed s.toList := by
      intro s hs
      rw [jsonMembers_eq, List.map_map] at hs
      obtain ⟨m, hm, rfl⟩ := List.mem_map.mp hs
      obtain ⟨n, hn, he⟩ := hk m hm
      have hkey : m.1.jsonKey = n := by rw [hn]; rfl
      have hcolon : Printed (": ").toList := by decide
      simp only [Function.comp_apply, String.toList_append, hkey]
      exact ((jsonText_printed he).append hcolon).append (ih m hm (level + 1))
    rw [jsonAt, enclose_line]
    exact Yaml.Printed.append (by decide) (printed_behindBracket (by decide) hmembers true)

theorem tokens?_json {v : Value} (h : v.IsBasicJson) : tokens? (v.json .line).toList = some (v.tokens ++ [.streamEnd]) := by
  have hprinted := h.printed 0
  have hall : (v.json .line).toList.all isDocumentChar = true := by
    rw [List.all_eq_true]
    intro d hd
    exact (hprinted d hd).documentChar
  have hmark : (v.json .line).toList.head? ≠ some byteOrderMark := by
    intro he
    have hm := hprinted byteOrderMark (List.mem_of_mem_head? he)
    revert hm
    decide
  have hscan := h.scanned 0 true (.inl rfl) (scans_nil false)
  rw [List.append_nil] at hscan
  have hrun := hscan (.start (v.json .line).toList) 0 _ ⟨rfl, rfl, by simp [start], rfl⟩ rfl rfl rfl (Nat.le_refl _)
  rw [tokens?, if_pos hall, if_neg hmark]
  exact hrun

end Workflow
