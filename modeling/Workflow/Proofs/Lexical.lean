import Workflow.Proofs.Shape.Stable
import Workflow.Proofs.Shape.Trails

/-!
# How names and durations are spelled

The names of tables, columns and actors and the durations of delays and timeouts are accepted as they are spelled in full,
by grammars that are said apart from the tests. A line feed behind them goes unnoticed.
-/

namespace Workflow

open OutputType (faultsOf)

/-! ## Grammars -/

def AsciiLetter (c : Char) : Prop := 'a' ≤ c ∧ c ≤ 'z' ∨ 'A' ≤ c ∧ c ≤ 'Z'

def AsciiDigit (c : Char) : Prop := '0' ≤ c ∧ c ≤ '9'

instance : DecidablePred AsciiLetter := fun _ => inferInstanceAs (Decidable (_ ∨ _))

instance : DecidablePred AsciiDigit := fun _ => inferInstanceAs (Decidable (_ ∧ _))

/-- A letter or underscore, followed by letters, digits and underscores. -/
def IsPlainName (cs : List Char) : Prop :=
  ∃ c rest, cs = c :: rest ∧ (AsciiLetter c ∨ c = '_') ∧ ∀ d ∈ rest, AsciiLetter d ∨ AsciiDigit d ∨ d = '_'

/-- Decimal digits, followed by a unit of time. -/
def IsTimeSpan (cs : List Char) : Prop :=
  ∃ ds unit, cs = ds ++ unit ∧ ds ≠ [] ∧ (∀ d ∈ ds, isDecimal d = true) ∧
    unit ∈ [['m', 's'], ['s'], ['m'], ['h'], ['d']]

theorem isIdentifierStart_iff {c : Char} : isIdentifierStart c = true ↔ AsciiLetter c ∨ c = '_' := by
  have halpha : c.isAlpha = (decide ('A' ≤ c ∧ c ≤ 'Z') || decide ('a' ≤ c) && decide (c ≤ 'z')) := rfl
  simp only [isIdentifierStart, halpha, Bool.or_eq_true, Bool.and_eq_true, decide_eq_true_eq, beq_iff_eq]
  exact or_congr_left or_comm

theorem isDigit_iff {c : Char} : c.isDigit = true ↔ AsciiDigit c := by
  simp only [Char.isDigit, Bool.and_eq_true, decide_eq_true_eq]
  rfl

theorem isIdentifierChars_iff {cs : List Char} : isIdentifierChars cs = true ↔ IsPlainName cs := by
  cases cs with
  | nil => simp [isIdentifierChars, IsPlainName]
  | cons c rest =>
    have hrest (d : Char) : (isIdentifierStart d || d.isDigit) = true ↔ AsciiLetter d ∨ AsciiDigit d ∨ d = '_' := by
      rw [Bool.or_eq_true, isIdentifierStart_iff, isDigit_iff]
      tauto
    simp only [isIdentifierChars, Bool.and_eq_true, List.all_eq_true, hrest, isIdentifierStart_iff]
    constructor
    · rintro ⟨hc, hd⟩
      exact ⟨c, rest, rfl, hc, hd⟩
    · rintro ⟨_, _, he, hc, hd⟩
      cases he
      exact ⟨hc, hd⟩

theorem splitDigits_unit {unit : List Char} (h : unit ∈ durationUnits) :
    unit.takeWhile isDecimal = [] ∧ unit.dropWhile isDecimal = unit := by
  revert unit
  decide

theorem isDurationChars_iff {cs : List Char} : isDurationChars cs = true ↔ IsTimeSpan cs := by
  simp only [isDurationChars, Bool.and_eq_true, Bool.not_eq_true', List.isEmpty_eq_false_iff, List.contains_iff_mem]
  constructor
  · rintro ⟨hdigits, hunit⟩
    exact ⟨_, _, List.takeWhile_append_dropWhile.symm, hdigits, List.all_eq_true.mp List.all_takeWhile, hunit⟩
  · rintro ⟨ds, unit, rfl, hne, hdigits, hunit⟩
    obtain ⟨htake, hdrop⟩ := splitDigits_unit hunit
    rw [List.takeWhile_append_of_pos hdigits, List.dropWhile_append_of_pos hdigits, htake, hdrop, List.append_nil]
    exact ⟨hne, hunit⟩

/-! ## Line feeds -/

/-- A text with a spelling, or such a text with a line feed behind it. -/
def UpToLineFeed (spelled : List Char → Prop) (s : String) : Prop :=
  spelled s.toList ∨ ∃ cs, s.toList = cs ++ ['\n'] ∧ spelled cs

theorem dropLineEnd_append (cs : List Char) : dropLineEnd (cs ++ ['\n']) = cs := by
  simp [dropLineEnd]

theorem upToLineFeed_iff {spelled : List Char → Prop} (hline : ∀ cs, ¬ spelled (cs ++ ['\n'])) {s : String} :
    UpToLineFeed spelled s ↔ spelled (dropLineEnd s.toList) := by
  by_cases hlast : s.toList.getLast? = some '\n'
  · obtain ⟨cs, hcs⟩ := List.getLast?_eq_some_iff.mp hlast
    rw [UpToLineFeed, hcs, dropLineEnd_append]
    constructor
    · rintro (h | ⟨ds, hds, h⟩)
      · exact absurd h (hline cs)
      · rwa [(List.append_inj' hds rfl).1]
    · exact fun h => .inr ⟨cs, rfl, h⟩
  · rw [UpToLineFeed, dropLineEnd, if_neg hlast]
    constructor
    · rintro (h | ⟨ds, hds, h⟩)
      · exact h
      · exact absurd (by simp [hds]) hlast
    · exact .inl

theorem not_isPlainName_line (cs : List Char) : ¬ IsPlainName (cs ++ ['\n']) := by
  rintro ⟨c, rest, he, hc, hrest⟩
  have hline : '\n' ∈ c :: rest := he ▸ by simp
  rcases List.mem_cons.mp hline with rfl | h
  · exact absurd hc (by decide)
  · exact absurd (hrest _ h) (by decide)

theorem getLast?_unit {unit : List Char} (h : unit ∈ durationUnits) : unit ≠ [] ∧ unit.getLast? ≠ some '\n' := by
  revert unit
  decide

theorem not_isTimeSpan_line (cs : List Char) : ¬ IsTimeSpan (cs ++ ['\n']) := by
  rintro ⟨ds, unit, he, -, -, hunit⟩
  obtain ⟨hne, hlast⟩ := getLast?_unit hunit
  have hends : unit.getLast? = (cs ++ ['\n']).getLast? := by rw [he, List.getLast?_append_of_ne_nil _ hne]
  exact hlast (hends.trans List.getLast?_concat)

theorem isIdentifier_iff {s : String} : isIdentifier s = true ↔ UpToLineFeed IsPlainName s :=
  isIdentifierChars_iff.trans (upToLineFeed_iff not_isPlainName_line).symm

theorem isDuration_iff {s : String} : isDuration s = true ↔ UpToLineFeed IsTimeSpan s :=
  isDurationChars_iff.trans (upToLineFeed_iff not_isTimeSpan_line).symm

example : (["leads", "_1", "1leads", "né", "a b", ""].map isIdentifier, ["30s", "5ms", "٣h", "5", "5 m", "m"].map isDuration) =
    ([true, true, false, false, false, false], [true, true, true, false, false, false]) := by decide

/-! ## What is reported of a member -/

/-- The faults of the member with a key. A key that is no text is at fault itself. -/
def faultsAbout {α : Type} (key : String) (r : ShapeResult α) : List ShapeFault :=
  (faultsOf r).filter fun f => f.location.head? == some (.key key) && f.cause != .key

section
variable {α β ρ : Type} {key : String} {ms : Members} {s : Shape α}

@[simp] theorem faultsAbout_ok (a : α) : faultsAbout key (.ok a : ShapeResult α) = [] := rfl

@[simp] theorem faultsAbout_map (f : α → β) (r : ShapeResult α) : faultsAbout key (Except.map f r) = faultsAbout key r := by
  rw [faultsAbout, faultsOf_map]
  rfl

@[simp] theorem faultsAbout_apply (f : ShapeResult (α → β)) (r : ShapeResult α) :
    faultsAbout key (f.apply r) = faultsAbout key f ++ faultsAbout key r := by
  rw [faultsAbout, faultsOf_apply, List.filter_append]
  rfl

theorem faultsAbout_under_of_ne {k : String} (h : k ≠ key) (r : ShapeResult α) : faultsAbout key (r.under (.key k)) = [] := by
  simp [faultsAbout, ShapeFault.under, h]

theorem faultsAbout_readMember_of_ne {k : String} (h : k ≠ key) (fallback : Option α) :
    faultsAbout key (Fields.readMember [k] s fallback ms) = [] := by
  unfold Fields.readMember
  split
  · rename_i k' hk
    have hk' : k' = k := by simpa using List.mem_of_find?_eq_some hk
    split
    · exact faultsAbout_under_of_ne (hk' ▸ h) _
    · simp [faultsAbout]
  · cases fallback with
    | none => exact faultsAbout_under_of_ne h _
    | some a => rfl

theorem readMember_of_get? {v : Value} (h : ms.get? key = some v) (fallback : Option α) :
    Fields.readMember [key] s fallback ms = (s.read v).under (.key key) := by
  simp [Fields.readMember, Fields.spelling?, h]

theorem not_about_of_mem_strangers {keys : List (List String)} {v : Value} (hkey : [key] ∈ keys) (h : ms.get? key = some v)
    {f : ShapeFault} (hf : f ∈ Fields.strangers keys ms) :
    (f.location.head? == some (.key key) && f.cause != .key) = false := by
  have hknown : key ∈ keys.filterMap (Fields.spelling? ms) :=
    List.mem_filterMap.mpr ⟨[key], hkey, by simp [Fields.spelling?, h]⟩
  obtain ⟨m, -, hm⟩ := List.mem_filterMap.mp hf
  split at hm
  · rename_i k _
    split at hm
    · cases hm
    · rename_i hstranger
      cases hm
      have hne : k ≠ key := by
        rintro rfl
        exact hstranger (List.contains_iff_mem.mpr hknown)
      simp [hne]
  · cases hm
    simp

theorem faultsAbout_readNode {fs : Fields α α} {v : Value} (hkey : [key] ∈ fs.keys) (h : ms.get? key = some v) :
    faultsAbout key (Shape.readNode fs ms) = faultsAbout key (fs.read ms) := by
  have hstrangers : (Fields.strangers fs.keys ms).filter
      (fun f => f.location.head? == some (.key key) && f.cause != .key) = [] :=
    List.filter_eq_nil_iff.mpr fun f hf => by rw [not_about_of_mem_strangers hkey h hf]; exact Bool.false_ne_true
  rw [Shape.readNode, faultsAbout_apply, faultsAbout_map]
  split
  · exact List.append_nil _
  · rw [faultsAbout, faultsAbout, faultsOf_error, hstrangers, List.append_nil]

end

namespace Fields

section
variable {ρ α β : Type} {fs : Fields ρ (α → β)} {s : Shape α} {get : ρ → α} {key k : String} {otherwise : α} {ms : Members}

@[simp] theorem read_of {a : α} : (Fields.of a : Fields ρ α).read ms = .ok a := rfl

theorem read_field {b : β} : (fs.field k s get).read ms = .ok b ↔
    ∃ f a, fs.read ms = .ok f ∧ readMember [k] s none ms = .ok a ∧ f a = b := apply_eq_ok

theorem read_fieldOr {b : β} : (fs.fieldOr k s otherwise get).read ms = .ok b ↔
    ∃ f a, fs.read ms = .ok f ∧ readMember [k] s (some otherwise) ms = .ok a ∧ f a = b := apply_eq_ok

@[simp] theorem faultsAbout_field : faultsAbout key ((fs.field k s get).read ms) =
    faultsAbout key (fs.read ms) ++ faultsAbout key (readMember [k] s none ms) := faultsAbout_apply _ _

@[simp] theorem faultsAbout_fieldOr : faultsAbout key ((fs.fieldOr k s otherwise get).read ms) =
    faultsAbout key (fs.read ms) ++ faultsAbout key (readMember [k] s (some otherwise) ms) := faultsAbout_apply _ _

end

end Fields

/-- What a node makes of a text that one of its members holds: nothing is wrong with it if it has a spelling, and otherwise
it breaks a rule. If the node is accepted, so is the text, as it is. -/
structure Shape.Spells {α : Type} (s : Shape α) (key v : String) (spelled : Prop) (breach : Breach)
    (get : α → Option String) : Prop where
  accepts {ms : Members} : ms.get? key = some (.text v) → spelled → faultsAbout key (s.read (.mapping ms)) = []
  refuses {ms : Members} : ms.get? key = some (.text v) → ¬ spelled →
    faultsAbout key (s.read (.mapping ms)) = [⟨[.key key], .breach breach⟩]
  keeps {ms : Members} {a : α} : ms.get? key = some (.text v) → s.read (.mapping ms) = .ok a → get a = some v

namespace Shape

open Fields (read_of read_field read_fieldOr)

section
variable {α σ : Type} {fs : Fields α α} {s : Shape σ} {name key v : String} {kept : σ} {test : Bool} {spelled : Prop}
  {breach : Breach} {get : α → Option String}

theorem Spells.node (fallback : Option σ) (htest : test = true ↔ spelled)
    (hread : s.read (.text v) = if test then .ok kept else refuse (.breach breach)) (hkey : [key] ∈ fs.keys)
    (hfaults : ∀ ms, faultsAbout key (fs.read ms) = faultsAbout key (Fields.readMember [key] s fallback ms))
    (hkeeps : ∀ ms a, fs.read ms = .ok a → Fields.readMember [key] s fallback ms = .ok kept → get a = some v) :
    (Shape.node name fs).Spells key v spelled breach get where
  accepts {ms} h hv := by
    change faultsAbout key (readNode fs ms) = _
    rw [faultsAbout_readNode hkey h, hfaults, readMember_of_get? h, hread, if_pos (htest.mpr hv)]
    rfl
  refuses {ms} h hv := by
    change faultsAbout key (readNode fs ms) = _
    rw [faultsAbout_readNode hkey h, hfaults, readMember_of_get? h, hread, if_neg (mt htest.mp hv)]
    simp [faultsAbout, ShapeFault.under]
  keeps {ms a} h ha := by
    change readNode fs ms = .ok a at ha
    have hread' : fs.read ms = .ok a := by
      obtain ⟨_, _, hmap, -, rfl⟩ := apply_eq_ok.mp ha
      obtain ⟨_, hfs, rfl⟩ := map_eq_ok.mp hmap
      exact hfs
    have hmember := hfaults ms
    rw [hread', readMember_of_get? h, hread] at hmember
    cases hv : test with
    | true => exact hkeeps ms a hread' (by rw [readMember_of_get? h, hread, hv]; rfl)
    | false => simp [hv, faultsAbout, ShapeFault.under] at hmember

end

theorem read_identifier (what v : String) :
    (identifier what).read (.text v) = if isIdentifier v then .ok v else refuse (.breach (.identifier what v)) := by
  simp only [identifier, checked, filtered, text]
  cases isIdentifier v <;> rfl

theorem read_durationOrNull (what v : String) :
    (durationOrNull what).read (.text v) = if isDuration v then .ok (some v) else refuse (.breach (.duration what v)) := by
  cases h : isDuration v <;> simp [durationOrNull, checked, filtered, nullable, text, Except.map, h]

section
variable (v : String)

/-! ## Names -/

theorem spells_table :
    table.Spells "name" v (UpToLineFeed IsPlainName v) (.identifier "table name" v) fun t => some t.name := by
  refine .node none isIdentifier_iff (read_identifier "table name" v) (by decide) (fun ms => ?_) fun ms t ht hv => ?_
  · simp [faultsAbout_readMember_of_ne]
  · simp only [read_field, read_fieldOr, read_of, hv, Except.ok.injEq] at ht
    obtain ⟨_, _, ⟨_, _, ⟨_, _, rfl, rfl, rfl⟩, -, rfl⟩, -, rfl⟩ := ht
    rfl

theorem spells_column :
    column.Spells "name" v (UpToLineFeed IsPlainName v) (.identifier "column name" v) fun c => some c.name := by
  refine .node none isIdentifier_iff (read_identifier "column name" v) (by decide) (fun ms => ?_) fun ms c hc hv => ?_
  · simp [faultsAbout_readMember_of_ne]
  · simp only [read_field, read_fieldOr, read_of, hv, Except.ok.injEq] at hc
    obtain ⟨_, _, ⟨_, _, ⟨_, _, ⟨_, _, ⟨_, _, rfl, rfl, rfl⟩, -, rfl⟩, -, rfl⟩, -, rfl⟩, -, rfl⟩ := hc
    rfl

theorem spells_actor :
    actor.Spells "name" v (UpToLineFeed IsPlainName v) (.identifier "actor name" v) fun a => some a.name := by
  refine .node none isIdentifier_iff (read_identifier "actor name" v) (by decide) (fun ms => ?_) fun ms a ha hv => ?_
  · simp [faultsAbout_readMember_of_ne]
  · simp only [read_field, read_fieldOr, read_of, hv, Except.ok.injEq] at ha
    obtain ⟨_, _, ⟨_, _, ⟨_, _, rfl, rfl, rfl⟩, -, rfl⟩, -, rfl⟩ := ha
    rfl

/-! ## Durations -/

theorem spells_emitSpec :
    emitSpec.Spells "delay" v (UpToLineFeed IsTimeSpan v) (.duration "delay" v) fun e => e.delay := by
  refine .node (some none) isDuration_iff (read_durationOrNull "delay" v) (by decide) (fun ms => ?_) fun ms e he hv => ?_
  · simp [faultsAbout_readMember_of_ne]
  · simp only [read_field, read_fieldOr, read_of, hv, Except.ok.injEq] at he
    obtain ⟨_, _, ⟨_, _, ⟨_, _, rfl, -, rfl⟩, -, rfl⟩, rfl, rfl⟩ := he
    rfl

theorem spells_fanInTrigger :
    fanInTrigger.Spells "timeout" v (UpToLineFeed IsTimeSpan v) (.duration "timeout" v) fun t => t.timeout := by
  refine .node (some none) isDuration_iff (read_durationOrNull "timeout" v) (by decide) (fun ms => ?_) fun ms t ht hv => ?_
  · simp [faultsAbout_readMember_of_ne]
  · simp only [read_field, read_fieldOr, read_of, hv, Except.ok.injEq] at ht
    obtain ⟨_, _, ⟨_, _, ⟨_, _, ⟨_, _, rfl, -, rfl⟩, -, rfl⟩, -, rfl⟩, rfl, rfl⟩ := ht
    rfl

end

/-- Names and durations are accepted by their grammars, but for a line feed behind them, and as they are. -/
theorem spells_lexical (v : String) :
    table.Spells "name" v (UpToLineFeed IsPlainName v) (.identifier "table name" v) (fun t => some t.name) ∧
    column.Spells "name" v (UpToLineFeed IsPlainName v) (.identifier "column name" v) (fun c => some c.name) ∧
    actor.Spells "name" v (UpToLineFeed IsPlainName v) (.identifier "actor name" v) (fun a => some a.name) ∧
    emitSpec.Spells "delay" v (UpToLineFeed IsTimeSpan v) (.duration "delay" v) (fun e => e.delay) ∧
    fanInTrigger.Spells "timeout" v (UpToLineFeed IsTimeSpan v) (.duration "timeout" v) (fun t => t.timeout) :=
  ⟨spells_table v, spells_column v, spells_actor v, spells_emitSpec v, spells_fanInTrigger v⟩

/-- A table whose name has a line feed behind it is accepted, and so is such a delay. -/
theorem read_lineFeed :
    (∃ t, table.read (.mapping [(.text "name", .text "leads\n"), (.text "access", .list [.mapping [
        (.text "actor", .text "a"), (.text "operations", .list [.text "ALL"]), (.text "condition", .text "true")]])]) = .ok t ∧
      t.name = "leads\n" ∧ ¬ IsPlainName t.name.toList) ∧
    ∃ e, emitSpec.read (.mapping [(.text "event", .text "e"), (.text "delay", .text "5m\n")]) = .ok e ∧
      e.delay = some "5m\n" ∧ ¬ IsTimeSpan "5m\n".toList := by
  refine ⟨⟨⟨"leads\n", none, [⟨"a", [.all], "true"⟩]⟩, by decide +kernel, rfl, ?_⟩, ⟨"e", none, some "5m\n"⟩, by rfl, rfl, ?_⟩
  · exact not_isPlainName_line ['l', 'e', 'a', 'd', 's']
  · exact not_isTimeSpan_line ['5', 'm']

end Shape

end Workflow
