import Workflow.Proofs.Breakdown
import Workflow.Proofs.Index
import Workflow.Proofs.Value.Canonical
import Workflow.Shape

/-!
# What shapes read and write

A shape that refuses a value says why, and what it reads can be written as JSON. Both are shown along the combinators
that shapes are made of.
-/

namespace Workflow

/-! ## Results -/

def ShapeResult.Meets {α : Type} (r : ShapeResult α) (P : α → Prop) : Prop :=
  r ≠ .error [] ∧ ∀ a, r = .ok a → P a

section
variable {α β : Type} {P : α → Prop} {Q : β → Prop} {r : ShapeResult α}

theorem meets_ok {a : α} (h : P a) : ShapeResult.Meets (.ok a) P :=
  ⟨nofun, fun _ he => Except.ok.inj he ▸ h⟩

theorem meets_error {fs : List ShapeFault} (h : fs ≠ []) : ShapeResult.Meets (.error fs) P :=
  ⟨fun he => h (Except.error.inj he), nofun⟩

theorem meets_refuse {c : ShapeCause} : ShapeResult.Meets (refuse c) P := meets_error (by simp)

theorem meets_accept {c : ShapeCause} {o : Option α} (h : ∀ a, o = some a → P a) : (accept c o).Meets P := by
  cases o with
  | none => exact meets_refuse
  | some a => exact meets_ok (h a rfl)

namespace ShapeResult.Meets

theorem ne_nil {fs : List ShapeFault} (h : Meets r P) (he : r = .error fs) : fs ≠ [] := by
  rintro rfl
  exact h.1 he

theorem mono {P' : α → Prop} (h : r.Meets P) (hp : ∀ a, P a → P' a) : r.Meets P' :=
  ⟨h.1, fun a ha => hp a (h.2 a ha)⟩

theorem map {f : α → β} (h : r.Meets fun a => Q (f a)) : Meets (Except.map f r) Q := by
  cases r with
  | ok a => exact meets_ok (h.2 a rfl)
  | error fs => exact meets_error (h.ne_nil rfl)

theorem under {s : PathStep} (h : r.Meets P) : (r.under s).Meets P := by
  cases r with
  | ok a => exact meets_ok (h.2 a rfl)
  | error fs => exact meets_error (by simpa using h.ne_nil rfl)

theorem apply {f : ShapeResult (α → β)} (hf : f.Meets fun f => ∀ a, P a → Q (f a)) (hr : r.Meets P) :
    (f.apply r).Meets Q := by
  cases f with
  | ok f =>
    cases r with
    | ok a => exact meets_ok (hf.2 f rfl a (hr.2 a rfl))
    | error fs => exact meets_error (hr.ne_nil rfl)
  | error gs =>
    cases r with
    | ok a => exact meets_error (hf.ne_nil rfl)
    | error fs => exact meets_error (by simp [hf.ne_nil rfl])

end ShapeResult.Meets

end

/-! ## Shapes -/

/-- What a shape reads has a property, and what has it can be written; `ints` are the integers in what is written. -/
structure Shape.Sound {α : Type} (s : Shape α) (P : α → Prop) (ints : α → List Int) : Prop where
  read : ∀ v, (s.read v).Meets P
  written : ∀ a, P a → (s.write a).Writes (ints a)

class Shape.Plain {α : Type} (s : Shape α) : Prop where
  sound : s.Sound (fun _ => True) fun _ => []

theorem writes_text (s : String) : (Value.text s).Writes [] := ⟨.text s, rfl, by simp [Json.integers]⟩

theorem writes_bool (b : Bool) : (Value.bool b).Writes [] := ⟨.bool b, rfl, by simp [Json.integers]⟩

theorem writes_int (n : Int) : (Value.int n).Writes [n] := ⟨.int n, rfl, by simp [Json.integers]⟩

theorem writes_float {x : Binary64} (h : x.isFinite = true) : (Value.float x).Writes [] :=
  ⟨.float x, by simp [Value.toJson, Scalar.toJson, h], by simp [Json.integers]⟩

theorem writes_null : Value.null.Writes [] := ⟨.null, rfl, by simp [Json.integers]⟩

namespace Shape

section
variable {α : Type} {s : Shape α} {P : α → Prop} {ints : α → List Int}

theorem Sound.filtered {fault? : α → Option ShapeCause} (h : s.Sound P ints) : (s.filtered fault?).Sound P ints := by
  refine ⟨fun v => ?_, h.written⟩
  have hv := h.read v
  simp only [Shape.filtered]
  split
  · rename_i a ha
    split
    · exact meets_ok (hv.2 a ha)
    · exact meets_refuse
  · rename_i fs he
    exact meets_error (hv.ne_nil he)

theorem Sound.congr {P' : α → Prop} {ints' : α → List Int} (h : s.Sound P ints) (hp : ∀ a, P a ↔ P' a)
    (hi : ∀ a n, n ∈ ints a ↔ n ∈ ints' a) : s.Sound P' ints' := by
  refine ⟨fun v => (h.read v).mono fun a => (hp a).mp, fun a ha => ?_⟩
  obtain ⟨j, hj, hn⟩ := h.written a ((hp a).mpr ha)
  exact ⟨j, hj, fun n => (hn n).trans (hi a n)⟩

instance [h : s.Plain] {breach? : α → Option Breach} : (s.checked breach?).Plain := ⟨h.sound.filtered⟩

theorem text_sound : text.Sound (fun _ => True) fun _ => [] := by
  refine ⟨fun v => ?_, fun a _ => writes_text a⟩
  simp only [text]
  split
  · exact meets_ok trivial
  · exact meets_accept fun _ _ => trivial
  · exact meets_refuse

theorem filledText_sound : filledText.Sound (fun _ => True) fun _ => [] := by
  refine ⟨fun v => ?_, fun a _ => writes_text a⟩
  simp only [filledText]
  have hv := text_sound.read v
  split
  · split
    · exact meets_refuse
    · exact meets_ok trivial
  · rename_i fs he
    exact meets_error (hv.ne_nil he)

theorem boolOfInt_meets (n : Int) : (boolOfInt n).Meets fun _ => True := by
  unfold boolOfInt
  split
  · exact meets_ok trivial
  split
  · exact meets_ok trivial
  · exact meets_refuse

theorem bool_sound : bool.Sound (fun _ => True) fun _ => [] := by
  refine ⟨fun v => ?_, fun a _ => writes_bool a⟩
  simp only [bool]
  split
  · exact meets_ok trivial
  · exact boolOfInt_meets _
  · split
    · split
      · exact boolOfInt_meets _
      · exact meets_refuse
    · exact meets_refuse
  · exact meets_accept fun _ _ => trivial
  · exact meets_accept fun _ _ => trivial
  · exact meets_refuse

theorem intOfText_meets (t : String) : (intOfText t).Meets fun _ => True := by
  unfold intOfText
  split
  · exact meets_refuse
  · exact meets_accept fun _ _ => trivial

theorem int_sound : int.Sound (fun _ => True) fun n => [n] := by
  refine ⟨fun v => ?_, fun n _ => writes_int n⟩
  simp only [int]
  split
  · exact meets_ok trivial
  · exact meets_ok trivial
  · split
    · split
      · split
        · exact meets_ok trivial
        · exact meets_refuse
      · exact meets_refuse
    · exact meets_refuse
  · exact intOfText_meets _
  · split
    · exact intOfText_meets _
    · exact meets_refuse
  · exact meets_refuse

theorem anyFloat_meets (v : Value) : (anyFloat.read v).Meets fun _ => True := by
  simp only [anyFloat]
  split
  · exact meets_ok trivial
  · split
    · exact meets_ok trivial
    · exact meets_refuse
  · exact meets_ok trivial
  · exact meets_accept fun _ _ => trivial
  · exact meets_accept fun _ _ => trivial
  · exact meets_refuse

theorem float_sound : float.Sound (fun x => x.isFinite = true) fun _ => [] := by
  refine ⟨fun v => ?_, fun _ => writes_float⟩
  have hv := anyFloat_meets v
  simp only [float, Shape.filtered]
  split
  · split
    · rename_i x _ hx
      exact meets_ok (by simpa using hx)
    · exact meets_refuse
  · rename_i fs he
    exact meets_error (hv.ne_nil he)

theorem choice_sound {all : List α} {name : α → String} : (choice all name).Sound (fun _ => True) fun _ => [] := by
  refine ⟨fun v => ?_, fun a _ => writes_text _⟩
  simp only [choice]
  split
  · exact meets_accept fun _ _ => trivial
  · exact meets_refuse

instance : text.Plain := ⟨text_sound⟩

instance : filledText.Plain := ⟨filledText_sound⟩

instance : bool.Plain := ⟨bool_sound⟩

instance {all : List α} {name : α → String} : (choice all name).Plain := ⟨choice_sound⟩

instance {names : List String} : (oneOf names).Plain := ⟨choice_sound⟩

theorem literal_meets (v : Value) : (literal.read v).Meets fun l => ∃ j, l.toJson = .ok j := by
  -- whatever is refused has at least the fault of not being a text
  have hrefused {fs gs hs : List ShapeFault} :
      ShapeResult.Meets (α := Scalar) (.error (literal.faults (α := String) "str" (refuse .text) ++ fs ++ gs ++ hs))
        fun l => ∃ j, l.toJson = .ok j :=
    meets_error (by simp [refuse, literal.faults])
  cases v with
  | scalar s =>
    cases s with
    | null => exact meets_ok ⟨_, rfl⟩
    | bool b => exact meets_ok ⟨_, rfl⟩
    | int n => exact meets_ok ⟨_, rfl⟩
    | text t => exact meets_ok ⟨_, rfl⟩
    | float x =>
      have hx := float_sound.read (.float x)
      cases hf : float.read (.float x) with
      | ok y =>
        have hy : y.isFinite = true := hx.2 y hf
        simp only [literal, hf]
        exact meets_ok ⟨.float y, by simp [Scalar.toJson, hy]⟩
      | error fs =>
        simp only [literal, hf]
        exact hrefused
    | bytes bs =>
      have hbs := text_sound.read (.scalar (.bytes bs))
      cases ht : text.read (.scalar (.bytes bs)) with
      | ok t =>
        simp only [literal, ht]
        exact meets_ok ⟨_, rfl⟩
      | error fs =>
        simp only [literal, ht]
        exact meets_error (by simp [literal.faults, hbs.ne_nil ht])
    | date d => exact hrefused
    | dateTime t => exact hrefused
  | list items => exact hrefused
  | tuple items => exact hrefused
  | set items => exact hrefused
  | mapping ms => exact hrefused

theorem literal_sound : literal.Sound (fun l => ∃ j, l.toJson = .ok j) Scalar.integers := by
  refine ⟨literal_meets, fun l hl => ?_⟩
  obtain ⟨j, hj⟩ := hl
  exact Scalar.writes hj

/-! ## Collections -/

theorem Sound.nullable (h : s.Sound P ints) :
    (Shape.nullable s).Sound (fun o => ∀ a ∈ o, P a) fun o => o.toList.flatMap ints := by
  refine ⟨fun v => ?_, fun o ho => ?_⟩
  · simp only [Shape.nullable]
    split
    · exact meets_ok nofun
    · refine .map ((h.read v).mono fun a ha => ?_)
      simpa using ha
  · cases o with
    | none => exact writes_null
    | some a => simpa [Shape.nullable] using h.written a (ho a rfl)

instance [h : s.Plain] : (Shape.nullable s).Plain := ⟨h.sound.nullable.congr (by simp) (by simp)⟩

theorem readItems_meets (h : s.Sound P ints) (n : Nat) (vs : List Value) :
    (readItems s n vs).Meets fun as => ∀ a ∈ as, P a := by
  induction vs generalizing n with
  | nil => exact meets_ok (by simp)
  | cons v vs ih =>
    refine .apply (.map ((h.read v).under.mono fun a ha as has => ?_)) (ih (n + 1))
    exact List.forall_mem_cons.mpr ⟨ha, has⟩

theorem itemsToJson_eq_ok (h : s.Sound P ints) {as : List α} (has : ∀ a ∈ as, P a) :
    ∃ js, Value.itemsToJson (as.map s.write) = .ok js ∧ ∀ n, n ∈ js.flatMap Json.integers ↔ n ∈ as.flatMap ints := by
  induction as with
  | nil => exact ⟨[], rfl, by simp⟩
  | cons a as ih =>
    obtain ⟨ha, has⟩ := List.forall_mem_cons.mp has
    obtain ⟨j, hj, hn⟩ := h.written a ha
    obtain ⟨js, hjs, hns⟩ := ih has
    refine ⟨j :: js, by simp [Value.itemsToJson, hj, hjs], fun n => ?_⟩
    rw [List.flatMap_cons, List.flatMap_cons, List.mem_append, List.mem_append, hn, hns]

theorem Sound.items {kind : SequenceKind} (h : s.Sound P ints) :
    (Shape.items kind s).Sound (fun as => ∀ a ∈ as, P a) fun as => as.flatMap ints := by
  refine ⟨fun v => ?_, fun as has => ?_⟩
  · simp only [Shape.items]
    split
    · exact readItems_meets h 0 _
    · exact meets_refuse
  · obtain ⟨js, hjs, hns⟩ := itemsToJson_eq_ok h has
    exact ⟨.list js, by simp [Shape.items, Value.toJson, hjs], by simpa only [Json.integers, Json.itemIntegers_eq] using hns⟩

theorem Sound.tuple (h : s.Sound P ints) : (Shape.tuple s).Sound (fun as => ∀ a ∈ as, P a) fun as => as.flatMap ints :=
  h.items

instance [h : s.Plain] : (Shape.tuple s).Plain := ⟨h.sound.tuple.congr (by simp) (by simp)⟩

theorem Sound.filledTuple (h : s.Sound P ints) :
    (Shape.filledTuple s).Sound (fun as => as ≠ [] ∧ ∀ a ∈ as, P a) fun as => as.flatMap ints := by
  refine ⟨fun v => ?_, fun as has => h.tuple.written as has.2⟩
  have hv := h.tuple.read v
  simp only [Shape.filledTuple]
  split
  · exact meets_refuse
  · rename_i fs _ he
    split
    · exact meets_error (by simp)
    · exact meets_error (hv.ne_nil he)
  · rename_i hnil _
    cases hr : (Shape.tuple s).read v with
    | error fs => exact meets_error (hv.ne_nil hr)
    | ok as =>
      refine meets_ok ⟨?_, hv.2 as hr⟩
      rintro rfl
      cases hi : itemsOf? v with
      | none => simp [Shape.tuple, Shape.items, hi, refuse] at hr
      | some vs => exact hnil vs hi hr

instance [h : s.Plain] : (Shape.filledTuple s).Plain := by
  refine ⟨fun v => (h.sound.filledTuple.read v).mono fun _ _ => trivial, fun as _ => ?_⟩
  obtain ⟨j, hj, hn⟩ := h.sound.tuple.written as (by simp)
  exact ⟨j, hj, by simpa using hn⟩

instance [h : s.Plain] {prepare : Value → Value} : (s.prepared prepare).Plain :=
  ⟨fun v => h.sound.read (prepare v), h.sound.written⟩

/-! ## Mappings -/

theorem readEntries_meets (h : s.Sound P ints) (ms : Members) : (readEntries s ms).Meets fun es => ∀ e ∈ es, P e.2 := by
  induction ms with
  | nil => exact meets_ok (by simp)
  | cons m ms ih =>
    have hkey := ((text_sound.read (.scalar m.1)).under (s := .key "[key]")).under (s := stepOfKey m.1)
    refine .apply (.map ?_) ih
    refine .mono (P := fun e => P e.2) (.apply (.map (hkey.mono fun _ _ _ ha => ha)) (h.read m.2).under) ?_
    exact fun e he es hes => List.forall_mem_cons.mpr ⟨he, hes⟩

def StandsFor (ints : α → List Int) (e : String × α) (m : String × Json) : Prop :=
  m.1 = e.1 ∧ ∀ n, n ∈ m.2.integers ↔ n ∈ ints e.2

theorem membersToJson_eq_ok (h : s.Sound P ints) {es : List (String × α)} (hes : ∀ e ∈ es, P e.2) :
    ∃ js, Value.membersToJson (es.map fun e => (.text e.1, s.write e.2)) = .ok js ∧
      List.Forall₂ (StandsFor ints) es js := by
  induction es with
  | nil => exact ⟨[], rfl, .nil⟩
  | cons e es ih =>
    obtain ⟨he, hes⟩ := List.forall_mem_cons.mp hes
    obtain ⟨j, hj, hn⟩ := h.written e.2 he
    obtain ⟨js, hjs, hns⟩ := ih hes
    exact ⟨(e.1, j) :: js, by simp [Value.membersToJson, Value.writtenText_text, Except.mapError, hj, hjs], .cons ⟨rfl, hn⟩ hns⟩

theorem forall₂_put {e : String × α} {m : String × Json} {es : Index α} {js : List (String × Json)}
    (he : StandsFor ints e m) (h : List.Forall₂ (StandsFor ints) es js) :
    List.Forall₂ (StandsFor ints) (es.put e.1 e.2) (Json.put m.1 m.2 js) := by
  obtain ⟨name, a⟩ := e
  obtain ⟨key, j⟩ := m
  obtain ⟨rfl, hj⟩ := he
  induction h with
  | nil => exact .cons ⟨rfl, hj⟩ .nil
  | @cons l k es js hl hrest ih =>
    obtain ⟨l, b⟩ := l
    obtain ⟨k, w⟩ := k
    obtain ⟨rfl, hw⟩ := hl
    simp only [Index.put, Json.put]
    split
    · exact .cons ⟨rfl, hj⟩ hrest
    · exact .cons ⟨rfl, hw⟩ ih

theorem forall₂_foldl_put {es index : Index α} {js acc : List (String × Json)}
    (h : List.Forall₂ (StandsFor ints) es js) (hi : List.Forall₂ (StandsFor ints) index acc) :
    List.Forall₂ (StandsFor ints) (es.foldl (fun index e => Index.put e.1 e.2 index) index)
      (js.foldl (fun acc m => Json.put m.1 m.2 acc) acc) := by
  induction h generalizing index acc with
  | nil => exact hi
  | cons he _ ih => exact ih (forall₂_put he hi)

theorem integers_of_forall₂ {es : Index α} {js : List (String × Json)} (h : List.Forall₂ (StandsFor ints) es js) (n : Int) :
    n ∈ js.flatMap (fun m => m.2.integers) ↔ n ∈ es.flatMap fun e => ints e.2 := by
  induction h with
  | nil => simp
  | cons he _ ih => rw [List.flatMap_cons, List.flatMap_cons, List.mem_append, List.mem_append, he.2, ih]

theorem Sound.entries (h : s.Sound P ints) :
    (Shape.entries s).Sound (fun es => ∀ e ∈ es, P e.2) fun es => (Index.ofEntries es).flatMap fun e => ints e.2 := by
  refine ⟨fun v => ?_, fun es hes => ?_⟩
  · simp only [Shape.entries]
    split
    · exact .map ((readEntries_meets h _).mono fun es hes e he => hes e (Index.mem_ofEntries he))
    · exact meets_refuse
  · obtain ⟨js, hjs, hall⟩ := membersToJson_eq_ok h hes
    -- of several members with a name the last is written, and the index of the entries has the last as well
    refine ⟨.mapping _, by simp only [Shape.entries, Value.toJson, hjs, ok_bind]; rfl, fun n => ?_⟩
    rw [Json.integers, Json.memberIntegers_eq]
    exact integers_of_forall₂ (forall₂_foldl_put hall .nil) n

theorem Sound.filledEntries (h : s.Sound P ints) : (Shape.filledEntries s).Sound (fun es => ∀ e ∈ es, P e.2)
    fun es => (Index.ofEntries es).flatMap fun e => ints e.2 :=
  h.entries.filtered

instance [h : s.Plain] : (Shape.filledEntries s).Plain := ⟨h.sound.filledEntries.congr (by simp) (by simp)⟩

end

end Shape

/-! ## Nodes -/

def Fields.names {ρ α : Type} (fs : Fields ρ α) : List String := fs.keys.map fun spellings => spellings.headD ""

/-- What some fields read has a property, and of a node with another one they can be written, each once. -/
structure Fields.Sound {ρ α : Type} (fs : Fields ρ α) (Q : α → Prop) (P : ρ → Prop) (ints : ρ → List Int) : Prop where
  read : ∀ ms, (fs.read ms).Meets Q
  written : ∀ r, P r → ∃ js, Value.membersToJson (fs.write r) = .ok js ∧ js.map Prod.fst = fs.names ∧
    ∀ n, n ∈ js.flatMap (fun m => m.2.integers) ↔ n ∈ ints r

/-- Fields that hold no integers and can be written whatever they hold. -/
class Fields.Plain {ρ α : Type} (fs : Fields ρ α) : Prop where
  sound : fs.Sound (fun _ => True) (fun _ => True) fun _ => []

theorem membersToJson_append {ms ms' : Members} {js js' : List (String × Json)} (h : Value.membersToJson ms = .ok js)
    (h' : Value.membersToJson ms' = .ok js') : Value.membersToJson (ms ++ ms') = .ok (js ++ js') := by
  induction ms generalizing js with
  | nil =>
    cases h
    exact h'
  | cons m ms ih =>
    rw [Value.membersToJson] at h
    obtain ⟨key, hkey, h⟩ := bind_eq_ok.mp h
    obtain ⟨j, hj, h⟩ := bind_eq_ok.mp h
    obtain ⟨js, hjs, h⟩ := bind_eq_ok.mp h
    cases h
    simp [Value.membersToJson, hkey, hj, ih hjs]

namespace Fields

section
variable {ρ σ α β : Type} {P : ρ → Prop} {A : α → Prop} {Q : β → Prop} {ints : ρ → List Int} {aints : α → List Int}
  {fs : Fields ρ (α → β)} {s : Shape α} {key : String} {get : ρ → α}

theorem Sound.of {a : α} (h : A a) : (Fields.of a : Fields ρ α).Sound A P fun _ => [] :=
  ⟨fun _ => meets_ok h, fun _ _ => ⟨[], rfl, rfl, by simp⟩⟩

theorem readMember_meets {spellings : List String} {fallback : Option α} {ms : Members} (hs : ∀ v, (s.read v).Meets A)
    (hf : ∀ a ∈ fallback, A a) : (readMember spellings s fallback ms).Meets A := by
  unfold readMember
  split
  · split
    · exact (hs _).under
    · exact meets_refuse
  · split
    · exact meets_ok (hf _ rfl)
    · exact meets_refuse.under

theorem Sound.spelled {spellings : List String} {fallback : Option α} (hs : s.Sound A aints) (hf : ∀ a ∈ fallback, A a)
    (hp : ∀ r, P r → A (get r)) (hfs : fs.Sound (fun f => ∀ a, A a → Q (f a)) P ints) :
    (fs.spelled spellings s fallback get).Sound Q P fun r => ints r ++ aints (get r) := by
  refine ⟨fun ms => .apply (hfs.read ms) (readMember_meets hs.read hf), fun r hr => ?_⟩
  obtain ⟨js, hjs, hnames, hns⟩ := hfs.written r hr
  obtain ⟨j, hj, hn⟩ := hs.written (get r) (hp r hr)
  refine ⟨js ++ [(spellings.headD "", j)], membersToJson_append hjs ?_, ?_, fun n => ?_⟩
  · simp [Value.membersToJson, Value.writtenText_text, Except.mapError, hj]
  · simp [hnames, names, Fields.spelled]
  · rw [List.flatMap_append, List.mem_append, hns]
    simp [hn]

theorem Sound.first {spellings : List String} {fallback : Option α} (hs : s.Sound A aints) (hf : ∀ a ∈ fallback, A a)
    (hp : ∀ r, P r → A (get r)) (hfs : fs.Sound (fun f => ∀ a, A a → Q (f a)) P fun _ => []) :
    (fs.spelled spellings s fallback get).Sound Q P fun r => aints (get r) := .spelled hs hf hp hfs

theorem Sound.field (hs : s.Sound A aints) (hp : ∀ r, P r → A (get r))
    (hfs : fs.Sound (fun f => ∀ a, A a → Q (f a)) P ints) :
    (fs.field key s get).Sound Q P fun r => ints r ++ aints (get r) := .spelled hs nofun hp hfs

theorem Sound.fieldOr {otherwise : α} (hs : s.Sound A aints) (hf : A otherwise) (hp : ∀ r, P r → A (get r))
    (hfs : fs.Sound (fun f => ∀ a, A a → Q (f a)) P ints) :
    (fs.fieldOr key s otherwise get).Sound Q P fun r => ints r ++ aints (get r) :=
  .spelled hs (by rintro _ ⟨⟩; exact hf) hp hfs

theorem Sound.congr {Q' : β → Prop} {ints' : ρ → List Int} {fs : Fields ρ β} (h : fs.Sound Q P ints)
    (hq : ∀ b, Q b → Q' b) (hi : ∀ r n, n ∈ ints r ↔ n ∈ ints' r) : fs.Sound Q' P ints' := by
  refine ⟨fun ms => (h.read ms).mono hq, fun r hr => ?_⟩
  obtain ⟨js, hjs, hnames, hns⟩ := h.written r hr
  exact ⟨js, hjs, hnames, fun n => (hns n).trans (hi r n)⟩

theorem Sound.known (hs : s.Sound A fun _ => []) (hp : ∀ r, P r → A (get r))
    (hfs : fs.Sound (fun f => ∀ a, A a → Q (f a)) P ints) : (fs.field key s get).Sound Q P ints :=
  (Sound.field hs hp hfs).congr (fun _ h => h) (by simp)

theorem Sound.knownOr {otherwise : α} (hs : s.Sound A fun _ => []) (hf : A otherwise) (hp : ∀ r, P r → A (get r))
    (hfs : fs.Sound (fun f => ∀ a, A a → Q (f a)) P ints) : (fs.fieldOr key s otherwise get).Sound Q P ints :=
  (Sound.fieldOr hs hf hp hfs).congr (fun _ h => h) (by simp)

theorem Sound.plain [hs : s.Plain] (hfs : fs.Sound (fun f => ∀ a, Q (f a)) P ints) :
    (fs.field key s get).Sound Q P ints :=
  .known hs.sound (fun _ _ => trivial) (hfs.congr (fun _ h a _ => h a) fun _ _ => Iff.rfl)

theorem Sound.plainOr {otherwise : α} [hs : s.Plain] (hfs : fs.Sound (fun f => ∀ a, Q (f a)) P ints) :
    (fs.fieldOr key s otherwise get).Sound Q P ints :=
  .knownOr hs.sound trivial (fun _ _ => trivial) (hfs.congr (fun _ h a _ => h a) fun _ _ => Iff.rfl)

instance {a : α} : (Fields.of a : Fields ρ α).Plain := ⟨.of trivial⟩

instance [hfs : fs.Plain] [hs : s.Plain] {spellings : List String} {fallback : Option α} :
    (fs.spelled spellings s fallback get).Plain :=
  ⟨(Sound.spelled hs.sound (fun _ _ => trivial) (fun _ _ => trivial)
    (hfs.sound.congr (fun _ _ _ _ => trivial) fun _ _ => Iff.rfl)).congr (fun _ h => h) (by simp)⟩

instance [hfs : fs.Plain] [hs : s.Plain] : (fs.field key s get).Plain :=
  inferInstanceAs (fs.spelled [key] s none get).Plain

instance [hfs : fs.Plain] [hs : s.Plain] {otherwise : α} : (fs.fieldOr key s otherwise get).Plain :=
  inferInstanceAs (fs.spelled [key] s (some otherwise) get).Plain

theorem Sound.constant {fs : Fields ρ α} {text : String} (hfs : fs.Sound A P ints) :
    (fs.constant key text).Sound A P ints := by
  refine ⟨fun ms => ?_, fun r hr => ?_⟩
  · refine .apply (P := fun _ => True) (.map ((hfs.read ms).mono fun _ ha _ _ => ha)) ?_
    exact readMember_meets Shape.choice_sound.read nofun
  · obtain ⟨js, hjs, hnames, hns⟩ := hfs.written r hr
    refine ⟨js ++ [(key, .text text)], membersToJson_append hjs rfl, ?_, fun n => ?_⟩
    · simp [hnames, names, Fields.constant]
    · rw [List.flatMap_append, List.mem_append, hns]
      simp [Json.integers]

theorem Sound.part {inner : Fields σ α} {get : ρ → σ} {S : σ → Prop} {iints : σ → List Int} (hs : inner.Sound A S iints)
    (hp : ∀ r, P r → S (get r)) (hfs : fs.Sound (fun f => ∀ a, A a → Q (f a)) P ints) :
    (fs.part inner get).Sound Q P fun r => ints r ++ iints (get r) := by
  refine ⟨fun ms => .apply (hfs.read ms) (hs.read ms), fun r hr => ?_⟩
  obtain ⟨js, hjs, hnames, hns⟩ := hfs.written r hr
  obtain ⟨js', hjs', hnames', hns'⟩ := hs.written (get r) (hp r hr)
  refine ⟨js ++ js', membersToJson_append hjs hjs', ?_, fun n => ?_⟩
  · simp [hnames, hnames', names, Fields.part]
  · rw [List.flatMap_append, List.mem_append, List.mem_append, hns, hns']

theorem Sound.firstPart {inner : Fields σ α} {get : ρ → σ} {S : σ → Prop} {iints : σ → List Int}
    (hs : inner.Sound A S iints) (hp : ∀ r, P r → S (get r)) (hfs : fs.Sound (fun f => ∀ a, A a → Q (f a)) P fun _ => []) :
    (fs.part inner get).Sound Q P fun r => iints (get r) := .part hs hp hfs

instance {fs : Fields ρ α} [h : fs.Plain] {text : String} : (fs.constant key text).Plain := ⟨h.sound.constant⟩

instance {inner : Fields σ α} {get : ρ → σ} [hfs : fs.Plain] [h : inner.Plain] : (fs.part inner get).Plain :=
  ⟨(Sound.part h.sound (fun _ _ => trivial) (hfs.sound.congr (fun _ _ _ _ => trivial) fun _ _ => Iff.rfl)).congr
    (fun _ h => h) (by simp)⟩

end

end Fields

namespace Shape

section
variable {α : Type} {P : α → Prop} {ints : α → List Int} {fs : Fields α α} {name : String}

theorem Sound.node (h : fs.Sound P P ints) (hn : fs.names.Nodup) : (Shape.node name fs).Sound P ints := by
  refine ⟨fun v => ?_, fun a ha => ?_⟩
  · simp only [Shape.node]
    split
    · rename_i ms
      refine .apply (P := fun _ => True) (.map ((h.read ms).mono fun a ha _ _ => ha)) ?_
      split
      · exact meets_ok trivial
      · rename_i hs
        exact meets_error hs
    · exact meets_refuse
  · obtain ⟨js, hjs, hnames, hns⟩ := h.written a ha
    refine ⟨.mapping js, ?_, fun n => ?_⟩
    · -- the names are distinct, so no field is written over another
      simp only [Shape.node, Value.toJson, hjs, ok_bind, Json.put_eq, pure_eq_ok]
      rw [Index.foldl_put (by simpa [Index.names, hnames] using hn)]
      simp
    · rw [Json.integers, Json.memberIntegers_eq, hns]

theorem Plain.node [h : fs.Plain] (hn : fs.names.Nodup) : (Shape.node name fs).Plain := ⟨.node h.sound hn⟩

theorem readTagged_meets {field : String} {branches : List (String × (Value → ShapeResult α))} {v : Value}
    (h : ∀ b ∈ branches, ∀ v, (b.2 v).Meets P) : (readTagged field branches v).Meets P := by
  unfold readTagged
  split
  · split
    · exact meets_refuse
    · rename_i t _
      split
      · rename_i tag read hb
        obtain ⟨s, -, hs⟩ := Option.bind_eq_some_iff.mp hb
        exact (h _ (List.mem_of_find?_eq_some hs) _).under
      · exact meets_refuse
  · exact meets_refuse

end

end Shape

end Workflow
