import Workflow.Proofs.Shape

/-!
# Reading what was written

Whatever a shape has read is written as a value that the shape reads as the same thing: numerals, words and shorthands
are gone, and defaults stand in their places. Shown along the combinators that shapes are made of.
-/

namespace Workflow

/-! ## Results -/

section
variable {α β : Type}

theorem apply_eq_ok {f : ShapeResult (α → β)} {r : ShapeResult α} {b : β} :
    f.apply r = .ok b ↔ ∃ g a, f = .ok g ∧ r = .ok a ∧ g a = b := by
  cases f with
  | ok g =>
    cases r with
    | ok a => simp [ShapeResult.apply]
    | error fs => simp [ShapeResult.apply]
  | error gs =>
    cases r with
    | ok a => simp [ShapeResult.apply]
    | error fs => simp [ShapeResult.apply]

theorem under_eq_ok {s : PathStep} {r : ShapeResult α} {a : α} : r.under s = .ok a ↔ r = .ok a := mapError_eq_ok

theorem accept_eq_ok {c : ShapeCause} {o : Option α} {a : α} : accept c o = .ok a ↔ o = some a := by
  cases o with
  | none => simp [accept, refuse]
  | some b => simp [accept]

end

/-! ## Shapes -/

namespace Shape

section
variable {α : Type}

def Fixed (s : Shape α) (a : α) : Prop := s.read (s.write a) = .ok a

class Stable (s : Shape α) : Prop where
  fixed : ∀ {v a}, s.read v = .ok a → s.Fixed a

class Filled (s : Shape α) : Prop where
  ne_null : ∀ a, s.write a ≠ .null

variable {s : Shape α} {fault? : α → Option ShapeCause} {breach? : α → Option Breach}

@[simp] theorem fixed_text (t : String) : text.Fixed t := rfl

@[simp] theorem fixed_bool (b : Bool) : bool.Fixed b := rfl

@[simp] theorem fixed_int (n : Int) : int.Fixed n := rfl

@[simp] theorem fixed_filledText {t : String} : filledText.Fixed t ↔ t ≠ "" := by
  by_cases h : t = ""
  · simp [Fixed, filledText, text, refuse, h]
  · simp [Fixed, filledText, text, h]

theorem filtered_eq_ok {v : Value} {a : α} : (s.filtered fault?).read v = .ok a ↔ s.read v = .ok a ∧ fault? a = none := by
  simp only [filtered]
  cases s.read v with
  | error fs => simp
  | ok b =>
    cases hf : fault? b with
    | none =>
      simp only [hf, Except.ok.injEq, iff_self_and]
      intro hb
      rw [← hb, hf]
    | some c =>
      simp only [hf, refuse, reduceCtorEq, Except.ok.injEq, false_iff, not_and]
      intro hb
      simp [← hb, hf]

theorem fixed_filtered {a : α} : (s.filtered fault?).Fixed a ↔ s.Fixed a ∧ fault? a = none := filtered_eq_ok

theorem Stable.filtered (h : s.Stable) : (s.filtered fault?).Stable := by
  refine ⟨?_⟩
  intro v a hr
  obtain ⟨hr, hf⟩ := filtered_eq_ok.mp hr
  exact fixed_filtered.mpr ⟨h.fixed hr, hf⟩

instance [h : s.Stable] : (s.filtered fault?).Stable := h.filtered

instance [h : s.Stable] : (s.checked breach?).Stable := h.filtered

instance [h : s.Filled] : (s.filtered fault?).Filled := ⟨h.ne_null⟩

instance [h : s.Filled] : (s.checked breach?).Filled := ⟨h.ne_null⟩

instance : text.Stable := ⟨fun {_} t _ => fixed_text t⟩

instance : bool.Stable := ⟨fun {_} b _ => fixed_bool b⟩

instance : int.Stable := ⟨fun {_} n _ => fixed_int n⟩

instance {bound : Int} : (intAbove bound).Stable := Stable.filtered inferInstance

instance {bound : Int} : (intFrom bound).Stable := Stable.filtered inferInstance

instance : filledText.Stable := by
  refine ⟨?_⟩
  intro v t h
  rw [fixed_filledText]
  simp only [filledText] at h
  split at h
  · split at h
    · cases h
    · rename_i hne
      cases h
      exact hne
  · cases h

theorem fixed_float {x : Binary64} : float.Fixed x ↔ x.isFinite = true := by
  rw [float, fixed_filtered]
  cases hx : x.isFinite with
  | true => simp [Fixed, anyFloat]
  | false => simp

instance : float.Stable := by
  refine ⟨?_⟩
  intro v x h
  exact fixed_float.mpr ((float_sound.read v).2 x h)

theorem choice_eq_ok {all : List α} {name : α → String} {v : Value} {a : α} :
    (choice all name).read v = .ok a ↔ ∃ t, v = .text t ∧ all.find? (fun b => name b == t) = some a := by
  constructor
  · intro h
    simp only [choice] at h
    split at h
    · rename_i t
      exact ⟨t, rfl, accept_eq_ok.mp h⟩
    · cases h
  · rintro ⟨t, rfl, h⟩
    exact accept_eq_ok.mpr h

instance {all : List α} {name : α → String} : (choice all name).Stable := by
  refine ⟨?_⟩
  intro v a h
  obtain ⟨t, -, hf⟩ := choice_eq_ok.mp h
  have ht : name a = t := by simpa using List.find?_some hf
  exact choice_eq_ok.mpr ⟨name a, rfl, ht ▸ hf⟩

instance {names : List String} : (oneOf names).Stable := inferInstanceAs (choice names id).Stable

theorem fixed_oneOf {names : List String} {t : String} (h : t ∈ names) : (oneOf names).Fixed t := by
  refine choice_eq_ok.mpr ⟨t, rfl, ?_⟩
  obtain ⟨u, hu⟩ := Option.isSome_iff_exists.mp (List.find?_isSome (p := fun b => id b == t).mpr ⟨t, h, by simp⟩)
  have : u = t := by simpa using List.find?_some hu
  rw [hu, this]

instance : text.Filled := ⟨by simp [text]⟩

instance : float.Filled := ⟨by simp [float, filtered, anyFloat]⟩

theorem literal_eq_ok {v : Value} {l : Scalar} (h : literal.read v = .ok l) : literal.Fixed l := by
  cases v with
  | scalar s =>
    cases s with
    | null | bool b | int n | text t =>
      cases h
      rfl
    | float x =>
      cases hf : float.read (.float x) with
      | ok y =>
        simp only [literal, hf] at h
        cases h
        have hy : float.Fixed y := Stable.fixed hf
        simp only [Fixed, literal]
        rw [show float.read (.scalar (.float y)) = .ok y from hy]
      | error fs =>
        simp only [literal, hf] at h
        cases h
    | bytes bs =>
      cases ht : text.read (.scalar (.bytes bs)) with
      | ok t =>
        simp only [literal, ht] at h
        cases h
        rfl
      | error fs =>
        simp only [literal, ht] at h
        cases h
    | date d | dateTime t => cases h
  | list items | tuple items | set items | mapping items => cases h

instance : literal.Stable := ⟨literal_eq_ok⟩

/-! ## Collections -/

@[simp] theorem fixed_nullable_none : (nullable s).Fixed none := rfl

theorem nullable_of_ne {v : Value} (hv : v ≠ .null) : (nullable s).read v = (s.read v).map some := by
  simp only [nullable]

instance [h : s.Stable] [hf : s.Filled] : (nullable s).Stable := by
  refine ⟨?_⟩
  intro v o hr
  cases o with
  | none => rfl
  | some a =>
    have hv : v ≠ .null := by
      rintro rfl
      cases hr
    rw [nullable_of_ne hv] at hr
    obtain ⟨b, hb, he⟩ := map_eq_ok.mp hr
    cases he
    have ha : s.read (s.write a) = .ok a := h.fixed hb
    change (nullable s).read (s.write a) = _
    rw [nullable_of_ne (hf.ne_null a), ha]
    rfl

theorem readItems_fixed (h : s.Stable) {n : Nat} {vs : List Value} {as : List α} (hr : readItems s n vs = .ok as) :
    ∀ a ∈ as, s.Fixed a := by
  induction vs generalizing n as with
  | nil =>
    cases hr
    simp
  | cons v vs ih =>
    rw [readItems] at hr
    obtain ⟨g, bs, hg, hbs, rfl⟩ := apply_eq_ok.mp hr
    obtain ⟨b, hb, rfl⟩ := map_eq_ok.mp hg
    exact List.forall_mem_cons.mpr ⟨h.fixed (under_eq_ok.mp hb), ih hbs⟩

theorem readItems_written {as : List α} (h : ∀ a ∈ as, s.Fixed a) (n : Nat) : readItems s n (as.map s.write) = .ok as := by
  induction as generalizing n with
  | nil => rfl
  | cons a as ih =>
    obtain ⟨ha, has⟩ := List.forall_mem_cons.mp h
    rw [List.map_cons, readItems]
    exact apply_eq_ok.mpr ⟨List.cons a, as, map_eq_ok.mpr ⟨a, under_eq_ok.mpr ha, rfl⟩, ih has (n + 1), rfl⟩

theorem items_eq_ok {kind : SequenceKind} {v : Value} {as : List α} :
    (items kind s).read v = .ok as ↔ ∃ vs, itemsOf? v = some vs ∧ readItems s 0 vs = .ok as := by
  simp only [items]
  cases itemsOf? v with
  | none => simp [refuse]
  | some vs => simp

theorem fixed_items {kind : SequenceKind} {as : List α} (h : ∀ a ∈ as, s.Fixed a) : (items kind s).Fixed as :=
  items_eq_ok.mpr ⟨_, rfl, readItems_written h 0⟩

theorem fixed_tuple_iff [hs : s.Stable] {as : List α} : (tuple s).Fixed as ↔ ∀ a ∈ as, s.Fixed a := by
  refine ⟨fun h => ?_, fixed_items⟩
  obtain ⟨vs, -, hr⟩ := items_eq_ok.mp h
  exact readItems_fixed hs hr

@[simp] theorem fixed_tuple_nil : (tuple s).Fixed [] := rfl

instance {kind : SequenceKind} [h : s.Stable] : (items kind s).Stable := by
  refine ⟨?_⟩
  intro v as hr
  obtain ⟨vs, -, hr⟩ := items_eq_ok.mp hr
  exact fixed_items (readItems_fixed h hr)

instance [s.Stable] : (tuple s).Stable := inferInstanceAs (items .tuple s).Stable

instance : (tuple s).Filled := ⟨by simp [tuple, items]⟩

theorem filledTuple_eq_ok {v : Value} {as : List α} : (filledTuple s).read v = .ok as ↔ (tuple s).read v = .ok as ∧ as ≠ [] := by
  simp only [filledTuple]
  cases hi : itemsOf? v with
  | none =>
    have hr : (tuple s).read v = refuse (.sequence .tuple) := by simp [tuple, items, hi]
    simp [hr, refuse]
  | some vs =>
    cases hr : (tuple s).read v with
    | error fs =>
      simp only [reduceCtorEq, false_and, iff_false]
      split <;> simp
    | ok bs =>
      cases bs with
      | nil =>
        simp only [refuse, reduceCtorEq, Except.ok.injEq, false_iff, not_and, not_not]
        exact Eq.symm
      | cons b bs =>
        simp only [Except.ok.injEq, iff_self_and]
        rintro rfl
        simp

instance [h : s.Stable] : (filledTuple s).Stable := by
  refine ⟨?_⟩
  intro v as hr
  obtain ⟨hr, hne⟩ := filledTuple_eq_ok.mp hr
  have hf : (tuple s).Fixed as := Stable.fixed hr
  exact filledTuple_eq_ok.mpr ⟨hf, hne⟩

theorem readEntries_fixed (h : s.Stable) {ms : Members} {es : List (String × α)} (hr : readEntries s ms = .ok es) :
    ∀ e ∈ es, s.Fixed e.2 := by
  induction ms generalizing es with
  | nil =>
    cases hr
    simp
  | cons m ms ih =>
    rw [readEntries] at hr
    obtain ⟨g, fs, hg, hfs, rfl⟩ := apply_eq_ok.mp hr
    obtain ⟨e, he, rfl⟩ := map_eq_ok.mp hg
    obtain ⟨k, a, hk, ha, rfl⟩ := apply_eq_ok.mp he
    obtain ⟨key, -, rfl⟩ := map_eq_ok.mp hk
    exact List.forall_mem_cons.mpr ⟨h.fixed (under_eq_ok.mp ha), ih hfs⟩

theorem readEntries_written {es : List (String × α)} (h : ∀ e ∈ es, s.Fixed e.2) :
    readEntries s (es.map fun e => (.text e.1, s.write e.2)) = .ok es := by
  induction es with
  | nil => rfl
  | cons e es ih =>
    obtain ⟨he, hes⟩ := List.forall_mem_cons.mp h
    have hkey : text.read (.text e.1) = .ok e.1 := rfl
    rw [List.map_cons, readEntries]
    refine apply_eq_ok.mpr ⟨List.cons e, es, map_eq_ok.mpr ⟨e, ?_, rfl⟩, ih hes, rfl⟩
    refine apply_eq_ok.mpr ⟨Prod.mk e.1, e.2, map_eq_ok.mpr ⟨e.1, ?_, rfl⟩, under_eq_ok.mpr he, rfl⟩
    exact under_eq_ok.mpr (under_eq_ok.mpr hkey)

@[simp] theorem fixed_entries_nil : (entries s).Fixed [] := rfl

instance [h : s.Stable] : (entries s).Stable := by
  refine ⟨?_⟩
  intro v es hr
  simp only [entries] at hr
  split at hr
  · rename_i ms
    obtain ⟨fs, hfs, rfl⟩ := map_eq_ok.mp hr
    have hfixed := readEntries_fixed h hfs
    have hread := readEntries_written fun e he => hfixed e (Index.mem_ofEntries he)
    exact map_eq_ok.mpr ⟨_, hread, Index.ofEntries_of_nodup (Index.nodup_ofEntries fs)⟩
  · cases hr

theorem nodup_entries {v : Value} {es : List (String × α)} (h : (entries s).read v = .ok es) :
    (Index.names es).Nodup := by
  simp only [entries] at h
  split at h
  · obtain ⟨fs, -, rfl⟩ := map_eq_ok.mp h
    exact Index.nodup_ofEntries fs
  · cases h

instance [h : s.Stable] : (filledEntries s).Stable := Stable.filtered inferInstance

theorem Stable.prepared (h : s.Stable) {prepare : Value → Value} (hp : ∀ a, prepare (s.write a) = s.write a) :
    (s.prepared prepare).Stable := by
  refine ⟨?_⟩
  intro v a hr
  have ha : s.read (s.write a) = .ok a := h.fixed hr
  change s.read (prepare (s.write a)) = .ok a
  rw [hp, ha]

end

end Shape

/-! ## Fields -/

def Members.Holds (ms ns : Members) : Prop := ∀ n ∈ ns, ms.find? n.1 = some n.2

theorem Members.holds_append {ms as bs : Members} : ms.Holds (as ++ bs) ↔ ms.Holds as ∧ ms.Holds bs :=
  List.forall_mem_append

theorem Members.holds_self {ms : Members} {names : List String} (hk : ms.map Prod.fst = names.map Scalar.text)
    (hn : names.Nodup) : ms.Holds ms := by
  intro m hm
  obtain ⟨name, -, hname⟩ := List.mem_map.mp (hk ▸ List.mem_map_of_mem (f := Prod.fst) hm)
  have hsome : (List.find? (fun n => n.1.sameKey m.1) ms).isSome = true :=
    List.find?_isSome.mpr ⟨m, hm, by simp [← hname, Scalar.sameKey, Scalar.keyNumber?]⟩
  obtain ⟨n, hn'⟩ := Option.isSome_iff_exists.mp hsome
  have hnodup : (ms.map Prod.fst).Nodup := by
    rw [hk]
    exact hn.map fun _ _ h => Scalar.text.inj h
  have hmem := List.mem_of_find?_eq_some hn'
  obtain ⟨other, -, hother⟩ := List.mem_map.mp (hk ▸ List.mem_map_of_mem (f := Prod.fst) hmem)
  -- keys that are texts name the same member only if they are equal
  have hsame : n.1 = m.1 := by
    have := List.find?_some hn'
    rw [← hname, ← hother] at this ⊢
    simpa [Scalar.sameKey, Scalar.keyNumber?] using this
  have : n = m := List.inj_on_of_nodup_map hnodup hmem hm hsame
  rw [Members.find?, hn', this]
  rfl

namespace Fields

section
variable {ρ α β : Type}

/-- The members that fields write, one for each of their names. -/
class Named (fs : Fields ρ α) : Prop where
  keys : ∀ r, (fs.write r).map Prod.fst = fs.names.map Scalar.text

/-- Of a mapping that has the members of a node the fields read what `part` makes of the node, if `P` holds of it. -/
class Rereads (fs : Fields ρ α) (P : outParam (ρ → Prop)) (part : outParam (ρ → α)) : Prop where
  reread : ∀ {r ms}, P r → Members.Holds ms (fs.write r) → fs.read ms = .ok (part r)

/-- What the fields read has a property, if the goal `G` is met. -/
class Reads (fs : Fields ρ α) (Q : α → Prop) (G : outParam Prop) : Prop where
  reads : G → ∀ {ms a}, fs.read ms = .ok a → Q a

/-- Of a mapping that has the members of a node the node is read. -/
def Fixed (fs : Fields ρ ρ) (r : ρ) : Prop := ∀ ms, Members.Holds ms (fs.write r) → fs.read ms = .ok r

class Stable (fs : Fields ρ ρ) : Prop where
  fixed : ∀ {ms r}, fs.read ms = .ok r → fs.Fixed r

variable {fs : Fields ρ (α → β)} {s : Shape α} {get : ρ → α} {P : ρ → Prop} {part : ρ → α → β} {Q : β → Prop} {G : Prop}
  {key : String} {more : List String} {fallback : Option α}

theorem readMember_held {ms : Members} {v : Value} (h : ms.find? (.text key) = some v) :
    readMember (key :: more) s fallback ms = (s.read v).under (.key key) := by
  have hg : ms.get? key = some v := h
  have hs : spelling? ms (key :: more) = some key := by simp [spelling?, hg]
  simp [readMember, hs, hg]

theorem readMember_fixed (h : s.Stable) (hf : ∀ a ∈ fallback, s.Fixed a) {spellings : List String} {ms : Members} {a : α}
    (hr : readMember spellings s fallback ms = .ok a) : s.Fixed a := by
  unfold readMember at hr
  split at hr
  · split at hr
    · exact h.fixed (under_eq_ok.mp hr)
    · cases hr
  · split at hr
    · cases hr
      exact hf _ rfl
    · cases hr

instance {a : α} : (Fields.of a : Fields ρ α).Named := ⟨fun _ => rfl⟩

instance [h : fs.Named] {spellings : List String} : (fs.spelled spellings s fallback get).Named := by
  refine ⟨?_⟩
  intro r
  simp [Fields.spelled, names, h.keys r]

instance [fs.Named] : (fs.field key s get).Named := inferInstanceAs (fs.spelled [key] s none get).Named

instance [fs.Named] {otherwise : α} : (fs.fieldOr key s otherwise get).Named :=
  inferInstanceAs (fs.spelled [key] s (some otherwise) get).Named

instance {fs : Fields ρ α} [h : fs.Named] {text : String} : (fs.constant key text).Named := by
  refine ⟨?_⟩
  intro r
  simp [Fields.constant, names, h.keys r]

instance {inner : Fields α α} [h : fs.Named] [hi : inner.Named] : (fs.part inner get).Named := by
  refine ⟨?_⟩
  intro r
  simp [Fields.part, names, h.keys r, hi.keys (get r)]

instance {a : α} : (Fields.of a : Fields ρ α).Rereads (fun _ => True) fun _ => a := ⟨fun _ _ => rfl⟩

instance [h : fs.Rereads P part] : (fs.spelled (key :: more) s fallback get).Rereads
    (fun r => P r ∧ s.Fixed (get r)) fun r => part r (get r) := by
  refine ⟨?_⟩
  intro r ms hr hm
  obtain ⟨hm, hlast⟩ := Members.holds_append.mp hm
  have hv : ms.find? (.text key) = some (s.write (get r)) := hlast (.text key, s.write (get r)) (by simp)
  refine apply_eq_ok.mpr ⟨part r, get r, h.reread hr.1 hm, ?_, rfl⟩
  rw [readMember_held hv]
  exact under_eq_ok.mpr hr.2

instance [fs.Rereads P part] : (fs.field key s get).Rereads (fun r => P r ∧ s.Fixed (get r)) fun r => part r (get r) :=
  inferInstanceAs ((fs.spelled [key] s none get).Rereads _ _)

instance [fs.Rereads P part] {otherwise : α} :
    (fs.fieldOr key s otherwise get).Rereads (fun r => P r ∧ s.Fixed (get r)) fun r => part r (get r) :=
  inferInstanceAs ((fs.spelled [key] s (some otherwise) get).Rereads _ _)

instance {fs : Fields ρ α} {part : ρ → α} [h : fs.Rereads P part] {text : String} :
    (fs.constant key text).Rereads P part := by
  refine ⟨?_⟩
  intro r ms hr hm
  obtain ⟨hm, hlast⟩ := Members.holds_append.mp hm
  have hv : ms.find? (.text key) = some (.text text) := hlast (.text key, .text text) (by simp)
  refine apply_eq_ok.mpr ⟨fun _ => part r, text, map_eq_ok.mpr ⟨part r, h.reread hr hm, rfl⟩, ?_, rfl⟩
  rw [readMember_held hv]
  exact under_eq_ok.mpr (Shape.fixed_oneOf (List.mem_singleton.mpr rfl))

instance {inner : Fields α α} [h : fs.Rereads P part] :
    (fs.part inner get).Rereads (fun r => P r ∧ inner.Fixed (get r)) fun r => part r (get r) := by
  refine ⟨?_⟩
  intro r ms hr hm
  obtain ⟨hm, hinner⟩ := Members.holds_append.mp hm
  exact apply_eq_ok.mpr ⟨part r, get r, h.reread hr.1 hm, hr.2 ms hinner, rfl⟩

instance {a : α} {Q : α → Prop} : (Fields.of a : Fields ρ α).Reads Q (Q a) := by
  refine ⟨?_⟩
  intro h ms b hb
  cases hb
  exact h

instance [hs : s.Stable] [h : fs.Reads (fun f => ∀ a, s.Fixed a → Q (f a)) G] {spellings : List String} :
    (fs.spelled spellings s fallback get).Reads Q (G ∧ ∀ a ∈ fallback, s.Fixed a) := by
  refine ⟨?_⟩
  intro hg ms b hb
  obtain ⟨f, a, hf, ha, rfl⟩ := apply_eq_ok.mp hb
  exact h.reads hg.1 hf a (readMember_fixed hs hg.2 ha)

instance [s.Stable] [h : fs.Reads (fun f => ∀ a, s.Fixed a → Q (f a)) G] : (fs.field key s get).Reads Q G := by
  have hspelled : (fs.spelled [key] s none get).Reads Q (G ∧ ∀ a ∈ (none : Option α), s.Fixed a) := inferInstance
  exact ⟨fun hg => hspelled.reads ⟨hg, nofun⟩⟩

instance [s.Stable] [h : fs.Reads (fun f => ∀ a, s.Fixed a → Q (f a)) G] {otherwise : α} :
    (fs.fieldOr key s otherwise get).Reads Q (G ∧ s.Fixed otherwise) := by
  have hspelled : (fs.spelled [key] s (some otherwise) get).Reads Q (G ∧ ∀ a ∈ some otherwise, s.Fixed a) := inferInstance
  exact ⟨fun hg => hspelled.reads ⟨hg.1, by simpa using hg.2⟩⟩

instance {fs : Fields ρ α} {Q : α → Prop} [h : fs.Reads Q G] {text : String} : (fs.constant key text).Reads Q G := by
  refine ⟨?_⟩
  intro hg ms a ha
  obtain ⟨f, u, hf, -, rfl⟩ := apply_eq_ok.mp ha
  obtain ⟨b, hb, rfl⟩ := map_eq_ok.mp hf
  exact h.reads hg hb

instance {inner : Fields α α} [hi : inner.Stable] [h : fs.Reads (fun f => ∀ a, inner.Fixed a → Q (f a)) G] :
    (fs.part inner get).Reads Q G := by
  refine ⟨?_⟩
  intro hg ms b hb
  obtain ⟨f, a, hf, ha, rfl⟩ := apply_eq_ok.mp hb
  exact h.reads hg hf a (hi.fixed ha)

theorem mem_constant {fs : Fields ρ α} {text : String} (r : ρ) :
    (.text key, .text text) ∈ (fs.constant key text).write r :=
  List.mem_append_right _ (List.mem_singleton.mpr rfl)

theorem mem_spelled {spellings : List String} {r : ρ} {m : Scalar × Value} (h : m ∈ fs.write r) :
    m ∈ (fs.spelled spellings s fallback get).write r :=
  List.mem_append_left _ h

theorem mem_part {inner : Fields α α} {r : ρ} {m : Scalar × Value} (h : m ∈ fs.write r) :
    m ∈ (fs.part inner get).write r :=
  List.mem_append_left _ h

theorem Stable.of_parts {fs : Fields ρ ρ} {part : ρ → ρ} [h : fs.Rereads P part] [hr : fs.Reads P G]
    (hg : G := by simp +contextual) (hpart : ∀ r, part r = r := by exact fun _ => rfl) : fs.Stable := by
  refine ⟨?_⟩
  intro ms r hread ns hns
  rw [h.reread (hr.reads hg hread) hns, hpart r]

end

end Fields

/-! ## Nodes -/

namespace Shape

section
variable {α τ : Type} {fs : Fields α α} {name : String}

theorem strangers_written [h : fs.Named] (hn : fs.names.Nodup) (hk : [] ∉ fs.keys) (a : α) :
    Fields.strangers fs.keys (fs.write a) = [] := by
  have hholds := Members.holds_self (h.keys a) hn
  refine List.filterMap_eq_nil_iff.mpr ?_
  intro m hm
  obtain ⟨key, hkey, hm'⟩ := List.mem_map.mp (h.keys a ▸ List.mem_map_of_mem (f := Prod.fst) hm)
  obtain ⟨spellings, hs, rfl⟩ := List.mem_map.mp hkey
  have hknown : spellings.headD "" ∈ fs.keys.filterMap (Fields.spelling? (fs.write a)) := by
    refine List.mem_filterMap.mpr ⟨spellings, hs, ?_⟩
    cases spellings with
    | nil => exact absurd hs hk
    | cons key more =>
      have hg : (fs.write a).get? key = some m.2 := by
        have := hholds m hm
        rwa [← hm'] at this
      simp [Fields.spelling?, hg]
  simp only [← hm']
  rw [if_pos (List.contains_iff_mem.mpr hknown)]

theorem Stable.node [h : fs.Stable] [fs.Named] (hn : fs.names.Nodup) (hk : [] ∉ fs.keys) : (node name fs).Stable := by
  refine ⟨?_⟩
  intro v a hr
  simp only [Shape.node] at hr
  split at hr
  · obtain ⟨f, u, hf, -, rfl⟩ := apply_eq_ok.mp hr
    obtain ⟨b, hb, rfl⟩ := map_eq_ok.mp hf
    have hread : fs.read (fs.write b) = .ok b := h.fixed hb _ (Members.holds_self (Fields.Named.keys b) hn)
    change readNode fs (fs.write b) = .ok b
    unfold readNode
    rw [strangers_written hn hk b, hread]
    rfl
  · cases hr

theorem node_reads {Q : α → Prop} {G : Prop} [h : fs.Reads Q G] (hg : G) {v : Value} {a : α}
    (hr : (node name fs).read v = .ok a) : Q a := by
  simp only [node] at hr
  split at hr
  · obtain ⟨f, u, hf, -, rfl⟩ := apply_eq_ok.mp hr
    obtain ⟨b, hb, rfl⟩ := map_eq_ok.mp hf
    exact h.reads hg hb
  · cases hr

/-- A node is stable if its fields make it up again and its keys are told apart. -/
theorem Stable.of_fields {P : α → Prop} {part : α → α} {G : Prop} [fs.Named] [fs.Rereads P part] [fs.Reads P G]
    (hg : G := by simp +contextual) (hpart : ∀ a, part a = a := by exact fun _ => rfl)
    (hn : fs.names.Nodup := by decide) (hk : [] ∉ fs.keys := by decide) : (Shape.node name fs).Stable := by
  have : fs.Stable := .of_parts hg hpart
  exact .node hn hk

instance : (node name fs).Filled := ⟨by simp [node]⟩

def WritesTag (s : Shape τ) (field tag : String) : Prop :=
  ∀ t, ∃ ms, s.write t = .mapping ms ∧ Members.get? ms field = some (.text tag)

theorem WritesTag.filtered {s : Shape τ} {fault? : τ → Option ShapeCause} {field tag : String} (h : s.WritesTag field tag) :
    (s.filtered fault?).WritesTag field tag := h

theorem writesTag_node {field tag : String} [h : fs.Named] (hn : fs.names.Nodup)
    (hm : ∀ a, (.text field, .text tag) ∈ fs.write a) : WritesTag (node name fs) field tag := by
  intro a
  exact ⟨fs.write a, rfl, Members.holds_self (h.keys a) hn _ (hm a)⟩

theorem readTagged_eq_ok {field : String} {branches : List (String × (Value → ShapeResult α))} {v : Value} {a : α}
    (h : readTagged field branches v = .ok a) : ∃ b ∈ branches, b.2 v = .ok a := by
  unfold readTagged at h
  split at h
  · split at h
    · cases h
    · split at h
      · rename_i tag read hb
        obtain ⟨t, -, hf⟩ := Option.bind_eq_some_iff.mp hb
        exact ⟨_, List.mem_of_find?_eq_some hf, under_eq_ok.mp h⟩
      · cases h
  · cases h

theorem readTagged_written {field tag : String} {branches : List (String × (Value → ShapeResult α))} {s : Shape τ}
    {t : τ} (make : τ → α) (ht : s.WritesTag field tag) (h : s.Fixed t)
    (hb : branches.find? (fun b => b.1 == tag) = some (tag, fun v => (s.read v).map make)) :
    readTagged field branches (s.write t) = .ok (make t) := by
  obtain ⟨ms, hms, hget⟩ := ht t
  have hread : s.read (.mapping ms) = .ok t := hms ▸ h
  rw [hms]
  simp only [readTagged, hget, Value.asText?, Option.bind_some, hb, hread]
  rfl

end

end Shape

end Workflow
