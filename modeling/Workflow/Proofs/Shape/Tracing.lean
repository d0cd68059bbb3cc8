import Workflow.Proofs.Shape.Trails

/-!
# Trails along the combinators of shapes

Every combinator that a shape is made of tells its faults with their trails, if its parts do. A place says where the
trails of a shape may begin, so that its tags, and nothing else, stand where tags are expected.
-/

namespace Workflow

open OutputType (faultsOf)

/-! ## Parts of a value as it is -/

theorem Value.isNull_iff {v : Value} : v.isNull = true ↔ v = .null := by
  constructor
  · intro h
    unfold Value.isNull at h
    split at h
    · rfl
    · cases h
  · rintro rfl
    rfl

namespace Tracing

section
variable {α β : Type} {s : Shape α} {read : Value → ShapeResult α}

def map (h : Tracing read) (f : α → β) : Tracing fun v => (read v).map f where
  faults := h.faults
  told v := by rw [faultsOf_map, h.told]
  follows := h.follows
  place := h.place
  tidy := h.tidy

def filtered (h : Tracing s.read) (fault? : α → Option ShapeCause) : Tracing (s.filtered fault?).read where
  faults v :=
    match s.read v with
    | .ok a => ((fault? a).map fun c => ⟨[], c⟩).toList
    | .error _ => h.faults v
  told v := by
    have hv := h.told v
    simp only [Shape.filtered]
    cases hr : s.read v with
    | ok a =>
      dsimp only
      cases fault? a <;> rfl
    | error fs => rwa [hr] at hv
  follows v f hf := by
    split at hf
    · obtain ⟨c, -, rfl⟩ := Option.map_eq_some_iff.mp (Option.mem_toList.mp hf)
      exact .here
    · exact h.follows v f hf
  place := h.place
  tidy v f hf a b hab := by
    split at hf
    · obtain ⟨c, -, rfl⟩ := Option.map_eq_some_iff.mp (Option.mem_toList.mp hf)
      trivial
    · exact h.tidy v f hf a b hab

def nullable (h : Tracing s.read) : Tracing (Shape.nullable s).read where
  faults v := if v.isNull then [] else h.faults v
  told v := by
    by_cases hv : v = .null
    · subst hv
      rfl
    · rw [Shape.nullable_of_ne hv, faultsOf_map, h.told, if_neg (mt Value.isNull_iff.mp hv)]
  follows v f hf := by
    split at hf
    · cases hf
    · exact h.follows v f hf
  place := h.place
  tidy v f hf a b hab := by
    split at hf
    · cases hf
    · exact h.tidy v f hf a b hab

/-! ## Collections -/

def itemFaults (h : Tracing read) (v : Value) (n : Nat) (vs : List Value) : List TracedFault :=
  (vs.zipIdx n).flatMap fun w => (h.faults w.1).map (.under (.into v w.2))

theorem told_items (h : Tracing s.read) (v : Value) (n : Nat) (vs : List Value) :
    faultsOf (Shape.readItems s n vs) = (h.itemFaults v n vs).map TracedFault.fault := by
  induction vs generalizing n with
  | nil => rfl
  | cons w vs ih =>
    rw [Shape.readItems, faultsOf_apply, faultsOf_map, faultsOf_under, h.told, ih, itemFaults, itemFaults, List.zipIdx_cons,
      List.flatMap_cons, List.map_append, List.map_map, List.map_map]
    congr 2
    funext f
    simp

theorem mem_itemFaults {h : Tracing read} {v : Value} {vs : List Value} {f : TracedFault} :
    f ∈ h.itemFaults v 0 vs ↔ ∃ n w, vs[n]? = some w ∧ ∃ g ∈ h.faults w, f = g.under (.into v n) := by
  simp only [itemFaults, List.mem_flatMap, List.mem_map, Prod.exists, List.mk_mem_zipIdx_iff_getElem?]
  constructor
  · rintro ⟨w, n, hw, g, hg, rfl⟩
    exact ⟨n, w, hw, g, hg, rfl⟩
  · rintro ⟨n, w, hw, g, hg, rfl⟩
    exact ⟨w, n, hw, g, hg, rfl⟩

def items (h : Tracing s.read) (kind : SequenceKind) : Tracing (Shape.items kind s).read where
  faults v :=
    match Shape.itemsOf? v with
    | some vs => h.itemFaults v 0 vs
    | none => [⟨[], .sequence kind⟩]
  told v := by
    simp only [Shape.items]
    cases Shape.itemsOf? v with
    | none => rfl
    | some vs => exact h.told_items v 0 vs
  follows v f hf := by
    split at hf
    · rename_i vs hvs
      obtain ⟨n, w, hw, g, hg, rfl⟩ := mem_itemFaults.mp hf
      exact .into hvs hw (h.follows w g hg)
    · rw [List.mem_singleton.mp hf]
      exact .here
  place := h.place.ofItems
  tidy v f hf a b hab := by
    split at hf
    · obtain ⟨n, w, hw, g, hg, rfl⟩ := mem_itemFaults.mp hf
      refine ⟨?_, ?_⟩
      · rw [TrailStep.step_into, TrailStep.isTag_into, isTagStep_index]
      · rw [TrailStep.step_into]
        exact h.tidy w g hg _ _ (Place.fits_items hab)
    · rw [List.mem_singleton.mp hf]
      trivial

def emptyFaults (s : Shape α) (v : Value) : List TracedFault :=
  match Shape.itemsOf? v, (Shape.tuple s).read v with
  | some _, .ok [] => [⟨[], .sequenceEmpty⟩]
  | some vs, .error _ => if vs.all fun v => !(s.read v).isOk then [⟨[], .sequenceEmpty⟩] else []
  | _, _ => []

theorem trail_of_empty {v : Value} {f : TracedFault} (h : f ∈ emptyFaults s v) : f.trail = [] := by
  unfold emptyFaults at h
  split at h
  · rw [List.mem_singleton.mp h]
  · split at h
    · rw [List.mem_singleton.mp h]
    · cases h
  · cases h

def filledTuple (h : Tracing s.read) : Tracing (Shape.filledTuple s).read where
  faults v := (h.items .tuple).faults v ++ emptyFaults s v
  told v := by
    have ht : faultsOf ((Shape.tuple s).read v) = _ := (h.items .tuple).told v
    rw [List.map_append, ← ht, emptyFaults]
    simp only [Shape.filledTuple]
    cases Shape.itemsOf? v with
    | none => simp
    | some vs =>
      cases (Shape.tuple s).read v with
      | ok as => cases as <;> rfl
      | error fs =>
        dsimp only
        split <;> simp [TracedFault.fault, Trail.location]
  follows v f hf := by
    rcases List.mem_append.mp hf with hf | hf
    · exact (h.items .tuple).follows v f hf
    · exact trail_of_empty hf ▸ .here
  place := h.place.ofItems
  tidy v f hf a b hab := by
    rcases List.mem_append.mp hf with hf | hf
    · exact (h.items .tuple).tidy v f hf a b hab
    · exact trail_of_empty hf ▸ trivial

/-! ## Mappings -/

def labelFaults (k : Scalar) : List TracedFault :=
  (faultsOf (Shape.text.read (.scalar k))).map fun f => ⟨[.member k, .label], f.cause⟩

theorem told_label (k : Scalar) :
    (faultsOf (Shape.text.read (.scalar k))).map (.under (Shape.stepOfKey k) ∘ .under (.key "[key]")) =
      (labelFaults k).map TracedFault.fault := by
  rw [labelFaults, List.map_map]
  refine List.map_congr_left fun f hf => ?_
  change ShapeFault.mk (Shape.stepOfKey k :: .key "[key]" :: f.location) f.cause = _
  rw [Shape.Leaf.location (s := Shape.text) _ f hf]
  rfl

theorem mem_labelFaults {k : Scalar} {f : TracedFault} (h : f ∈ labelFaults k) :
    f.trail = [.member k, .label] ∧ ∀ s, k ≠ .text s := by
  obtain ⟨g, hg, rfl⟩ := List.mem_map.mp h
  refine ⟨rfl, ?_⟩
  rintro s rfl
  cases hg

def entryFaults (h : Tracing read) (ms : Members) : List TracedFault :=
  ms.flatMap fun m => labelFaults m.1 ++ (h.faults m.2).map (.under (.member m.1))

theorem told_entries (h : Tracing s.read) (ms : Members) :
    faultsOf (Shape.readEntries s ms) = (h.entryFaults ms).map TracedFault.fault := by
  induction ms with
  | nil => rfl
  | cons m ms ih =>
    obtain ⟨k, v⟩ := m
    rw [Shape.readEntries, faultsOf_apply, faultsOf_map, faultsOf_apply, faultsOf_map, faultsOf_under, faultsOf_under,
      faultsOf_under, List.map_map, told_label, h.told, ih, entryFaults, entryFaults, List.flatMap_cons, List.map_append,
      List.map_append, List.map_map, List.map_map]
    rfl

def entries (h : Tracing s.read) (hp : h.place = .anywhere) : Tracing (Shape.entries s).read where
  faults
    | .mapping ms => h.entryFaults ms
    | _ => [⟨[], .dictionary⟩]
  told v := by
    cases v with
    | mapping ms => exact (faultsOf_map _ _).trans (h.told_entries ms)
    | scalar | list | tuple | set => rfl
  follows v f hf := by
    split at hf
    · obtain ⟨m, hm, hf⟩ := List.mem_flatMap.mp hf
      rcases List.mem_append.mp hf with hf | hf
      · obtain ⟨ht, hk⟩ := mem_labelFaults hf
        exact ht ▸ .label hm hk
      · obtain ⟨g, hg, rfl⟩ := List.mem_map.mp hf
        exact .member hm (h.follows m.2 g hg)
    · exact List.mem_singleton.mp hf ▸ .here
  place := .untagged
  tidy v f hf a b hab := by
    have hfree (k : Scalar) : Trail.Free b (Shape.stepOfKey k) := by
      cases Shape.stepOfKey k with
      | key key => exact Trail.free_key b key
      | index n => exact hab.2 n
    split at hf
    · obtain ⟨m, -, hf⟩ := List.mem_flatMap.mp hf
      rcases List.mem_append.mp hf with hf | hf
      · rw [(mem_labelFaults hf).1]
        exact ⟨hab.1 _, hfree m.1 _, trivial⟩
      · obtain ⟨g, hg, rfl⟩ := List.mem_map.mp hf
        exact ⟨hab.1 _, h.tidy m.2 g hg _ _ (hp ▸ hfree m.1)⟩
    · exact List.mem_singleton.mp hf ▸ trivial

/-! ## Shorthands -/

/-- A preparation that makes a list of a single text, and leaves other values their items. -/
def Widens (prepare : Value → Value) : Prop :=
  ∀ v, (∃ t w, v = .text t ∧ prepare v = .list [w]) ∨
    (∃ vs ws, (v = .list vs ∨ v = .tuple vs) ∧ prepare v = .list ws ∧ ws.length = vs.length) ∨ prepare v = v

def unwidened (v : Value) (s : TrailStep) : TrailStep :=
  match v with
  | .scalar (.text _) => .sole
  | _ => s

theorem trail_of_items [h : s.Leaf] {v : Value} {f : TracedFault} (hf : f ∈ (filledTuple h.tracing).faults v) :
    f.trail = [] ∨ ∃ vs n, Shape.itemsOf? v = some vs ∧ n < vs.length ∧ f.trail = [.into v n] := by
  rcases List.mem_append.mp hf with hf | hf
  · simp only [items] at hf
    split at hf
    · rename_i vs hvs
      obtain ⟨n, w, hw, g, hg, rfl⟩ := mem_itemFaults.mp hf
      obtain ⟨-, -, rfl⟩ := List.mem_map.mp hg
      exact .inr ⟨vs, n, hvs, (List.getElem?_eq_some_iff.mp hw).1, rfl⟩
    · exact .inl (List.mem_singleton.mp hf ▸ rfl)
  · exact .inl (trail_of_empty hf)

/-- The faults of a prepared sequence have trails of a step at most, into the value as it was. -/
theorem trail_of_prepared [h : s.Leaf] {prepare : Value → Value} (hp : Widens prepare) {v : Value} {f : TracedFault}
    (hf : f ∈ (filledTuple h.tracing).faults (prepare v)) :
    Trail.Follows v (f.trail.map (unwidened v)) ∧
      Trail.location (f.trail.map (unwidened v)) = f.trail.location ∧
      ∀ a b, Trail.Tidy a b (f.trail.map (unwidened v)) := by
  rcases trail_of_items hf with ht | ⟨vs, n, hvs, hn, ht⟩
  · rw [ht]
    exact ⟨.here, rfl, fun _ _ => trivial⟩
  · rw [ht]
    rcases hp v with ⟨t, w, rfl, he⟩ | ⟨us, ws, hv, he, hlength⟩ | he
    · rw [he] at hvs
      cases hvs
      have hn0 : n = 0 := by simpa using hn
      rw [he, hn0]
      exact ⟨.sole, rfl, fun a b => ⟨isTagStep_index a b 0, trivial⟩⟩
    · rw [he] at hvs
      cases hvs
      rw [he]
      have hu : unwidened v (.into (.list vs) n) = .item n := by rcases hv with rfl | rfl <;> rfl
      rw [List.map_singleton, hu]
      exact ⟨.item hv (List.getElem?_eq_getElem (hlength ▸ hn)) .here, rfl, fun a b => ⟨isTagStep_index a b n, trivial⟩⟩
    · rw [he] at hvs ⊢
      have hu : unwidened v (.into v n) = .into v n := by
        cases v with
        | scalar => cases hvs
        | list | tuple | set | mapping => rfl
      rw [List.map_singleton, hu]
      refine ⟨.into hvs (List.getElem?_eq_getElem hn) .here, rfl, fun a b => ⟨?_, trivial⟩⟩
      rw [TrailStep.step_into, TrailStep.isTag_into, isTagStep_index]

def prepared (h : s.Leaf) {prepare : Value → Value} (hp : Widens prepare) :
    Tracing ((Shape.filledTuple s).prepared prepare).read where
  faults v := ((filledTuple h.tracing).faults (prepare v)).map fun f => ⟨f.trail.map (unwidened v), f.cause⟩
  told v := by
    change faultsOf ((Shape.filledTuple s).read (prepare v)) = _
    rw [(filledTuple h.tracing).told, List.map_map]
    refine List.map_congr_left fun f hf => ?_
    exact congrArg (ShapeFault.mk · f.cause) (trail_of_prepared hp hf).2.1.symm
  follows v f hf := by
    obtain ⟨g, hg, rfl⟩ := List.mem_map.mp hf
    exact (trail_of_prepared hp hg).1
  place := .anywhere
  tidy v f hf a b _ := by
    obtain ⟨g, hg, rfl⟩ := List.mem_map.mp hf
    exact (trail_of_prepared hp hg).2.2 a b

end

end Tracing

/-! ## Nodes -/

class Fields.Traced {ρ α : Type} (fs : Fields ρ α) where
  faults : Members → List TracedFault
  told : ∀ ms, faultsOf (fs.read ms) = (faults ms).map TracedFault.fault
  follows : ∀ ms, ∀ f ∈ faults ms, f.trail.Follows (.mapping ms)
  /-- Whether every field has its place behind its key. -/
  suits : Bool
  tidy : suits = true → ∀ ms, ∀ f ∈ faults ms, ∀ a b, Trail.Free a b → f.trail.Tidy a b

theorem Members.mem_of_get? {ms : Members} {key : String} {v : Value} (h : ms.get? key = some v) : (.text key, v) ∈ ms := by
  obtain ⟨m, hm, rfl⟩ := Option.map_eq_some_iff.mp h
  have hk : m.1 = .text key := by
    have := List.find?_some hm
    cases hm1 : m.1 <;> simp [hm1, Scalar.sameKey, Scalar.keyNumber?] at this ⊢
    exact this
  exact hk ▸ List.mem_of_find?_eq_some hm

namespace Fields

section
variable {ρ σ α β : Type} {fs : Fields ρ (α → β)} {s : Shape α} {get : ρ → α}

theorem get?_of_spelling {ms : Members} {spellings : List String} {k : String} (h : spelling? ms spellings = some k) :
    k ∈ spellings ∧ ∃ v, ms.get? k = some v :=
  ⟨List.mem_of_find?_eq_some h, Option.isSome_iff_exists.mp (List.find?_some (p := fun k => (ms.get? k).isSome) h)⟩

theorem get?_of_no_spelling {ms : Members} {key : String} {more : List String} (h : spelling? ms (key :: more) = none) :
    ms.get? key = none := by
  simpa using List.find?_eq_none.mp h key (by simp)

def memberFaults (h : Tracing s.read) (spellings : List String) (fallback : Option α) (ms : Members) : List TracedFault :=
  match spelling? ms spellings with
  | some k => (ms.get? k).elim [] fun v => (h.faults v).map (.under (.member (.text k)))
  | none => if fallback.isSome then [] else [⟨[.absent (spellings.headD "")], .missing⟩]

theorem told_member (h : Tracing s.read) (spellings : List String) (fallback : Option α) (ms : Members) :
    faultsOf (readMember spellings s fallback ms) = (memberFaults h spellings fallback ms).map TracedFault.fault := by
  unfold readMember memberFaults
  cases hs : spelling? ms spellings with
  | none => cases fallback <;> rfl
  | some k =>
    obtain ⟨-, v, hv⟩ := get?_of_spelling hs
    simp only [hv, faultsOf_under, h.told, List.map_map, Option.elim_some]
    rfl

theorem mem_memberFaults {h : Tracing s.read} {key : String} {more : List String} {fallback : Option α} {ms : Members}
    {f : TracedFault} (hf : f ∈ memberFaults h (key :: more) fallback ms) :
    (∃ k ∈ key :: more, ∃ v, ms.get? k = some v ∧ ∃ g ∈ h.faults v, f = g.under (.member (.text k))) ∨
      ms.get? key = none ∧ f.trail = [.absent key] := by
  unfold memberFaults at hf
  cases hs : spelling? ms (key :: more) with
  | some k =>
    obtain ⟨hk, v, hv⟩ := get?_of_spelling hs
    simp only [hs, hv, Option.elim_some, List.mem_map] at hf
    obtain ⟨g, hg, rfl⟩ := hf
    exact .inl ⟨k, hk, v, hv, g, hg, rfl⟩
  | none =>
    simp only [hs] at hf
    split at hf
    · cases hf
    · exact .inr ⟨get?_of_no_spelling hs, List.mem_singleton.mp hf ▸ rfl⟩

instance {a : α} : (Fields.of a : Fields ρ α).Traced where
  faults _ := []
  told _ := rfl
  follows _ _ := nofun
  suits := true
  tidy _ _ _ := nofun

@[reducible]
def Traced.extended {γ δ : Type} {fs : Fields ρ γ} {fs' : Fields ρ δ} (hfs : fs.Traced) (hs : Tracing s.read) {key : String}
    {more : List String} {fallback : Option α} (hr : ∀ ms, faultsOf (fs'.read ms) =
      faultsOf (fs.read ms) ++ faultsOf (readMember (key :: more) s fallback ms)) : fs'.Traced where
  faults ms := hfs.faults ms ++ memberFaults hs (key :: more) fallback ms
  told ms := by rw [hr, hfs.told, told_member hs, List.map_append]
  follows ms f hf := by
    rcases List.mem_append.mp hf with hf | hf
    · exact hfs.follows ms f hf
    · rcases mem_memberFaults hf with ⟨k, -, v, hv, g, hg, rfl⟩ | ⟨hnone, ht⟩
      · exact .member (Members.mem_of_get? hv) (hs.follows v g hg)
      · exact ht ▸ .absent hnone
  suits := hfs.suits && (key :: more).all hs.place.suits
  tidy hsuits ms f hf a b hab := by
    obtain ⟨hrest, hkeys⟩ := Bool.and_eq_true_iff.mp hsuits
    rcases List.mem_append.mp hf with hf | hf
    · exact hfs.tidy hrest ms f hf a b hab
    · rcases mem_memberFaults hf with ⟨k, hk, v, hv, g, hg, rfl⟩ | ⟨hnone, ht⟩
      · exact ⟨hab _, hs.tidy v g hg _ _ (Place.fits_behind_key (List.all_eq_true.mp hkeys k hk) b)⟩
      · exact ht ▸ ⟨hab _, trivial⟩

instance [hfs : fs.Traced] [hs : s.Traced] {key : String} {more : List String} {fallback : Option α} :
    (fs.spelled (key :: more) s fallback get).Traced :=
  hfs.extended hs.tracing fun _ => faultsOf_apply _ _

instance [fs.Traced] [s.Traced] {key : String} : (fs.field key s get).Traced :=
  inferInstanceAs (fs.spelled [key] s none get).Traced

instance [fs.Traced] [s.Traced] {key : String} {otherwise : α} : (fs.fieldOr key s otherwise get).Traced :=
  inferInstanceAs (fs.spelled [key] s (some otherwise) get).Traced

instance {fs : Fields ρ α} {key text : String} [hfs : fs.Traced] : (fs.constant key text).Traced := by
  have hread (ms : Members) : faultsOf ((fs.constant key text).read ms) =
      faultsOf (fs.read ms) ++ faultsOf (readMember [key] (Shape.oneOf [text]) none ms) :=
    (faultsOf_apply _ _).trans (congrArg (· ++ _) (faultsOf_map _ _))
  exact hfs.extended Shape.Traced.tracing hread

instance {inner : Fields σ α} {get : ρ → σ} [hfs : fs.Traced] [hi : inner.Traced] : (fs.part inner get).Traced where
  faults ms := hfs.faults ms ++ hi.faults ms
  told ms := by
    change faultsOf (ShapeResult.apply (fs.read ms) (inner.read ms)) = _
    rw [faultsOf_apply, hfs.told, hi.told, List.map_append]
  follows ms f hf := by
    rcases List.mem_append.mp hf with hf | hf
    · exact hfs.follows ms f hf
    · exact hi.follows ms f hf
  suits := hfs.suits && hi.suits
  tidy hsuits ms f hf a b hab := by
    obtain ⟨houter, hinner⟩ := Bool.and_eq_true_iff.mp hsuits
    rcases List.mem_append.mp hf with hf | hf
    · exact hfs.tidy houter ms f hf a b hab
    · exact hi.tidy hinner ms f hf a b hab

def strangerFaults (keys : List (List String)) (ms : Members) : List TracedFault :=
  let known := keys.filterMap (spelling? ms)
  ms.filterMap fun m =>
    match m.1 with
    | .text k => if known.contains k then none else some ⟨[.member (.text k)], .unknown⟩
    | k => some ⟨[.member k], .key⟩

theorem told_strangers (keys : List (List String)) (ms : Members) :
    strangers keys ms = (strangerFaults keys ms).map TracedFault.fault := by
  simp only [strangers, strangerFaults, List.map_filterMap]
  refine List.filterMap_congr fun m _ => ?_
  cases m.1 with
  | text k =>
    dsimp only
    split <;> rfl
  | _ => rfl

theorem mem_strangerFaults {keys : List (List String)} {ms : Members} {f : TracedFault} (h : f ∈ strangerFaults keys ms) :
    ∃ m ∈ ms, f.trail = [.member m.1] := by
  obtain ⟨m, hm, hf⟩ := List.mem_filterMap.mp h
  refine ⟨m, hm, ?_⟩
  split at hf
  · split at hf
    · cases hf
    · cases hf
      simp [*]
  · cases hf
    rfl

end

end Fields

namespace Tracing

section
variable {α : Type}

def node {fs : Fields α α} (h : fs.Traced) (hs : h.suits = true) (name : String) : Tracing (Shape.node name fs).read where
  faults
    | .mapping ms => h.faults ms ++ Fields.strangerFaults fs.keys ms
    | _ => [⟨[], .node name⟩]
  told v := by
    cases v with
    | mapping ms =>
      change faultsOf (Shape.readNode fs ms) = _
      rw [Shape.readNode, faultsOf_apply, faultsOf_map, h.told, List.map_append, ← Fields.told_strangers]
      split
      · simp [*]
      · rfl
    | scalar | list | tuple | set => rfl
  follows v f hf := by
    split at hf
    · rcases List.mem_append.mp hf with hf | hf
      · exact h.follows _ f hf
      · obtain ⟨m, hm, ht⟩ := Fields.mem_strangerFaults hf
        exact ht ▸ .member hm .here
    · exact List.mem_singleton.mp hf ▸ .here
  place := .anywhere
  tidy v f hf a b hab := by
    split at hf
    · rcases List.mem_append.mp hf with hf | hf
      · exact h.tidy hs _ f hf a b hab
      · obtain ⟨m, -, ht⟩ := Fields.mem_strangerFaults hf
        exact ht ▸ ⟨hab _, trivial⟩
    · exact List.mem_singleton.mp hf ▸ trivial

/-! ## Nodes of several shapes -/

/-- Branches whose faults are told with their trails, which may begin behind any tag. -/
def Branches : List (String × (Value → ShapeResult α)) → Type
  | [] => Unit
  | b :: bs => { h : Tracing b.2 // h.place = .anywhere } × Branches bs

def branchFaults : (bs : List (String × (Value → ShapeResult α))) → Branches bs → String → Value → List TracedFault
  | [], _, _, _ => []
  | b :: bs, (h, hs), tag, v => if b.1 == tag then (h.1.faults v).map (.under (.tag b.1)) else branchFaults bs hs tag v

theorem told_branches {bs : List (String × (Value → ShapeResult α))} (hs : Branches bs) {tag : String}
    {b : String × (Value → ShapeResult α)} (hb : bs.find? (fun b => b.1 == tag) = some b) (v : Value) :
    faultsOf ((b.2 v).under (.key b.1)) = (branchFaults bs hs tag v).map TracedFault.fault := by
  induction bs with
  | nil => cases hb
  | cons c bs ih =>
    obtain ⟨h, hs⟩ := hs
    rw [List.find?_cons] at hb
    rw [branchFaults]
    cases hc : c.1 == tag with
    | true =>
      simp only [hc, Option.some.injEq] at hb
      subst hb
      rw [if_pos rfl, faultsOf_under, h.1.told, List.map_map, List.map_map]
      rfl
    | false =>
      simp only [hc] at hb
      rw [if_neg (by simp), ih hs hb]

theorem mem_branchFaults {bs : List (String × (Value → ShapeResult α))} {hs : Branches bs} {tag : String} {v : Value}
    {f : TracedFault} (hf : f ∈ branchFaults bs hs tag v) : tag ∈ bs.map Prod.fst ∧
      ∃ t : Trail, f.trail = .tag tag :: t ∧ t.Follows v ∧ ∀ a b, Trail.Free a b → t.Tidy a b := by
  induction bs with
  | nil => cases hf
  | cons c bs ih =>
    obtain ⟨h, hs⟩ := hs
    rw [branchFaults] at hf
    split at hf
    · rename_i hc
      obtain ⟨g, hg, rfl⟩ := List.mem_map.mp hf
      have hc : c.1 = tag := by simpa using hc
      refine ⟨by simp [hc], g.trail, by rw [← hc]; rfl, h.1.follows v g hg, fun a b hab => ?_⟩
      refine h.1.tidy v g hg a b ?_
      rwa [h.2]
    · obtain ⟨htag, ht⟩ := ih hf
      exact ⟨List.mem_cons_of_mem _ htag, ht⟩

def tagged {field : String} {bs : List (String × (Value → ShapeResult α))} (hs : Branches bs) :
    Tracing (Shape.readTagged field bs) where
  faults
    | .mapping ms =>
      match Members.get? ms field with
      | none => [⟨[], .noTag field⟩]
      | some t =>
        match t.asText?.bind fun s => bs.find? fun b => b.1 == s with
        | some b => branchFaults bs hs b.1 (.mapping ms)
        | none => [⟨[], .tag field t.plainText (bs.map Prod.fst)⟩]
    | _ => [⟨[], .union⟩]
  told v := by
    cases v with
    | mapping ms =>
      simp only [Shape.readTagged]
      cases Members.get? ms field with
      | none => rfl
      | some t =>
        dsimp only
        cases hb : t.asText?.bind fun s => bs.find? fun b => b.1 == s with
        | none => rfl
        | some b =>
          obtain ⟨s, -, hb⟩ := Option.bind_eq_some_iff.mp hb
          have hs' : b.1 = s := by simpa using List.find?_some hb
          exact told_branches hs (hs' ▸ hb) _
    | scalar | list | tuple | set => rfl
  follows v f hf := by
    split at hf
    · rename_i ms
      split at hf
      · exact List.mem_singleton.mp hf ▸ .here
      · rename_i t ht
        split at hf
        · rename_i b hb
          obtain ⟨s, hs', hb⟩ := Option.bind_eq_some_iff.mp hb
          obtain ⟨-, u, hu, hfollows, -⟩ := mem_branchFaults hf
          have hs1 : b.1 = s := by simpa using List.find?_some hb
          have ht' : t = .text s := by
            unfold Value.asText? at hs'
            split at hs'
            · cases hs'
              rfl
            · cases hs'
          exact hu ▸ .tag (hs1 ▸ ht' ▸ ht) hfollows
        · exact List.mem_singleton.mp hf ▸ .here
    · exact List.mem_singleton.mp hf ▸ .here
  place := .tagged (bs.map Prod.fst)
  tidy v f hf a b hab := by
    split at hf
    · split at hf
      · exact List.mem_singleton.mp hf ▸ trivial
      · split at hf
        · obtain ⟨htag, u, hu, -, htidy⟩ := mem_branchFaults hf
          exact hu ▸ ⟨hab _ htag, htidy _ _ (Trail.free_key b _)⟩
        · exact List.mem_singleton.mp hf ▸ trivial
    · exact List.mem_singleton.mp hf ▸ trivial

end

end Tracing

end Workflow
