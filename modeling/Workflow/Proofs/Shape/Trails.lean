import Mathlib.Data.List.Basic
import Workflow.Manifest
import Workflow.Output
import Workflow.Proofs.Shape.Stable

/-!
# Trails of faults

A reader tells where a fault lies by the steps that led it there. Some of them lead into the value, the others the
reader adds: the tag of a node, the type that a scalar was tried as, the position of an item in a set. Along the
combinators that shapes are made of, each fault is told with its trail, and every trail follows the value that was read.
-/

namespace Workflow

open OutputType (faultsOf)

/-! ## Trails -/

/-- A step of a reader on its way to a fault. -/
inductive TrailStep where
  /-- Into the member with a key. -/
  | member (k : Scalar)
  /-- Into an item of a list or a tuple. -/
  | item (n : Nat)
  /-- To a member that is not there. -/
  | absent (key : String)
  /-- The tag of a node that can have several shapes. -/
  | tag (name : String)
  /-- One of the types that a scalar was tried as. -/
  | branch (name : String)
  /-- The key of a member and not its value. -/
  | label
  /-- An element of a set, by the order in which it was read. -/
  | element (n : Nat)
  /-- The only item of the list that a single text stands for. -/
  | sole
  deriving DecidableEq

namespace TrailStep

def step : TrailStep → PathStep
  | member k => Shape.stepOfKey k
  | item n => .index n
  | absent key => .key key
  | tag name => .key name
  | branch name => .key name
  | label => .key "[key]"
  | element n => .index n
  | sole => .index 0

def isOwn : TrailStep → Bool
  | member _ | item _ | absent _ => true
  | _ => false

def isTag : TrailStep → Bool
  | tag _ => true
  | _ => false

def into (v : Value) (n : Nat) : TrailStep :=
  match v with
  | .set _ => element n
  | _ => item n

@[simp] theorem step_into (v : Value) (n : Nat) : (into v n).step = .index n := by
  cases v <;> rfl

@[simp] theorem isTag_into (v : Value) (n : Nat) : (into v n).isTag = false := by
  cases v <;> rfl

end TrailStep

theorem isTagStep_index (a b : PathStep) (n : Int) : isTagStep a b (.index n) = false := by
  cases b <;> rfl

abbrev Trail := List TrailStep

namespace Trail

def location (t : Trail) : Location := t.map TrailStep.step

/-- The steps that lead into the document. -/
def own (t : Trail) : Location := (t.filter TrailStep.isOwn).map TrailStep.step

/-- A trail through a value. Steps that the reader adds do not lead on. -/
inductive Follows : Value → Trail → Prop
  | here {v : Value} : Follows v []
  | member {ms : Members} {k : Scalar} {w : Value} {t : Trail} : (k, w) ∈ ms → Follows w t →
      Follows (.mapping ms) (.member k :: t)
  | item {v w : Value} {vs : List Value} {n : Nat} {t : Trail} : v = .list vs ∨ v = .tuple vs → vs[n]? = some w →
      Follows w t → Follows v (.item n :: t)
  | absent {ms : Members} {key : String} : Members.get? ms key = none → Follows (.mapping ms) [.absent key]
  | tag {ms : Members} {field name : String} {t : Trail} : Members.get? ms field = some (.text name) →
      Follows (.mapping ms) t → Follows (.mapping ms) (.tag name :: t)
  | branch {v : Value} {name : String} : (∀ a, Shape.literal.read v ≠ .ok a) → Follows v [.branch name]
  | label {ms : Members} {k : Scalar} {w : Value} : (k, w) ∈ ms → (∀ s, k ≠ .text s) →
      Follows (.mapping ms) [.member k, .label]
  | element {w : Value} {vs : List Value} {n : Nat} {t : Trail} : vs[n]? = some w → Follows w t →
      Follows (.set vs) (.element n :: t)
  | sole {s : String} : Follows (.text s) [.sole]

theorem Follows.into {v w : Value} {vs : List Value} {n : Nat} {t : Trail} (hi : Shape.itemsOf? v = some vs)
    (hw : vs[n]? = some w) (h : t.Follows w) : Follows v (TrailStep.into v n :: t) := by
  cases v with
  | scalar | mapping => cases hi
  | list =>
    cases hi
    exact .item (.inl rfl) hw h
  | tuple =>
    cases hi
    exact .item (.inr rfl) hw h
  | set =>
    cases hi
    exact .element hw h

/-! ## Tags by their places -/

/-- Behind two steps no tag is expected. -/
def Free (a b : PathStep) : Prop := ∀ c, isTagStep a b c = false

theorem free_key (a : PathStep) (key : String) : Free a (.key key) := fun _ => rfl

theorem free_of_untagged {a b : PathStep} (h : tagsIn a.text = []) : Free a b := by
  intro c
  unfold isTagStep
  split
  · simp [h]
  · rfl

/-- Behind two steps the tags of a trail are where tags are expected, and nothing else looks like one. -/
def Tidy : PathStep → PathStep → Trail → Prop
  | _, _, [] => True
  | a, b, s :: t => isTagStep a b s.step = s.isTag ∧ Tidy b s.step t

def untagged (t : Trail) : Trail := t.filter fun s => !s.isTag

theorem withoutTags_location {a b : PathStep} {t : Trail} (h : Tidy a b t) :
    withoutTags a b t.location = t.untagged.location := by
  induction t generalizing a b with
  | nil => rfl
  | cons s t ih =>
    obtain ⟨hs, ht⟩ := h
    have hrest := ih ht
    change withoutTags a b (s.step :: location t) = _
    rw [withoutTags, hs, hrest]
    cases hst : s.isTag with
    | true => simp [untagged, hst]
    | false => simp [untagged, hst, location]

/-- A location without the steps that look like tags is the trail without its tags. -/
theorem documentLocation_location {t : Trail} (h : Tidy (.key "") (.key "") t) :
    documentLocation t.location = t.untagged.location := by
  rw [← withoutTags_location h]
  match t.location with
  | [] | [_] => rfl
  | a :: b :: rest =>
    have hb : isTagStep (.key "") a b = false := free_of_untagged rfl b
    simp [documentLocation, withoutTags, hb, free_key (.key "") "" a]

/-- Nothing but tags is added to a trail. -/
def Plain (t : Trail) : Prop := ∀ s ∈ t, s.isOwn = true ∨ s.isTag = true

theorem own_eq (t : Trail) : t.own = (t.untagged.filter TrailStep.isOwn).map TrailStep.step := by
  rw [own, untagged, List.filter_filter]
  congr 1
  refine List.filter_congr fun s _ => ?_
  cases s <;> rfl

theorem own_sublist {t : Trail} (h : Tidy (.key "") (.key "") t) : t.own.Sublist (documentLocation t.location) := by
  rw [documentLocation_location h, own_eq]
  exact List.filter_sublist.map _

/-- A location without tags is the path in the document if and only if nothing else was added to it. -/
theorem documentLocation_eq_own {t : Trail} (h : Tidy (.key "") (.key "") t) :
    documentLocation t.location = t.own ↔ t.Plain := by
  rw [documentLocation_location h, own_eq]
  constructor
  · intro he s hs
    have hlength := congrArg List.length he
    rw [location, List.length_map, List.length_map, eq_comm, List.length_filter_eq_length_iff] at hlength
    cases ht : s.isTag with
    | true => exact .inr rfl
    | false => exact .inl (hlength s (List.mem_filter.mpr ⟨hs, by simp [ht]⟩))
  · intro hp
    rw [List.filter_eq_self.mpr, location]
    intro s hs
    obtain ⟨hs, ht⟩ := List.mem_filter.mp hs
    rcases hp s hs with ho | ht'
    · exact ho
    · simp [ht'] at ht

end Trail

/-- Where the trails of a shape may begin. -/
inductive Place where
  /-- Wherever no tag is expected. -/
  | anywhere
  /-- Where no tag is expected, nor behind a further position. -/
  | untagged
  /-- Where these tags are expected. -/
  | tagged (tags : List String)
  /-- Where these tags are expected behind a further position. -/
  | above (tags : List String)
  | nowhere
  deriving DecidableEq

namespace Place

def Fits : Place → PathStep → PathStep → Prop
  | anywhere, a, b => Trail.Free a b
  | untagged, a, b => Trail.Free a b ∧ ∀ n, Trail.Free b (.index n)
  | tagged tags, a, b => ∀ t ∈ tags, isTagStep a b (.key t) = true
  | above tags, _, b => ∀ n, ∀ t ∈ tags, isTagStep b (.index n) (.key t) = true
  | nowhere, _, _ => False

def ofItems : Place → Place
  | anywhere => untagged
  | tagged tags => above tags
  | _ => nowhere

def suits (key : String) : Place → Bool
  | anywhere => true
  | untagged => tagsIn key == []
  | above tags => tags.all (tagsIn key).contains
  | _ => false

theorem fits_items {p : Place} {a b : PathStep} {n : Int} (h : p.ofItems.Fits a b) : p.Fits b (.index n) := by
  cases p with
  | anywhere => exact h.2 n
  | tagged tags => exact h n
  | untagged | above | nowhere => cases h

theorem fits_behind_key {p : Place} {key : String} (h : p.suits key = true) (a : PathStep) : p.Fits a (.key key) := by
  cases p with
  | anywhere => exact Trail.free_key a key
  | untagged => exact ⟨Trail.free_key a key, fun n => Trail.free_of_untagged (beq_iff_eq.mp h)⟩
  | above tags =>
    intro n t ht
    exact List.all_eq_true.mp h t ht
  | tagged | nowhere => cases h

end Place

/-! ## Faults -/

/-- A fault with the trail to it. -/
structure TracedFault where
  trail : Trail
  cause : ShapeCause
  deriving DecidableEq

namespace TracedFault

/-- The fault as the reader tells it. -/
def fault (f : TracedFault) : ShapeFault := ⟨f.trail.location, f.cause⟩

def under (s : TrailStep) (f : TracedFault) : TracedFault := ⟨s :: f.trail, f.cause⟩

@[simp] theorem fault_under (s : TrailStep) (f : TracedFault) : (f.under s).fault = f.fault.under s.step := rfl

end TracedFault

section
variable {α β : Type}

@[simp] theorem faultsOf_ok (a : α) : faultsOf (.ok a : ShapeResult α) = [] := rfl

@[simp] theorem faultsOf_error (fs : List ShapeFault) : faultsOf (.error fs : ShapeResult α) = fs := rfl

@[simp] theorem faultsOf_refuse (c : ShapeCause) : faultsOf (refuse c : ShapeResult α) = [⟨[], c⟩] := rfl

@[simp] theorem faultsOf_map (f : α → β) (r : ShapeResult α) : faultsOf (Except.map f r) = faultsOf r := by
  cases r <;> rfl

@[simp] theorem faultsOf_under (s : PathStep) (r : ShapeResult α) :
    faultsOf (r.under s) = (faultsOf r).map (ShapeFault.under s) := by
  cases r <;> rfl

@[simp] theorem faultsOf_apply (f : ShapeResult (α → β)) (r : ShapeResult α) :
    faultsOf (f.apply r) = faultsOf f ++ faultsOf r := by
  cases f <;> cases r <;> simp [ShapeResult.apply]

end

structure Tracing {α : Type} (read : Value → ShapeResult α) where
  faults : Value → List TracedFault
  told : ∀ v, faultsOf (read v) = (faults v).map TracedFault.fault
  follows : ∀ v, ∀ f ∈ faults v, f.trail.Follows v
  place : Place
  tidy : ∀ v, ∀ f ∈ faults v, ∀ a b, place.Fits a b → f.trail.Tidy a b

class Shape.Traced {α : Type} (s : Shape α) where
  tracing : Tracing s.read

namespace Shape

/-- A shape that finds fault with a value as a whole only. -/
class Leaf {α : Type} (s : Shape α) : Prop where
  location : ∀ v, ∀ f ∈ faultsOf (s.read v), f.location = []

section
variable {α : Type} {s : Shape α}

/-! ## Scalars -/

theorem location_refuse {c : ShapeCause} : ∀ f ∈ faultsOf (refuse c : ShapeResult α), f.location = [] := by
  simp

theorem location_accept {c : ShapeCause} {o : Option α} : ∀ f ∈ faultsOf (accept c o), f.location = [] := by
  cases o <;> simp [accept]

instance : text.Leaf where
  location v := by
    simp only [text]
    split
    · simp
    · exact location_accept
    · exact location_refuse

instance : filledText.Leaf where
  location v := by
    simp only [filledText]
    split
    · split <;> simp
    · rename_i h
      have := Leaf.location (s := text) v
      rwa [h] at this

theorem location_boolOfInt (n : Int) : ∀ f ∈ faultsOf (boolOfInt n), f.location = [] := by
  unfold boolOfInt
  split
  · simp
  · split <;> simp

instance : bool.Leaf where
  location v := by
    simp only [bool]
    split
    · simp
    · exact location_boolOfInt _
    · split
      · split
        · exact location_boolOfInt _
        · exact location_refuse
      · exact location_refuse
    · exact location_accept
    · exact location_accept
    · exact location_refuse

theorem location_intOfText (t : String) : ∀ f ∈ faultsOf (intOfText t), f.location = [] := by
  unfold intOfText
  split
  · exact location_refuse
  · exact location_accept

instance : int.Leaf where
  location v := by
    simp only [int]
    split
    · simp
    · simp
    · split
      · split
        · split <;> simp
        · exact location_refuse
      · exact location_refuse
    · exact location_intOfText _
    · split
      · exact location_intOfText _
      · exact location_refuse
    · exact location_refuse

instance : anyFloat.Leaf where
  location v := by
    simp only [anyFloat]
    split
    · simp
    · split <;> simp
    · simp
    · exact location_accept
    · exact location_accept
    · exact location_refuse

instance {fault? : α → Option ShapeCause} [h : s.Leaf] : (s.filtered fault?).Leaf where
  location v := by
    have hv := h.location v
    simp only [filtered]
    split
    · split <;> simp
    · rename_i fs he
      rwa [he] at hv

instance {breach? : α → Option Breach} [h : s.Leaf] : (s.checked breach?).Leaf :=
  inferInstanceAs (s.filtered _).Leaf

instance : float.Leaf := inferInstanceAs (anyFloat.filtered _).Leaf

instance {bound : Int} : (intAbove bound).Leaf := inferInstanceAs (int.filtered _).Leaf

instance {bound : Int} : (intFrom bound).Leaf := inferInstanceAs (int.filtered _).Leaf

instance {all : List α} {name : α → String} : (choice all name).Leaf where
  location v := by
    simp only [choice]
    split
    · exact location_accept
    · exact location_refuse

instance {names : List String} : (oneOf names).Leaf := inferInstanceAs (choice names id).Leaf

instance [h : s.Leaf] : (nullable s).Leaf where
  location v f hf := by
    by_cases hv : v = .null
    · subst hv
      cases hf
    · rw [nullable_of_ne hv, faultsOf_map] at hf
      exact h.location v f hf

def Leaf.tracing (h : s.Leaf) : Tracing s.read where
  faults v := (faultsOf (s.read v)).map fun f => ⟨[], f.cause⟩
  told v := by
    rw [List.map_map]
    refine (List.map_id _).symm.trans (List.map_congr_left fun f hf => ?_)
    exact congrArg (ShapeFault.mk · f.cause) (h.location v f hf)
  follows v f hf := by
    obtain ⟨g, -, rfl⟩ := List.mem_map.mp hf
    exact .here
  place := .anywhere
  tidy v f hf a b _ := by
    obtain ⟨g, -, rfl⟩ := List.mem_map.mp hf
    trivial

instance [h : s.Leaf] : s.Traced := ⟨h.tracing⟩

def branchFaults (name : String) (r : ShapeResult α) : List TracedFault :=
  (faultsOf r).map fun f => ⟨[.branch name], f.cause⟩

theorem told_branch {name : String} {v : Value} [h : s.Leaf] :
    literal.faults name (s.read v) = (branchFaults name (s.read v)).map TracedFault.fault := by
  rw [branchFaults, List.map_map]
  have hl := h.location v
  cases hr : s.read v with
  | ok a => rfl
  | error fs =>
    rw [hr] at hl
    refine List.map_congr_left fun f hf => ?_
    change ShapeFault.mk (.key name :: f.location) f.cause = _
    rw [hl f hf]
    rfl

theorem trail_of_branch {name : String} {r : ShapeResult α} {f : TracedFault} (h : f ∈ branchFaults name r) :
    f.trail = [.branch name] := by
  obtain ⟨g, -, rfl⟩ := List.mem_map.mp h
  rfl

def literalFaults (v : Value) : List TracedFault :=
  branchFaults "str" (text.read v) ++ branchFaults "int" (int.read v) ++ branchFaults "float" (float.read v) ++
    branchFaults "bool" (bool.read v)

theorem literal_eq_error {v : Value} {fs : List ShapeFault} (h : literal.read v = .error fs) :
    fs = (literalFaults v).map TracedFault.fault := by
  simp only [literal] at h
  split at h
  · cases h
  · split at h
    · cases h
    · cases h
    · cases h
    · cases h
    · cases h
    · cases h
      simp only [literalFaults, List.map_append, told_branch]

instance : literal.Traced := ⟨{
  faults := fun v => match literal.read v with
    | .ok _ => []
    | .error _ => literalFaults v
  told := by
    intro v
    cases h : literal.read v with
    | ok a => rfl
    | error fs => exact literal_eq_error h
  follows := by
    intro v f hf
    split at hf
    · cases hf
    · rename_i h
      simp only [literalFaults, List.mem_append] at hf
      rcases hf with ((hf | hf) | hf) | hf <;> exact trail_of_branch hf ▸ .branch (by simp [h])
  place := .anywhere
  tidy := by
    intro v f hf a b hab
    split at hf
    · cases hf
    · simp only [literalFaults, List.mem_append] at hf
      rcases hf with ((hf | hf) | hf) | hf <;> exact trail_of_branch hf ▸ ⟨hab _, trivial⟩ }⟩

end

end Shape

end Workflow
