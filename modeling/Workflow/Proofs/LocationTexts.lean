import Mathlib.Data.List.Basic
import Mathlib.Data.Set.Operations
import Workflow.Manifest.Kinds
import Workflow.Proofs.Except
import Workflow.Proofs.Shape.Stable
import Workflow.Proofs.Text.Digits
import Workflow.Proofs.Text.Split

/-!
# Locations and their texts

A location is written with a point before each key and with brackets around each position, but without the point if a key
comes first. The text tells the location if no key could be taken for a mark: each step then ends where the mark of the next
one begins, and the first step is a key if and only if no bracket comes first. The keys of nodes are of this kind.
-/

namespace Workflow

def isMark (c : Char) : Bool := c == '.' || c == '[' || c == ']'

/-- A step that could not be taken for anything else: a key that is there, is not the text of the root and has no marks in it,
or a position from the first on. -/
def PathStep.Unmarked : PathStep → Prop
  | key s => s ≠ "" ∧ s ≠ "$" ∧ s.toList.any isMark = false
  | index n => 0 ≤ n

instance : DecidablePred PathStep.Unmarked
  | .key _ => inferInstanceAs (Decidable (_ ∧ _ ∧ _))
  | .index n => inferInstanceAs (Decidable (0 ≤ n))

section
variable {a b : Location} {s t : PathStep}

/-! ## Steps after the first -/

theorem stepsText_key (s : String) (rest : Location) : stepsText (.key s :: rest) = "." ++ (s ++ stepsText rest) :=
  String.append_assoc ..

theorem stepsText_index (n : Int) (rest : Location) :
    (stepsText (.index n :: rest)).toList = '[' :: ((toString n).toList ++ ']' :: (stepsText rest).toList) := by
  simp [stepsText]

theorem isMark_head_stepsText (path : Location) : ∀ c ∈ (stepsText path).toList.head?, isMark c = true := by
  match path with
  | [] => simp [stepsText]
  | .key s :: rest => simp [stepsText, isMark]
  | .index n :: rest => simp [stepsText, isMark]

theorem append_stepsText_inj {s t : String} (hs : s.toList.any isMark = false) (ht : t.toList.any isMark = false)
    (h : s ++ stepsText a = t ++ stepsText b) : s = t ∧ stepsText a = stepsText b := by
  have hl := congrArg String.toList h
  rw [String.toList_append, String.toList_append] at hl
  have hspan := span_inj (p := fun c => !isMark c) (by simpa using hs) (by simpa using ht)
    (by simpa using isMark_head_stepsText a) (by simpa using isMark_head_stepsText b) hl
  exact hspan.imp String.toList_inj.mp String.toList_inj.mp

theorem stepsText_cons_inj (hs : s.Unmarked) (ht : t.Unmarked) (h : stepsText (s :: a) = stepsText (t :: b)) :
    s = t ∧ stepsText a = stepsText b := by
  have hl := congrArg String.toList h
  cases s with
  | key s =>
    cases t with
    | key t =>
      rw [stepsText_key, stepsText_key, String.append_right_inj] at h
      obtain ⟨rfl, hrest⟩ := append_stepsText_inj hs.2.2 ht.2.2 h
      exact ⟨rfl, hrest⟩
    | index n => simp [stepsText] at hl
  | index m =>
    cases t with
    | key t => simp [stepsText] at hl
    | index n =>
      rw [stepsText_index, stepsText_index] at hl
      obtain ⟨rfl, hrest⟩ := integer_inj (by simp) (by simp) (List.cons.inj hl).2
      exact ⟨rfl, String.toList_inj.mp (List.cons.inj hrest).2⟩

theorem stepsText_cons_ne (s : PathStep) (rest : Location) : stepsText (s :: rest) ≠ stepsText [] := by
  intro h
  have hl := congrArg String.toList h
  cases s <;> simp [stepsText] at hl

theorem stepsText_inj (ha : ∀ s ∈ a, s.Unmarked) (hb : ∀ s ∈ b, s.Unmarked) (h : stepsText a = stepsText b) :
    a = b := by
  induction a generalizing b with
  | nil =>
    cases b with
    | nil => rfl
    | cons t b => exact absurd h.symm (stepsText_cons_ne t b)
  | cons s a ih =>
    cases b with
    | nil => exact absurd h (stepsText_cons_ne s a)
    | cons t b =>
      obtain ⟨hs, ha⟩ := List.forall_mem_cons.mp ha
      obtain ⟨ht, hb⟩ := List.forall_mem_cons.mp hb
      obtain ⟨hst, hrest⟩ := stepsText_cons_inj hs ht h
      rw [hst, ih ha hb hrest]

/-! ## Locations -/

theorem locationText_index (n : Int) (rest : Location) :
    locationText (.index n :: rest) = "" ++ stepsText (.index n :: rest) := String.empty_append.symm

theorem locationText_cons_ne (hs : s.Unmarked) (rest : Location) : locationText (s :: rest) ≠ locationText [] := by
  intro h
  have hroot : locationText [] = "$" ++ stepsText [] := rfl
  cases s with
  | key s => exact hs.2.1 (append_stepsText_inj hs.2.2 (by decide) (h.trans hroot)).1
  | index n =>
    rw [locationText_index, hroot] at h
    exact absurd (append_stepsText_inj (by decide) (by decide) h).1 (by decide)

theorem stepsText_of_locationText (hs : s.Unmarked) (ht : t.Unmarked) (h : locationText (s :: a) = locationText (t :: b)) :
    stepsText (s :: a) = stepsText (t :: b) := by
  cases s with
  | key s =>
    cases t with
    | key t =>
      rw [stepsText_key, stepsText_key]
      exact congrArg ("." ++ ·) h
    | index n => exact absurd (append_stepsText_inj hs.2.2 (by decide) (h.trans (locationText_index n b))).1 hs.1
  | index m =>
    cases t with
    | key t => exact absurd (append_stepsText_inj ht.2.2 (by decide) (h.symm.trans (locationText_index m a))).1 ht.1
    | index n => exact h

theorem locationText_inj (ha : ∀ s ∈ a, s.Unmarked) (hb : ∀ s ∈ b, s.Unmarked) (h : locationText a = locationText b) :
    a = b := by
  cases a with
  | nil =>
    cases b with
    | nil => rfl
    | cons t b => exact absurd h.symm (locationText_cons_ne (hb t List.mem_cons_self) b)
  | cons s a =>
    cases b with
    | nil => exact absurd h (locationText_cons_ne (ha s List.mem_cons_self) a)
    | cons t b => exact stepsText_inj ha hb (stepsText_of_locationText (ha s List.mem_cons_self) (hb t List.mem_cons_self) h)

end

/-! ## Keys of nodes -/

/-- All keys are texts that can be steps of a location. -/
def Members.Unmarked (ms : Members) : Prop := ∀ m ∈ ms, ∃ key, m.1 = .text key ∧ (PathStep.key key).Unmarked

def OnlyUnmarked {ε α : Type} (read : Value → Except ε α) : Prop :=
  ∀ ms a, read (.mapping ms) = .ok a → Members.Unmarked ms

theorem Fields.key_of_strangers {keys : List (List String)} {ms : Members} (h : strangers keys ms = []) :
    ∀ m ∈ ms, ∃ key, m.1 = .text key ∧ ∃ spellings ∈ keys, key ∈ spellings := by
  intro m hm
  have hknown := List.filterMap_eq_nil_iff.mp h m hm
  split at hknown
  · rename_i key hkey
    split at hknown
    · rename_i hc
      obtain ⟨spellings, hs, hk⟩ := List.mem_filterMap.mp (List.contains_iff_mem.mp hc)
      exact ⟨key, hkey, spellings, hs, List.mem_of_find?_eq_some hk⟩
    · cases hknown
  · cases hknown

namespace OnlyUnmarked

open Shape

section
variable {ε α β : Type} {read : Value → Except ε α} {s : Shape α} {fs : Fields α α} {name label : String}

theorem map (h : OnlyUnmarked read) (f : α → β) : OnlyUnmarked fun v => (read v).map f := by
  intro ms b hr
  obtain ⟨a, ha, -⟩ := map_eq_ok.mp hr
  exact h ms a ha

theorem node (h : ∀ spellings ∈ fs.keys, ∀ key ∈ spellings, (PathStep.key key).Unmarked := by decide +kernel) :
    OnlyUnmarked (Shape.node label fs).read := by
  intro ms a hr
  obtain ⟨f, u, -, hu, -⟩ := apply_eq_ok.mp (show readNode fs ms = .ok a from hr)
  split at hu
  · rename_i hs
    intro m hm
    obtain ⟨key, hkey, spellings, hspellings, hk⟩ := Fields.key_of_strangers hs m hm
    exact ⟨key, hkey, h spellings hspellings key hk⟩
  · cases hu

theorem filtered {fault? : α → Option ShapeCause} (h : OnlyUnmarked s.read) : OnlyUnmarked (s.filtered fault?).read :=
  fun ms a hr => h ms a (filtered_eq_ok.mp hr).1

theorem tagged {field : String} {branches : List (String × (Value → ShapeResult α))}
    (h : branches.Forall fun b => OnlyUnmarked b.2) : OnlyUnmarked (readTagged field branches) := by
  intro ms a hr
  obtain ⟨b, hb, hr⟩ := readTagged_eq_ok hr
  exact List.forall_iff_forall_mem.mp h b hb ms a hr

theorem of (h : OnlyUnmarked s.read) : OnlyUnmarked (NodeKind.of name s).check := by
  intro ms w hw
  obtain ⟨a, ha, -⟩ := map_eq_ok.mp hw
  exact h ms a (mapError_eq_ok.mp ha)

end

theorem kinds : ∀ kind ∈ NodeKind.all, OnlyUnmarked kind.check := by
  have hupdate : OnlyUnmarked updateAction.read := .node
  have hinsert : OnlyUnmarked insertAction.read := .node
  have hlog : OnlyUnmarked logAction.read := .node
  have hcustom : OnlyUnmarked customAction.read := .node
  have hsimple : OnlyUnmarked simpleFunction.read := .node
  have hfanIn : OnlyUnmarked fanInFunction.read := .node
  have hcron : OnlyUnmarked cronFunction.read := .node
  have hrouting : OnlyUnmarked routingFunction.read := .filtered .node
  have hwebhook : OnlyUnmarked webhookFunction.read := .node
  have hevent : OnlyUnmarked eventWebhook.read := .filtered .node
  have hfunction : OnlyUnmarked functionWebhook.read := .filtered .node
  have haction : OnlyUnmarked persistAction.read := .tagged ⟨hupdate.map _, hinsert.map _, hlog.map _, hcustom.map _⟩
  have hfunctions : OnlyUnmarked function.read :=
    .tagged ⟨hsimple.map _, hfanIn.map _, hcron.map _, hrouting.map _, hwebhook.map _⟩
  have hwebhooks : OnlyUnmarked webhook.read := .tagged ⟨hevent.map _, hfunction.map _⟩
  -- in the order of the catalogue; what has a rule besides its fields is filtered
  exact List.forall_iff_forall_mem.mp ⟨
    -- products
    .of .node, .of .node, .of .node, .of .node, .of .node, .of .node, .of .node, .of .node,
    -- states and events
    .of (.filtered .node), .of .node, .of (.filtered .node), .of .node, .of .node,
    -- contracts
    .of .node, .of .node, .of .node, .of .node, .of .node, .of .node,
    -- parts of agents
    .of .node, .of .node, .of .node, .of .node, .of .node,
    -- rules and actions
    .of .node, .of .node, .of hupdate, .of hinsert, .of hlog, .of hcustom, .of haction,
    -- agents and triggers
    .of .node, .of .node, .of .node, .of .node, .of .node, .of .node, .of .node, .of .node, .of .node,
    -- functions
    .of hsimple, .of hfanIn, .of hcron, .of hrouting, .of hwebhook, .of hfunctions,
    -- webhooks and crons
    .of .node, .of hevent, .of hfunction, .of hwebhooks, .of .node,
    -- tables
    .of .node, .of .node, .of .node, .of .node, .of .node,
    -- the rest of a manifest
    .of .node, .of .node, .of .node, .of .node⟩

end OnlyUnmarked

/-- **Locations are told by their texts**, the root included, if their steps are unmarked. So are the keys of whatever is
accepted as a node, be it of any kind. -/
theorem locationText_injOn : Set.InjOn locationText {path | ∀ s ∈ path, s.Unmarked} ∧
    ∀ kind ∈ NodeKind.all, ∀ ms written, kind.check (.mapping ms) = .ok written → Members.Unmarked ms :=
  ⟨fun _ ha _ hb h => locationText_inj ha hb h, OnlyUnmarked.kinds⟩

def thirdAgent : Location := [.key "agents", .index 2, .key "name"]

/-- The same with a key in place of the position. -/
def agentTwo : Location := [.key "agents", .key "2", .key "name"]

/-- The source of a row, with its other spelling of a key. -/
def ordersSource : Members := [(.text "table", .text "orders"), (.text "as_", .text "order")]

theorem locationText_injOn_agents : (∀ s ∈ thirdAgent, s.Unmarked) ∧ (∀ s ∈ agentTwo, s.Unmarked) ∧
    locationText thirdAgent = "agents[2].name" ∧ locationText agentTwo ≠ "agents[2].name" ∧ locationText agentTwo ≠ "$" ∧
    ∃ kind ∈ NodeKind.all, kind.name = "DbSource" ∧ (∃ written, kind.check (.mapping ordersSource) = .ok written) ∧
      Members.Unmarked ordersSource := by
  obtain ⟨hinj, hkinds⟩ := locationText_injOn
  have hthird : ∀ s ∈ thirdAgent, s.Unmarked := by decide
  have htwo : ∀ s ∈ agentTwo, s.Unmarked := by decide
  have htext : locationText thirdAgent = "agents[2].name" := by decide
  refine ⟨hthird, htwo, htext, fun h => ?_, fun h => ?_, ?_⟩
  · exact absurd (hinj htwo hthird (h.trans htext.symm)) (by decide)
  · exact absurd (hinj htwo (List.forall_mem_nil _) h) (by decide)
  · have hnamed : NodeKind.named? "DbSource" = some (.of "DbSource" Shape.dbSource) := rfl
    have hmem : NodeKind.of "DbSource" Shape.dbSource ∈ NodeKind.all := List.mem_of_find?_eq_some hnamed
    exact ⟨_, hmem, rfl, ⟨_, rfl⟩, hkinds _ hmem ordersSource _ rfl⟩

end Workflow
