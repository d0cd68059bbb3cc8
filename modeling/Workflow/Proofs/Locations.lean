import Workflow.Proofs.Shape.Tracing

/-!
# Where structural diagnostics point

Every structural diagnostic of a document is told with the trail of the reader to its fault. The tags of functions,
webhooks and actions are left out of its location, and no step into the document is; the other steps that a reader adds
stay in it.
-/

namespace Workflow

namespace Shape

section
variable {α : Type} {s : Shape α}

/-! ## Shapes of a manifest with their trails -/

instance [h : s.Traced] {fault? : α → Option ShapeCause} : (s.filtered fault?).Traced := ⟨h.tracing.filtered fault?⟩

instance [h : s.Traced] {breach? : α → Option Breach} : (s.checked breach?).Traced := ⟨h.tracing.filtered _⟩

instance [h : s.Traced] : (nullable s).Traced := ⟨h.tracing.nullable⟩

instance [h : s.Traced] : (tuple s).Traced := ⟨h.tracing.items .tuple⟩

instance [h : s.Traced] : (filledTuple s).Traced := ⟨h.tracing.filledTuple⟩

@[reducible]
def Traced.node {fs : Fields α α} [h : fs.Traced] (hs : h.suits = true) {name : String} : (Shape.node name fs).Traced :=
  ⟨.node h hs name⟩

end

instance : product.Traced := .node (by decide)

instance : inngestSettings.Traced := .node (by decide)

instance : supabaseSettings.Traced := .node (by decide)

instance : anthropicSettings.Traced := .node (by decide)

instance : deploymentSettings.Traced := .node (by decide)

instance : infrastructure.Traced := .node (by decide)

instance : tenancyIsolation.Traced := .node (by decide)

instance : tenancy.Traced := .node (by decide)

instance : stateDefinition.Traced := ⟨.filtered (.node inferInstance (by decide) _) _⟩

instance : stateMachine.Traced := .node (by decide)

instance : eventField.Traced := ⟨.filtered (.node inferInstance (by decide) _) _⟩

instance : (entries eventField).Traced := ⟨.entries Traced.tracing rfl⟩

instance : eventDefinition.Traced := .node (by decide)

instance : events.Traced := .node (by decide)

instance : dbSource.Traced := .node (by decide)

instance : staticSource.Traced := .node (by decide)

instance : artifactSpec.Traced := .node (by decide)

instance : contextIn.Traced := .node (by decide)

instance : contextOut.Traced := .node (by decide)

theorem widens_oneOrMore : Tracing.Widens oneOrMore := by
  intro v
  unfold oneOrMore
  split
  · exact .inl ⟨_, _, rfl, rfl⟩
  · exact .inr (.inr rfl)

instance : ((filledTuple text).prepared oneOrMore).Traced := ⟨.prepared inferInstance widens_oneOrMore⟩

instance : contract.Traced := .node (by decide)

instance {what : String} : (durationOrNull what).Traced := ⟨.filtered Traced.tracing _⟩

instance : subagent.Traced := .node (by decide)

instance : mcpServer.Traced := .node (by decide)

instance : agentConfig.Traced := .node (by decide)

instance : agentLimits.Traced := .node (by decide)

instance : workspace.Traced := .node (by decide)

instance : triggerRef.Traced := .node (by decide)

instance : emitSpec.Traced := .node (by decide)

instance : validationRule.Traced := .node (by decide)

instance : outputRule.Traced := .node (by decide)

/-! ## Actions -/

instance : (entries literal).Traced := ⟨.entries Traced.tracing rfl⟩

instance : (filledEntries literal).Traced := ⟨.filtered Traced.tracing _⟩

instance : updateAction.Traced := .node (by decide)

instance : insertAction.Traced := .node (by decide)

instance : logAction.Traced := .node (by decide)

instance : customAction.Traced := .node (by decide)

instance : persistAction.Traced :=
  ⟨.tagged (⟨.map Traced.tracing _, rfl⟩, ⟨.map Traced.tracing _, rfl⟩, ⟨.map Traced.tracing _, rfl⟩,
    ⟨.map Traced.tracing _, rfl⟩, ())⟩

/-! ## Steps -/

instance : stepRules.Traced := by
  unfold stepRules
  infer_instance

instance : agent.Traced := .node (by decide)

instance : simpleTrigger.Traced := .node (by decide)

instance : fanInTrigger.Traced := .node (by decide)

instance : cronTrigger.Traced := .node (by decide)

instance : route.Traced := .node (by decide)

instance : (filledEntries route).Traced := ⟨.filtered (.entries Traced.tracing rfl) _⟩

instance : routingTrigger.Traced := .node (by decide)

instance : webhookTrigger.Traced := .node (by decide)

instance : functionHead.Traced := by
  unfold functionHead
  infer_instance

instance : simpleFunction.Traced := .node (by decide)

instance : fanInFunction.Traced := .node (by decide)

instance : cronFunction.Traced := .node (by decide)

instance : routingFunction.Traced := ⟨.filtered (.node inferInstance (by decide) _) _⟩

instance : webhookFunction.Traced := .node (by decide)

instance : function.Traced :=
  ⟨.tagged (⟨.map Traced.tracing _, rfl⟩, ⟨.map Traced.tracing _, rfl⟩, ⟨.map Traced.tracing _, rfl⟩,
    ⟨.map Traced.tracing _, rfl⟩, ⟨.map Traced.tracing _, rfl⟩, ())⟩

/-! ## Webhooks, tables and the rest -/

instance : webhookHandler.Traced := .node (by decide)

instance : rootedPath.Leaf := inferInstanceAs (text.checked _).Leaf

instance : webhookHead.Traced := by
  unfold webhookHead
  infer_instance

instance : eventRoute.Traced := by
  unfold eventRoute
  infer_instance

instance : functionRoute.Traced := by
  unfold functionRoute
  infer_instance

instance : eventWebhook.Traced := ⟨.filtered (.node inferInstance (by decide) _) _⟩

instance : functionWebhook.Traced := ⟨.filtered (.node inferInstance (by decide) _) _⟩

instance : webhook.Traced := ⟨.tagged (⟨.map Traced.tracing _, rfl⟩, ⟨.map Traced.tracing _, rfl⟩, ())⟩

instance : scheduleText.Leaf := inferInstanceAs (text.checked _).Leaf

instance : cron.Traced := .node (by decide)

instance {what : String} : (identifier what).Leaf := inferInstanceAs (text.checked _).Leaf

instance : column.Traced := .node (by decide)

theorem widens_capitalOperations : Tracing.Widens capitalOperations := by
  intro v
  unfold capitalOperations
  split
  · exact .inl ⟨_, _, rfl, rfl⟩
  · exact .inr (.inl ⟨_, _, .inl rfl, rfl, List.length_map _⟩)
  · exact .inr (.inl ⟨_, _, .inr rfl, rfl, List.length_map _⟩)
  · exact .inr (.inr rfl)

instance : ((filledTuple (choice Grant.every Grant.name)).prepared capitalOperations).Traced :=
  ⟨.prepared inferInstance widens_capitalOperations⟩

instance : accessPolicy.Traced := .node (by decide)

instance : table.Traced := .node (by decide)

instance : actor.Traced := .node (by decide)

instance : database.Traced := .node (by decide)

instance : loggingOptions.Traced := .node (by decide)

instance : tracingOptions.Traced := .node (by decide)

instance : observability.Traced := .node (by decide)

instance : manifest.Traced := .node (by decide)

end Shape

/-! ## Paths through a document -/

def PathStep.Names : PathStep → Scalar → Prop
  | .key s, k => k = .text s
  | .index n, k => k.keyNumber? = some n

/-- A location that leads through a value, key by key and index by index, to a part of it or to a key that is missing
from a mapping. -/
inductive Value.Leads : Value → Location → Prop
  | here {v : Value} : Leads v []
  | member {ms : Members} {k : Scalar} {w : Value} {s : PathStep} {path : Location} : (k, w) ∈ ms → s.Names k →
      Leads w path → Leads (.mapping ms) (s :: path)
  | item {v w : Value} {vs : List Value} {n : Nat} {path : Location} : v = .list vs ∨ v = .tuple vs → vs[n]? = some w →
      Leads w path → Leads v (.index n :: path)
  | missing {ms : Members} {key : String} : Members.get? ms key = none → Leads (.mapping ms) [.key key]

namespace Value

theorem leads_key {ms : Members} {key : String} {path : Location} : Leads (.mapping ms) (.key key :: path) ↔
    (∃ w, (.text key, w) ∈ ms ∧ Leads w path) ∨ Members.get? ms key = none ∧ path = [] := by
  constructor
  · intro h
    cases h with
    | member hm hk h =>
      cases hk
      exact .inl ⟨_, hm, h⟩
    | missing h => exact .inr ⟨h, rfl⟩
  · rintro (⟨w, hm, h⟩ | ⟨h, rfl⟩)
    · exact .member hm rfl h
    · exact .missing h

theorem leads_index {vs : List Value} {n : Nat} {path : Location} :
    Leads (.list vs) (.index n :: path) ↔ ∃ w, vs[n]? = some w ∧ Leads w path := by
  constructor
  · intro h
    cases h with
    | item hv hw h =>
      rcases hv with hv | hv <;> cases hv
      exact ⟨_, hw, h⟩
  · rintro ⟨w, hw, h⟩
    exact .item (.inl rfl) hw h

theorem not_leads_list {vs : List Value} {key : String} {path : Location} : ¬ Leads (.list vs) (.key key :: path) := nofun

end Value

namespace Trail

/-- The keys on a trail are texts, truth values or integers of a word. -/
def Named (t : Trail) : Prop := ∀ k, .member k ∈ t →
  (∃ s, k = .text s) ∨ (∃ b, k = .bool b) ∨ ∃ n, k = .int n ∧ fitsWord n = true

/-- These keys are written as what they are, and others as their texts. -/
theorem names_stepOfKey {k : Scalar} : (Shape.stepOfKey k).Names k ↔
    (∃ s, k = .text s) ∨ (∃ b, k = .bool b) ∨ ∃ n, k = .int n ∧ fitsWord n = true := by
  cases k with
  | int n => cases hn : fitsWord n <;> simp [Shape.stepOfKey, hn, PathStep.Names, Scalar.keyNumber?]
  | _ => simp [Shape.stepOfKey, PathStep.Names, Scalar.keyNumber?]

theorem Named.tail {s : TrailStep} {t : Trail} (h : Named (s :: t)) : t.Named := fun k hk => h k (List.mem_cons_of_mem s hk)

theorem Plain.tail {s : TrailStep} {t : Trail} (h : Plain (s :: t)) : t.Plain := fun s' hs => h s' (List.mem_cons_of_mem s hs)

theorem not_plain {s : TrailStep} {t : Trail} (ho : s.isOwn = false) (ht : s.isTag = false) : ¬ Plain (s :: t) := by
  intro h
  simpa [ho, ht] using h s List.mem_cons_self

/-- The path of a trail to which nothing but tags is added leads through the document. -/
theorem Follows.leads {v : Value} {t : Trail} (h : t.Follows v) (hplain : t.Plain) (hnamed : t.Named) : v.Leads t.own := by
  induction h with
  | here => exact .here
  | member hm _ ih => exact .member hm (names_stepOfKey.mpr (hnamed _ List.mem_cons_self)) (ih hplain.tail hnamed.tail)
  | item hv hw _ ih => exact .item hv hw (ih hplain.tail hnamed.tail)
  | absent hnone => exact .missing hnone
  | tag _ _ ih => exact ih hplain.tail hnamed.tail
  | branch => exact absurd hplain (not_plain rfl rfl)
  | label => exact absurd hplain.tail (not_plain rfl rfl)
  | element => exact absurd hplain (not_plain rfl rfl)
  | sole => exact absurd hplain (not_plain rfl rfl)

end Trail

namespace Manifest

/-! ## Diagnostics of a document -/

/-- The faults of a document with their trails. -/
def faults (ms : Members) : List TracedFault := (Shape.Traced.tracing (s := Shape.manifest)).faults (.mapping ms)

theorem tidy_of_mem_faults {ms : Members} {f : TracedFault} (h : f ∈ faults ms) :
    f.trail.Tidy (.key "") (.key "") :=
  Shape.Traced.tracing.tidy _ f h _ _ (Trail.free_key (.key "") "")

theorem eq_faults_of_load {ms : Members} {ds : List Diagnostic} (h : load (.mapping ms) = .error ds) :
    ds = (faults ms).map fun f => structuralDiagnostic f.fault := by
  have htold := (Shape.Traced.tracing (s := Shape.manifest)).told (.mapping ms)
  change Except.mapError _ (Shape.manifest.read (.mapping ms)) = _ at h
  cases hr : Shape.manifest.read (.mapping ms) with
  | ok m =>
    rw [hr] at h
    cases h
  | error fs =>
    rw [hr] at h htold
    cases h
    exact (congrArg (List.map structuralDiagnostic) htold).trans List.map_map

/-- Every diagnostic of a document that is refused has the trail of its fault. Its location keeps the steps of the trail
that lead into the document and is left without tags. If nothing else was added it leads through the document, for keys
that are texts, truth values or integers of a word. -/
theorem load_locations {ms : Members} {ds : List Diagnostic} (h : load (.mapping ms) = .error ds) :
    (ds = (faults ms).map fun f => structuralDiagnostic f.fault) ∧ ∀ f ∈ faults ms,
      f.trail.Follows (.mapping ms) ∧ f.trail.own.Sublist (documentLocation f.fault.location) ∧
      (documentLocation f.fault.location = f.trail.own ↔ f.trail.Plain) ∧
      (f.trail.Plain → f.trail.Named → (Value.mapping ms).Leads (documentLocation f.fault.location)) := by
  refine ⟨eq_faults_of_load h, fun f hf => ?_⟩
  have hfollows : f.trail.Follows (.mapping ms) := Shape.Traced.tracing.follows _ f hf
  have hplain := Trail.documentLocation_eq_own (tidy_of_mem_faults hf)
  refine ⟨hfollows, Trail.own_sublist (tidy_of_mem_faults hf), hplain, fun hp hn => ?_⟩
  have hown : documentLocation f.fault.location = f.trail.own := hplain.mpr hp
  exact hown ▸ hfollows.leads hp hn

/-- A document with one function. -/
def documentOf (function : Members) : Members := [
  (.text "product", .mapping [(.text "name", .text "p"), (.text "description", .text "d"), (.text "version", .text "1")]),
  (.text "state_machine", .mapping [(.text "initial", .text "a"),
    (.text "states", .list [.mapping [(.text "name", .text "a"), (.text "terminal", .bool true)]])]),
  (.text "events", .mapping [(.text "namespace", .text "n")]),
  (.text "functions", .list [.mapping function])]

/-- A function that nothing starts. -/
def unstarted : Members := [(.text "name", .text "f"), (.text "description", .text "d"), (.text "pattern", .text "simple")]

/-- The tag of the function is left out: its trigger is missing from the function, not from its tag. -/
theorem load_locations_unstarted : ∃ ds, load (.mapping (documentOf unstarted)) = .error ds ∧
    ds.map Diagnostic.location = [[.key "functions", .index 0, .key "trigger"]] ∧
    (ds = (faults (documentOf unstarted)).map fun f => structuralDiagnostic f.fault) ∧ ∀ f ∈ faults (documentOf unstarted),
      f.trail.Follows (.mapping (documentOf unstarted)) ∧ f.trail.own.Sublist (documentLocation f.fault.location) ∧
      (documentLocation f.fault.location = f.trail.own ↔ f.trail.Plain) ∧
      (f.trail.Plain → f.trail.Named →
        (Value.mapping (documentOf unstarted)).Leads (documentLocation f.fault.location)) :=
  ⟨_, rfl, rfl, load_locations rfl⟩

/-- A function that writes a list to a column. -/
def listWriter : Members := [(.text "name", .text "f"), (.text "description", .text "d"), (.text "pattern", .text "simple"),
  (.text "trigger", .mapping [(.text "event", .text "e")]),
  (.text "persist", .list [.mapping [(.text "action", .text "insert"), (.text "table", .text "t"),
    (.text "values", .mapping [(.text "a", .list [.int 1])])]])]

theorem not_leads_listWriter (name : String) : ¬ (Value.mapping (documentOf listWriter)).Leads
    [.key "functions", .index 0, .key "persist", .index 0, .key "values", .key "a", .key name] := by
  have hfirst {v : Value} {path : Location} : (Value.list [v]).Leads (.index 0 :: path) ↔ ∃ w, some v = some w ∧ w.Leads path :=
    Value.leads_index (n := 0)
  simp [documentOf, listWriter, Value.leads_key, hfirst, Value.not_leads_list, Members.get?]

/-- The types that the list was tried as stay in the locations, which lead nowhere. -/
theorem load_listWriter : ∃ ds, load (.mapping (documentOf listWriter)) = .error ds ∧
    ds.map Diagnostic.location = ["str", "int", "float", "bool"].map (fun name =>
      [.key "functions", .index 0, .key "persist", .index 0, .key "values", .key "a", .key name]) ∧
    ∀ d ∈ ds, ¬ (Value.mapping (documentOf listWriter)).Leads d.location := by
  refine ⟨_, rfl, rfl, fun d hd => ?_⟩
  obtain ⟨name, -, hname⟩ : ∃ name ∈ ["str", "int", "float", "bool"],
      [.key "functions", .index 0, .key "persist", .index 0, .key "values", .key "a", .key name] = d.location :=
    List.mem_map.mp (List.mem_map_of_mem hd)
  exact hname ▸ not_leads_listWriter name

end Manifest

end Workflow
