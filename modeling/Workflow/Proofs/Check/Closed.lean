import Workflow.Proofs.Check.Expressions
import Workflow.Proofs.Check.Names

/-!
# Closed manifests

Every name that a manifest uses is declared in it: one rule for each kind of node, and for each check the rule that it
decides. A manifest without errors is closed, and the indexes of its plan list its declarations one for one.
-/

namespace Workflow

/-! ## Nodes -/

def DbSource.Closed (m : Manifest) (s : DbSource) : Prop :=
  ∃ t ∈ m.database.tables, t.name = s.table ∧ ∀ c ∈ s.mustHave, t.Declares c

structure Contract.Closed (m : Manifest) (c : Contract) : Prop where
  stateIn : ∀ s ∈ c.stateIn, s ∈ m.stateMachine.names
  stateOut : c.stateOut ∈ m.stateMachine.names
  fromDb : ∀ s ∈ c.contextIn.fromDb, s.Closed m

structure StepRules.Closed (m : Manifest) (r : StepRules) : Prop where
  exist : ∀ e, r.input.exist = some e → ∃ t ∈ m.database.tables, ∃ p, t.Fits none e p
  persist : ∀ a ∈ r.persist, a.Closed m.database.tables

def Trigger.Closed (m : Manifest) : Trigger → Prop
  | simple t => t.event ∈ m.events.names
  | fanIn t => t.primary ∈ m.events.names ∧ ∀ e ∈ t.waitFor, e ∈ m.events.names
  | cron t => t.cron ∈ m.crons.map Cron.name
  | routing t => t.event ∈ m.events.names ∧
      ∀ r ∈ t.routes, r.2.emit ∈ m.events.names ∧ ∀ e, r.2.next = some e → e ∈ m.events.names
  | webhook t => t.webhook ∈ m.webhooks.map fun w => w.name

structure Agent.Closed (m : Manifest) (a : Agent) : Prop where
  triggers : ∀ t ∈ a.triggers, t.event ∈ m.events.names
  emits : ∀ e ∈ a.emits, e.event ∈ m.events.names
  contract : a.contract.Closed m
  rules : a.toStepRules.Closed m

structure Function.Closed (m : Manifest) (f : Function) : Prop where
  trigger : f.trigger.Closed m
  emits : ∀ e ∈ f.emits, e ∈ m.events.names
  contract : ∀ c, f.contract = some c → c.Closed m
  rules : f.toStepRules.Closed m

def WebhookTarget.Closed (m : Manifest) : WebhookTarget → Prop
  | event r => r.emits ∈ m.events.names
  | function r => ∃ f ∈ m.functions, f.name = r.function ∧ f.trigger.pattern = "inngest-first-webhook"

structure AccessPolicy.Closed (m : Manifest) (t : Table) (p : AccessPolicy) : Prop where
  actor : p.actor ∈ m.database.actors.map Actor.name
  condition : ∃ q, t.Fits (some t.name) p.condition q

structure Manifest.Closed (m : Manifest) : Prop where
  initial : m.stateMachine.initial ∈ m.stateMachine.names
  transitions : ∀ s ∈ m.stateMachine.states, ∀ target ∈ s.transitions, target ∈ m.stateMachine.names
  agents : ∀ a ∈ m.agents, a.Closed m
  functions : ∀ f ∈ m.functions, f.Closed m
  webhooks : ∀ w ∈ m.webhooks, w.target.Closed m
  crons : ∀ c ∈ m.crons, c.function ∈ m.functions.map fun f => f.name
  policies : ∀ t ∈ m.database.tables, ∀ p ∈ t.access, p.Closed m t

/-! ## Steps -/

def Step.Closed (m : Manifest) : Step → Prop
  | .agent a => a.Closed m
  | .function f => f.Closed m

/-- Whatever a step has read when it runs can be read. -/
structure Step.Readable (s : Step) : Prop where
  exist : ∀ e, s.rules.input.exist = some e → ∃ p table, Predicate.parse e = .ok p ∧ p.target none = .ok table
  state : ∀ e, s.rules.input.state = some e → ∃ p, IsStatePredicate e p
  files : ∀ f ∈ s.rules.input.files, Template.Readable f
  artifacts : ∀ c, s.contract? = some c → ∀ a ∈ c.contextOut.artifacts, Template.Readable a.file
  persist : ∀ a ∈ s.rules.persist, a.Readable

section
variable {m : Manifest} {location path : Location}

theorem checkState_passes {name : String} : Passes (m.checkState location name) ↔ name ∈ m.stateMachine.names := by
  unfold Manifest.checkState Manifest.hasState
  rw [passes_findIf fun _ => rfl]
  simp

theorem eventNamed?_isSome {name : String} : (m.eventNamed? name).isSome ↔ name ∈ m.events.names := by
  simp [Manifest.eventNamed?, Events.names]

theorem checkEvent_passes {name : String} : Passes (m.checkEvent location name) ↔ name ∈ m.events.names := by
  unfold Manifest.checkEvent
  rw [passes_findIf fun _ => rfl, Option.isNone_eq_false_iff, eventNamed?_isSome]

theorem checkSites_passes {sites : List EventSite} (h : Passes (m.checkSites path sites)) :
    ∀ s ∈ sites, s.event ∈ m.events.names :=
  fun s hs => checkEvent_passes.mp (passes_flatMap.mp h s hs)

theorem checkDbSource_passes {s : DbSource} (h : Passes (m.checkDbSource path s)) : s.Closed m := by
  obtain ⟨h, -⟩ := passes_append.mp h
  split at h
  · exact absurd h (not_passes_singleton fun _ => rfl)
  · rename_i t ht
    obtain ⟨hm, hn⟩ := tableNamed?_eq_some ht
    refine ⟨t, hm, hn, passes_numbered h fun j c hc => ?_⟩
    rwa [passes_findIf fun _ => rfl, Bool.not_eq_false', Table.mayHave_iff] at hc

theorem checkContract_passes {c : Contract} (h : Passes (m.checkContract path c)) :
    c.Closed m ∧ ∀ a ∈ c.contextOut.artifacts, Template.Readable a.file := by
  unfold Manifest.checkContract at h
  simp only [passes_append] at h
  obtain ⟨⟨⟨⟨hin, hout⟩, -⟩, hdb⟩, hartifacts⟩ := h
  refine ⟨⟨?_, checkState_passes.mp hout, ?_⟩, ?_⟩
  · exact passes_numbered hin fun _ _ => checkState_passes.mp
  · exact passes_numbered hdb fun _ _ => checkDbSource_passes
  · exact passes_numbered hartifacts fun _ _ => checkTemplate_passes.mp

theorem checkInput_passes {s : Step} {triggers : List EventDefinition} (h : Passes (m.checkInput path s triggers)) :
    (∀ e, s.rules.input.exist = some e → ∃ t ∈ m.database.tables, ∃ p, t.Fits none e p) ∧
    (∀ e, s.rules.input.state = some e → ∃ p, IsStatePredicate e p) ∧
    ∀ f ∈ s.rules.input.files, Template.Readable f := by
  unfold Manifest.checkInput at h
  simp only [passes_append] at h
  obtain ⟨⟨⟨-, hexist⟩, hstate⟩, hfiles⟩ := h
  refine ⟨fun e he => ?_, fun e he => ?_, ?_⟩
  · rw [he] at hexist
    exact checkExists_passes hexist
  · rw [he] at hstate
    exact checkStatePredicate_passes hstate
  · exact passes_numbered hfiles fun _ _ => checkTemplate_passes.mp

/-! ### Triggers -/

theorem map_event_triggerSites (s : Step) : s.triggerSites.map EventSite.event = s.triggerEvents := by
  cases s with
  | agent a => simp [Step.triggerSites, Step.triggerEvents, Function.comp_def]
  | function f => cases ht : f.trigger <;>
      simp [Step.triggerSites, Step.triggerEvents, Trigger.events, ht, Function.comp_def]

theorem agent_emits {a : Agent} (h : ∀ s ∈ (Step.agent a).emitted, s.event ∈ m.events.names) :
    ∀ e ∈ a.emits, e.event ∈ m.events.names := by
  intro e he
  obtain ⟨i, hi⟩ := mem_numbered he 0
  exact h _ (List.mem_map_of_mem hi)

theorem function_emits {f : Function} (h : ∀ s ∈ (Step.function f).emitted, s.event ∈ m.events.names) :
    ∀ e ∈ f.emits, e ∈ m.events.names := by
  intro e he
  obtain ⟨i, hi⟩ := mem_numbered he 0
  exact h _ (List.mem_append_left _ (List.mem_map_of_mem hi))

theorem route_closed {r : String × Route} (h : ∀ s ∈ Route.sites r, s.event ∈ m.events.names) :
    r.2.emit ∈ m.events.names ∧ ∀ e, r.2.next = some e → e ∈ m.events.names := by
  refine ⟨h _ List.mem_cons_self, fun e he => ?_⟩
  simp only [Route.sites, he] at h
  exact h _ (List.mem_cons_of_mem _ List.mem_cons_self)

theorem trigger_closed {f : Function} (hsource : Passes (m.checkSource path (.function f)))
    (hevents : ∀ e ∈ f.trigger.events, e ∈ m.events.names)
    (hemitted : ∀ s ∈ f.trigger.emitted, s.event ∈ m.events.names) : f.trigger.Closed m := by
  unfold Manifest.checkSource at hsource
  cases ht : f.trigger with
  | simple t => simpa [Trigger.Closed, Trigger.events, ht] using hevents
  | fanIn t => simpa [Trigger.Closed, Trigger.events, ht] using hevents
  | cron t =>
    simp only [ht] at hsource
    rw [passes_findIf fun _ => rfl] at hsource
    simpa [Trigger.Closed] using hsource
  | routing t =>
    rw [ht] at hemitted
    refine ⟨by simpa [Trigger.events, ht] using hevents, fun r hr => route_closed fun s hs => ?_⟩
    exact hemitted s (List.mem_flatMap_of_mem hr hs)
  | webhook t =>
    simp only [ht] at hsource
    rw [passes_findIf fun _ => rfl] at hsource
    simpa [Trigger.Closed] using hsource

theorem checkStep_passes {custom : Option (List String)} {s : Step} (h : Passes (m.checkStep custom path s)) :
    s.Closed m ∧ s.Readable := by
  unfold Manifest.checkStep at h
  simp only [passes_append] at h
  obtain ⟨⟨⟨⟨⟨⟨hsource, hsites⟩, hemitted⟩, -⟩, hcontract⟩, hinput⟩, hpersist⟩ := h
  have hevents : ∀ e ∈ s.triggerEvents, e ∈ m.events.names := by
    rw [← map_event_triggerSites]
    exact List.forall_mem_map.mpr (checkSites_passes hsites)
  have hemitted := checkSites_passes hemitted
  have hcontract : ∀ c, s.contract? = some c →
      c.Closed m ∧ ∀ a ∈ c.contextOut.artifacts, Template.Readable a.file := by
    intro c hc
    rw [hc] at hcontract
    exact checkContract_passes hcontract
  obtain ⟨hexist, hstate, hfiles⟩ := checkInput_passes hinput
  have hpersist := checkActions_passes hpersist
  have hrules : s.rules.Closed m := ⟨hexist, fun a ha => (hpersist a ha).1⟩
  constructor
  · cases s with
    | agent a => exact ⟨List.forall_mem_map.mp hevents, agent_emits hemitted, (hcontract _ rfl).1, hrules⟩
    | function f =>
      have ht := trigger_closed hsource hevents fun s hs => hemitted s (List.mem_append_right _ hs)
      exact ⟨ht, function_emits hemitted, fun c hc => (hcontract c hc).1, hrules⟩
  · refine ⟨fun e he => ?_, hstate, hfiles, fun c hc => (hcontract c hc).2, fun a ha => (hpersist a ha).2⟩
    obtain ⟨t, -, p, hf⟩ := hexist e he
    exact ⟨p, t.name, hf.parse, hf.target⟩

/-! ## Manifests -/

theorem checkStates_passes (h : Passes m.checkStates) : m.stateMachine.initial ∈ m.stateMachine.names ∧
    ∀ s ∈ m.stateMachine.states, ∀ target ∈ s.transitions, target ∈ m.stateMachine.names := by
  unfold Manifest.checkStates at h
  simp only [passes_append] at h
  obtain ⟨⟨⟨hinitial, htransitions⟩, -⟩, -⟩ := h
  constructor
  · rw [passes_findIf fun _ => rfl] at hinitial
    simpa [Manifest.hasState] using hinitial
  · refine passes_numbered htransitions fun _ s hs => passes_numbered hs fun _ target ht => ?_
    rw [passes_findIf fun _ => rfl] at ht
    simpa [Manifest.hasState] using ht

theorem functionNamed?_eq_some {name : String} {f : Function} (h : m.functionNamed? name = some f) :
    f ∈ m.functions ∧ f.name = name :=
  ⟨List.mem_of_find?_eq_some h, by simpa using List.find?_some h⟩

theorem checkWebhook_passes {w : Webhook} (h : Passes (m.checkWebhook path w)) : w.target.Closed m := by
  unfold Manifest.checkWebhook at h
  cases ht : w.target with
  | event r =>
    rw [ht] at h
    exact checkEvent_passes.mp h
  | function r =>
    simp only [ht] at h
    split at h
    · exact absurd h (not_passes_singleton fun _ => rfl)
    · rename_i f hf
      obtain ⟨hm, hn⟩ := functionNamed?_eq_some hf
      rw [passes_findIf fun _ => rfl, Bool.not_eq_false'] at h
      refine ⟨f, hm, hn, ?_⟩
      unfold Function.isWebhook at h
      split at h
      · rename_i t hw
        rw [hw, Trigger.pattern]
      · cases h

theorem checkWebhooksAndCrons_passes (h : Passes m.checkWebhooksAndCrons) :
    (∀ w ∈ m.webhooks, w.target.Closed m) ∧ ∀ c ∈ m.crons, c.function ∈ m.functions.map fun f => f.name := by
  obtain ⟨hwebhooks, hcrons⟩ := passes_append.mp h
  refine ⟨passes_numbered hwebhooks fun _ _ => checkWebhook_passes, passes_numbered hcrons fun _ c hc => ?_⟩
  rw [passes_findIf fun _ => rfl, Option.isNone_eq_false_iff, Option.isSome_iff_exists] at hc
  obtain ⟨f, hf⟩ := hc
  obtain ⟨hm, hn⟩ := functionNamed?_eq_some hf
  exact List.mem_map.mpr ⟨f, hm, hn⟩

theorem checkPolicy_passes {t : Table} {p : AccessPolicy} (h : Passes (m.checkPolicy path t p)) :
    p.Closed m t ∧ mentionsActor p.condition = true := by
  unfold Manifest.checkPolicy at h
  simp only [passes_append] at h
  obtain ⟨⟨hactor, hmentions⟩, hcondition⟩ := h
  rw [passes_findIf fun _ => rfl, Bool.not_eq_false'] at hactor hmentions
  exact ⟨⟨by simpa using hactor, checkPredicate_passes hcondition⟩, hmentions⟩

theorem checkPolicies_passes (h : Passes m.checkPolicies) :
    ∀ t ∈ m.database.tables, ∀ p ∈ t.access, p.Closed m t ∧ mentionsActor p.condition = true :=
  passes_numbered h fun _ _ ht => passes_numbered ht fun _ _ => checkPolicy_passes

theorem map_snd_steps (m : Manifest) :
    m.steps.map Prod.snd = m.agents.map Step.agent ++ m.functions.map Step.function := by
  simp [Manifest.steps, Function.comp_def]

theorem mem_steps {s : Step} (h : s ∈ m.agents.map Step.agent ++ m.functions.map Step.function) :
    ∃ path, (path, s) ∈ m.steps := by
  rw [← map_snd_steps] at h
  obtain ⟨⟨path, _⟩, hm, rfl⟩ := List.mem_map.mp h
  exact ⟨path, hm⟩

/-- What holds of a manifest that is accepted. -/
structure Manifest.Sound (m : Manifest) : Prop where
  distinct : m.Distinct
  closed : m.Closed
  readable : ∀ s ∈ m.agents.map Step.agent ++ m.functions.map Step.function, s.Readable
  actors : ∀ t ∈ m.database.tables, ∀ p ∈ t.access, mentionsActor p.condition = true

theorem checkReferences_passes {custom : Option (List String)} (h : Passes (m.checkReferences custom)) : m.Sound := by
  unfold Manifest.checkReferences at h
  simp only [passes_append] at h
  obtain ⟨⟨⟨⟨⟨hnames, hstates⟩, -⟩, hways⟩, hpolicies⟩, hsteps⟩ := h
  obtain ⟨hinitial, htransitions⟩ := checkStates_passes hstates
  obtain ⟨hwebhooks, hcrons⟩ := checkWebhooksAndCrons_passes hways
  have hpolicies := checkPolicies_passes hpolicies
  have hsteps : ∀ s ∈ m.agents.map Step.agent ++ m.functions.map Step.function, s.Closed m ∧ s.Readable := by
    intro s hs
    obtain ⟨path, hs⟩ := mem_steps hs
    have hstep := passes_flatMap.mp hsteps _ hs
    exact checkStep_passes hstep
  have hclosed : m.Closed := by
    refine ⟨hinitial, htransitions, fun a ha => ?_, fun f hf => ?_, hwebhooks, hcrons,
      fun t ht p hp => (hpolicies t ht p hp).1⟩
    · exact (hsteps _ (List.mem_append_left _ (List.mem_map_of_mem ha))).1
    · exact (hsteps _ (List.mem_append_right _ (List.mem_map_of_mem hf))).1
  exact ⟨checkDuplicates_passes hnames, hclosed, fun s hs => (hsteps s hs).2,
    fun t ht p hp => (hpolicies t ht p hp).2⟩

end

end Workflow
