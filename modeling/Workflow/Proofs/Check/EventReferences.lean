import Mathlib.Data.List.Nodup
import Workflow.Proofs.Check.Codes
import Workflow.Proofs.Check.Legible
import Workflow.Proofs.Plan
import Workflow.Proofs.Rereading

/-!
# References to events

A manifest names events where something starts on one and where something may emit one. Where a manifest is diagnosed at
all, each place that names an undeclared event is reported, once, and no other place is.
-/

namespace Workflow

/-! ## Rules -/

/-- A place within a step names an event: each trigger and each emission of an agent, whatever starts a function, each
emission of a function, and both events of each of its routes. -/
inductive Step.RefersTo : Step → Location → String → Prop
  | agentTrigger {a : Agent} {i : Nat} {t : TriggerRef} : a.triggers[i]? = some t →
      RefersTo (.agent a) [.key "triggers", .index i, .key "event"] t.event
  | agentEmit {a : Agent} {i : Nat} {x : EmitSpec} : a.emits[i]? = some x →
      RefersTo (.agent a) [.key "emits", .index i, .key "event"] x.event
  | simple {f : Function} {t : TriggerRef} : f.trigger = .simple t →
      RefersTo (.function f) [.key "trigger", .key "event"] t.event
  | routing {f : Function} {t : RoutingTrigger} : f.trigger = .routing t →
      RefersTo (.function f) [.key "trigger", .key "event"] t.event
  | primary {f : Function} {t : FanInTrigger} : f.trigger = .fanIn t →
      RefersTo (.function f) [.key "trigger", .key "primary"] t.primary
  | waitFor {f : Function} {t : FanInTrigger} {i : Nat} {e : String} : f.trigger = .fanIn t → t.waitFor[i]? = some e →
      RefersTo (.function f) [.key "trigger", .key "wait_for", .index i] e
  | functionEmit {f : Function} {i : Nat} {e : String} : f.emits[i]? = some e →
      RefersTo (.function f) [.key "emits", .index i] e
  | route {f : Function} {t : RoutingTrigger} {r : String × Route} : f.trigger = .routing t → r ∈ t.routes →
      RefersTo (.function f) [.key "trigger", .key "routes", .key r.1, .key "emit"] r.2.emit
  | next {f : Function} {t : RoutingTrigger} {r : String × Route} {e : String} : f.trigger = .routing t → r ∈ t.routes →
      r.2.next = some e → RefersTo (.function f) [.key "trigger", .key "routes", .key r.1, .key "then"] e

/-- A place of a manifest names an event: within a step, or as what a webhook emits. -/
inductive Manifest.RefersTo (m : Manifest) : Location → String → Prop
  | agent {i : Nat} {a : Agent} {location : Location} {e : String} : m.agents[i]? = some a →
      (Step.agent a).RefersTo location e → RefersTo m ([.key "agents", .index i] ++ location) e
  | function {i : Nat} {f : Function} {location : Location} {e : String} : m.functions[i]? = some f →
      (Step.function f).RefersTo location e → RefersTo m ([.key "functions", .index i] ++ location) e
  | webhook {i : Nat} {w : Webhook} {r : EventRoute} : m.webhooks[i]? = some w → w.target = .event r →
      RefersTo m [.key "webhooks", .index i, .key "emits"] r.emits

/-- What is said of a place that names an undeclared event. -/
def undeclaredEvent (location : Location) (e : String) : Diagnostic where
  location := location
  kind := .crossReference
  code := "unknown_event"
  message := s!"event '{e}' is not declared"
  severity := .error

/-! ## Lists -/

section
variable {α β γ : Type}

theorem numbered_eq (n : Nat) (as : List α) : numbered n as = (as.zipIdx n).map Prod.swap := by
  induction as generalizing n with
  | nil => rfl
  | cons a as ih => rw [numbered, ih, List.zipIdx_cons, List.map_cons, Prod.swap_prod_mk]

theorem mem_numbered_iff {as : List α} {i : Nat} {a : α} : (i, a) ∈ numbered 0 as ↔ as[i]? = some a := by
  rw [numbered_eq, List.mem_map]
  constructor
  · intro h
    obtain ⟨⟨b, j⟩, hb, hswap⟩ := h
    cases hswap
    exact List.mem_zipIdx_iff_getElem?.mp hb
  · intro h
    exact ⟨(a, i), List.mem_zipIdx_iff_getElem?.mpr h, rfl⟩

theorem mem_map_numbered {as : List α} {g : Nat × α → β} {b : β} :
    b ∈ (numbered 0 as).map g ↔ ∃ i a, as[i]? = some a ∧ g (i, a) = b := by
  simp only [List.mem_map, Prod.exists, mem_numbered_iff]

theorem nodup_numbered {place : Nat → β} (h : place.Injective) (n : Nat) (as : List α) :
    ((numbered n as).map fun e => place e.1).Nodup := by
  have hpositions : (numbered n as).map (fun e => place e.1) = (List.range' n as.length).map place := by
    rw [numbered_eq, List.map_map, ← List.zipIdx_map_snd, List.map_map]
    rfl
  rw [hpositions]
  exact (List.nodup_range' ..).map h

theorem nodup_positions (path rest : Location) (as : List α) :
    ((numbered 0 as).map fun e => path ++ .index e.1 :: rest).Nodup := by
  have hplace : (fun i : Nat => path ++ .index i :: rest).Injective := by
    intro i j h
    have hij : (i : Int) = j := by simpa using h
    omega
  exact nodup_numbered hplace 0 as

theorem nodup_flatMap_of_key {as : List α} {f : α → List β} (key : α → γ) (keyOf : β → γ) (hk : (as.map key).Nodup)
    (hf : ∀ a ∈ as, (f a).Nodup) (ho : ∀ a ∈ as, ∀ b ∈ f a, keyOf b = key a) : (as.flatMap f).Nodup := by
  apply List.nodup_flatMap.mpr
  refine ⟨hf, ?_⟩
  apply (List.pairwise_map.mp hk).imp_of_mem
  intro a a' ha ha' hne b hb hb'
  exact hne ((ho a ha b hb).symm.trans (ho a' ha' b hb'))

theorem flatMap_findIf {b : α → Bool} {location : α → Location} {finding : α → Finding} (as : List α) :
    as.flatMap (fun a => findIf (b a) (location a) (finding a)) = (as.filter b).map fun a => ⟨location a, finding a⟩ := by
  induction as with
  | nil => rfl
  | cons a as ih =>
    rw [List.flatMap_cons, ih, List.filter_cons]
    cases b a with
    | false => rfl
    | true => rfl

end

/-! ## Places within a step -/

section
variable {s : Step} {x : EventSite}

theorem mem_route_sites {r : String × Route} : x ∈ Route.sites r ↔
    x = ⟨r.2.emit, [.key "trigger", .key "routes", .key r.1, .key "emit"]⟩ ∨
      ∃ e, r.2.next = some e ∧ x = ⟨e, [.key "trigger", .key "routes", .key r.1, .key "then"]⟩ := by
  unfold Route.sites
  cases hn : r.2.next with
  | none => simp
  | some e => simp

theorem refersTo_of_mem_sites (h : x ∈ s.triggerSites ++ s.emitted) : s.RefersTo x.location x.event := by
  cases s with
  | agent a =>
    rcases List.mem_append.mp h with h | h
    · obtain ⟨i, t, ht, rfl⟩ := mem_map_numbered.mp h
      exact .agentTrigger ht
    · obtain ⟨i, e, he, rfl⟩ := mem_map_numbered.mp h
      exact .agentEmit he
  | function f =>
    rcases List.mem_append.mp h with h | h
    · simp only [Step.triggerSites] at h
      split at h
      · rename_i t ht
        obtain rfl := List.mem_singleton.mp h
        exact .simple ht
      · rename_i t ht
        rcases List.mem_cons.mp h with rfl | h
        · exact .primary ht
        · obtain ⟨i, e, he, rfl⟩ := mem_map_numbered.mp h
          exact .waitFor ht he
      · rename_i t ht
        obtain rfl := List.mem_singleton.mp h
        exact .routing ht
      · cases h
      · cases h
    · rcases List.mem_append.mp h with h | h
      · obtain ⟨i, e, he, rfl⟩ := mem_map_numbered.mp h
        exact .functionEmit he
      · unfold Trigger.emitted at h
        split at h
        · rename_i t ht
          obtain ⟨r, hr, h⟩ := List.mem_flatMap.mp h
          rcases mem_route_sites.mp h with rfl | ⟨e, he, rfl⟩
          · exact .route ht hr
          · exact .next ht hr he
        · cases h

theorem mem_sites_of_refersTo {location : Location} {e : String} (h : s.RefersTo location e) :
    ⟨e, location⟩ ∈ s.triggerSites ++ s.emitted := by
  have hroute {f : Function} {t : RoutingTrigger} {r : String × Route} {x : EventSite} (ht : f.trigger = .routing t)
      (hr : r ∈ t.routes) (hx : x ∈ Route.sites r) : x ∈ f.trigger.emitted := by
    rw [ht, Trigger.emitted]
    exact List.mem_flatMap.mpr ⟨r, hr, hx⟩
  apply List.mem_append.mpr
  cases h with
  | agentTrigger ht => exact .inl (mem_map_numbered.mpr ⟨_, _, ht, rfl⟩)
  | agentEmit he => exact .inr (mem_map_numbered.mpr ⟨_, _, he, rfl⟩)
  | simple ht => simp [Step.triggerSites, ht]
  | routing ht => simp [Step.triggerSites, ht]
  | primary ht => simp [Step.triggerSites, ht]
  | waitFor ht he =>
    simp only [Step.triggerSites, ht]
    exact .inl (List.mem_cons_of_mem _ (mem_map_numbered.mpr ⟨_, _, he, rfl⟩))
  | functionEmit he => exact .inr (List.mem_append_left _ (mem_map_numbered.mpr ⟨_, _, he, rfl⟩))
  | route ht hr => exact .inr (List.mem_append_right _ (hroute ht hr (mem_route_sites.mpr (.inl rfl))))
  | next ht hr he => exact .inr (List.mem_append_right _ (hroute ht hr (mem_route_sites.mpr (.inr ⟨_, he, rfl⟩))))

theorem mem_sites : x ∈ s.triggerSites ++ s.emitted ↔ s.RefersTo x.location x.event :=
  ⟨refersTo_of_mem_sites, mem_sites_of_refersTo⟩

/-! ## No place twice -/

theorem nodup_route_sites (r : String × Route) : ((Route.sites r).map EventSite.location).Nodup := by
  unfold Route.sites
  cases r.2.next with
  | none => simp
  | some e => simp

theorem nodup_routes_sites {routes : List (String × Route)} (h : (Index.names routes).Nodup) :
    ((routes.flatMap Route.sites).map EventSite.location).Nodup := by
  rw [List.map_flatMap]
  apply nodup_flatMap_of_key (fun r => some (PathStep.key r.1)) (fun l => l[2]?)
  · have hkeys := h.map (f := fun k => some (PathStep.key k)) fun _ _ hk => PathStep.key.inj (Option.some.inj hk)
    rwa [Index.names, List.map_map] at hkeys
  · exact fun r _ => nodup_route_sites r
  · intro r _ l hl
    obtain ⟨x, hx, rfl⟩ := List.mem_map.mp hl
    rcases mem_route_sites.mp hx with rfl | ⟨e, -, rfl⟩
    · rfl
    · rfl

theorem nodup_agent_sites (a : Agent) :
    (((Step.agent a).triggerSites ++ (Step.agent a).emitted).map EventSite.location).Nodup := by
  rw [List.map_append]
  apply List.nodup_append.mpr
  refine ⟨?_, ?_, ?_⟩
  · rw [Step.triggerSites, List.map_map]
    exact nodup_positions [.key "triggers"] [.key "event"] a.triggers
  · rw [Step.emitted, List.map_map]
    exact nodup_positions [.key "emits"] [.key "event"] a.emits
  · intro l hl l' hl'
    simp only [Step.triggerSites, Step.emitted, List.mem_map] at hl hl'
    obtain ⟨_, ⟨_, -, rfl⟩, rfl⟩ := hl
    obtain ⟨_, ⟨_, -, rfl⟩, rfl⟩ := hl'
    simp

def Function.triggerPlaces (f : Function) : List Location :=
  ((Step.function f).triggerSites ++ f.trigger.emitted).map EventSite.location

theorem head_triggerPlaces {f : Function} {l : Location} (h : l ∈ f.triggerPlaces) : l.head? = some (.key "trigger") := by
  simp only [Function.triggerPlaces, Step.triggerSites, Trigger.emitted] at h
  obtain ⟨x, hx, rfl⟩ := List.mem_map.mp h
  cases ht : f.trigger with
  | simple t =>
    rw [ht] at hx
    rw [List.mem_singleton.mp hx]
    rfl
  | fanIn t =>
    rw [ht, List.append_nil] at hx
    rcases List.mem_cons.mp hx with rfl | hx
    · rfl
    · obtain ⟨e, -, rfl⟩ := List.mem_map.mp hx
      rfl
  | cron t => simp [ht] at hx
  | routing t =>
    rw [ht] at hx
    rcases List.mem_cons.mp hx with rfl | hx
    · rfl
    · obtain ⟨r, -, hx⟩ := List.mem_flatMap.mp hx
      rcases mem_route_sites.mp hx with rfl | ⟨e, -, rfl⟩
      · rfl
      · rfl
  | webhook t => simp [ht] at hx

theorem nodup_triggerPlaces {f : Function} (h : ∀ t, f.trigger = .routing t → (Index.names t.routes).Nodup) :
    f.triggerPlaces.Nodup := by
  simp only [Function.triggerPlaces, Step.triggerSites, Trigger.emitted]
  cases ht : f.trigger with
  | simple t => exact List.nodup_singleton _
  | fanIn t =>
    rw [List.append_nil, List.map_cons, List.map_map]
    apply List.nodup_cons.mpr
    refine ⟨?_, nodup_positions [.key "trigger", .key "wait_for"] [] t.waitFor⟩
    simp
  | cron t => exact List.nodup_nil
  | routing t =>
    rw [List.singleton_append, List.map_cons]
    apply List.nodup_cons.mpr
    refine ⟨?_, nodup_routes_sites (h t ht)⟩
    intro hmem
    obtain ⟨x, hx, hl⟩ := List.mem_map.mp hmem
    obtain ⟨r, -, hx⟩ := List.mem_flatMap.mp hx
    rcases mem_route_sites.mp hx with rfl | ⟨e, -, rfl⟩
    · simp at hl
    · simp at hl
  | webhook t => exact List.nodup_nil

theorem nodup_function_sites {f : Function} (h : ∀ t, f.trigger = .routing t → (Index.names t.routes).Nodup) :
    (((Step.function f).triggerSites ++ (Step.function f).emitted).map EventSite.location).Nodup := by
  rw [Step.emitted, (List.perm_append_comm_assoc ..).map _ |>.nodup_iff, List.map_append]
  apply List.nodup_append.mpr
  refine ⟨?_, nodup_triggerPlaces h, ?_⟩
  · rw [List.map_map]
    exact nodup_positions [.key "emits"] [] f.emits
  · intro l hl l' hl' he
    obtain ⟨_, hx, rfl⟩ := List.mem_map.mp hl
    obtain ⟨_, -, rfl⟩ := List.mem_map.mp hx
    have := he ▸ head_triggerPlaces hl'
    simp at this

end

/-! ## Places of a manifest -/

def Webhook.sites (w : Webhook) : List EventSite :=
  match w.target with
  | .event r => [⟨r.emits, [.key "emits"]⟩]
  | .function _ => []

def EventSite.below (path : Location) (x : EventSite) : EventSite := ⟨x.event, path ++ x.location⟩

namespace Manifest

/-- The parts of a manifest that name events, in the order in which they are checked. -/
def parts (m : Manifest) : List (Location × List EventSite) :=
  (numbered 0 m.webhooks).map (fun w => ([.key "webhooks", .index w.1], w.2.sites)) ++
    m.steps.map fun s => (s.1, s.2.triggerSites ++ s.2.emitted)

def eventSites (m : Manifest) : List EventSite := m.parts.flatMap fun p => p.2.map (EventSite.below p.1)

section
variable {m : Manifest} {x : EventSite} {p : Location × List EventSite} {location : Location} {e : String}

theorem mem_parts : p ∈ m.parts ↔
    (∃ (i : Nat) (w : Webhook), m.webhooks[i]? = some w ∧ ([.key "webhooks", .index i], w.sites) = p) ∨
    (∃ (i : Nat) (a : Agent), m.agents[i]? = some a ∧
      ([.key "agents", .index i], (Step.agent a).triggerSites ++ (Step.agent a).emitted) = p) ∨
    ∃ (i : Nat) (f : Function), m.functions[i]? = some f ∧
      ([.key "functions", .index i], (Step.function f).triggerSites ++ (Step.function f).emitted) = p := by
  simp only [parts, steps, List.map_append, List.map_map, List.mem_append, mem_map_numbered, Function.comp_apply]

theorem mem_webhook_sites {w : Webhook} : x ∈ w.sites ↔ ∃ r, w.target = .event r ∧ x = ⟨r.emits, [.key "emits"]⟩ := by
  unfold Webhook.sites
  cases w.target with
  | event r => simp
  | function r => simp

theorem mem_eventSites : x ∈ m.eventSites ↔ m.RefersTo x.location x.event := by
  simp only [eventSites, List.mem_flatMap, List.mem_map]
  constructor
  · intro h
    obtain ⟨p, hp, y, hy, rfl⟩ := h
    rcases mem_parts.mp hp with ⟨i, w, hw, rfl⟩ | ⟨i, a, ha, rfl⟩ | ⟨i, f, hf, rfl⟩
    · obtain ⟨r, hr, rfl⟩ := mem_webhook_sites.mp hy
      exact .webhook hw hr
    · exact .agent ha (mem_sites.mp hy)
    · exact .function hf (mem_sites.mp hy)
  · intro h
    obtain ⟨e, location⟩ := x
    cases h with
    | agent ha h => exact ⟨_, mem_parts.mpr (.inr (.inl ⟨_, _, ha, rfl⟩)), ⟨e, _⟩, mem_sites.mpr h, rfl⟩
    | function hf h => exact ⟨_, mem_parts.mpr (.inr (.inr ⟨_, _, hf, rfl⟩)), ⟨e, _⟩, mem_sites.mpr h, rfl⟩
    | webhook hw hr => exact ⟨_, mem_parts.mpr (.inl ⟨_, _, hw, rfl⟩), _, mem_webhook_sites.mpr ⟨_, hr, rfl⟩, rfl⟩

theorem nodup_paths (m : Manifest) : (m.parts.map Prod.fst).Nodup := by
  simp only [parts, steps, List.map_append, List.map_map]
  apply List.nodup_append.mpr
  refine ⟨nodup_positions [.key "webhooks"] [] m.webhooks, ?_, ?_⟩
  · apply List.nodup_append.mpr
    refine ⟨nodup_positions [.key "agents"] [] m.agents, nodup_positions [.key "functions"] [] m.functions, ?_⟩
    intro l hl l' hl'
    obtain ⟨_, -, rfl⟩ := List.mem_map.mp hl
    obtain ⟨_, -, rfl⟩ := List.mem_map.mp hl'
    simp
  · intro l hl l' hl'
    obtain ⟨_, -, rfl⟩ := List.mem_map.mp hl
    rcases List.mem_append.mp hl' with hl' | hl'
    · obtain ⟨_, -, rfl⟩ := List.mem_map.mp hl'
      simp
    · obtain ⟨_, -, rfl⟩ := List.mem_map.mp hl'
      simp

theorem length_path (h : p ∈ m.parts) : p.1.length = 2 := by
  rcases mem_parts.mp h with ⟨i, w, -, rfl⟩ | ⟨i, a, -, rfl⟩ | ⟨i, f, -, rfl⟩
  · rfl
  · rfl
  · rfl

theorem nodup_eventSites (h : ∀ f ∈ m.functions, ∀ t, f.trigger = .routing t → (Index.names t.routes).Nodup) :
    (m.eventSites.map EventSite.location).Nodup := by
  rw [eventSites, List.map_flatMap]
  apply nodup_flatMap_of_key Prod.fst (List.take 2) (nodup_paths m)
  · intro p hp
    have hbelow : (p.2.map (EventSite.below p.1)).map EventSite.location = (p.2.map EventSite.location).map (p.1 ++ ·) := by
      rw [List.map_map, List.map_map]
      rfl
    rw [hbelow]
    apply List.Nodup.map (List.append_right_injective p.1)
    rcases mem_parts.mp hp with ⟨i, w, -, rfl⟩ | ⟨i, a, -, rfl⟩ | ⟨i, f, hf, rfl⟩
    · unfold Webhook.sites
      cases w.target with
      | event r => exact List.nodup_singleton _
      | function r => exact List.nodup_nil
    · exact nodup_agent_sites a
    · exact nodup_function_sites (h f (List.mem_of_getElem? hf))
  · intro p hp l hl
    obtain ⟨y, hy, rfl⟩ := List.mem_map.mp hl
    obtain ⟨z, -, rfl⟩ := List.mem_map.mp hy
    change (p.1 ++ z.location).take 2 = p.1
    rw [← length_path hp, List.take_left]

end

/-! ## Findings -/

section
variable {m : Manifest} {settings : Settings} {custom : Option (List String)} {path : Location} {ds : List Diagnostic}

theorem checkSites_below (path : Location) (sites : List EventSite) :
    m.checkSites path sites = m.checkSites [] (sites.map (EventSite.below path)) := by
  unfold checkSites
  rw [List.flatMap_map]
  rfl

theorem checkSites_append (path : Location) (sites more : List EventSite) :
    m.checkSites path (sites ++ more) = m.checkSites path sites ++ m.checkSites path more :=
  List.flatMap_append

theorem no_events {cs : List String} {found : List Located} (h : Codes cs found) (hc : "unknown_event" ∉ cs) :
    Located.coded "unknown_event" found = [] := coded_of_other h hc

theorem coded_checkStep (path : Location) (s : Step) :
    Located.coded "unknown_event" (m.checkStep custom path s) = m.checkSites path (s.triggerSites ++ s.emitted) := by
  unfold checkStep
  simp only [coded_append, coded_of_same checkSites_codes, no_events checkSource_codes (by decide),
    no_events checkTriggerKeys_codes (by decide), no_events checkInput_codes (by decide),
    no_events checkActions_codes (by decide), List.nil_append, List.append_nil, checkSites_append]
  split
  · rw [no_events checkContract_codes (by decide), List.append_nil]
  · exact List.append_nil _

theorem coded_checkWebhook (path : Location) (w : Webhook) :
    Located.coded "unknown_event" (m.checkWebhook path w) = m.checkSites path w.sites := by
  unfold checkWebhook Webhook.sites
  cases w.target with
  | event r =>
    rw [coded_of_same checkEvent_codes]
    exact (List.flatMap_singleton ..).symm
  | function r =>
    have hcodes : Codes ["unknown_function", "function_pattern_mismatch"]
        (m.checkWebhook path { w with target := .function r }) := by
      unfold checkWebhook
      dsimp only
      split
      · simp [Finding.code]
      · exact codes_findIf (by simp [Finding.code])
    exact no_events hcodes (by decide)

theorem coded_checkWebhooksAndCrons : Located.coded "unknown_event" m.checkWebhooksAndCrons =
    (numbered 0 m.webhooks).flatMap fun w => m.checkSites [.key "webhooks", .index w.1] w.2.sites := by
  have hcrons {found : Nat × Cron → List Located} (h : ∀ c, Codes ["unknown_function"] (found c)) :
      Located.coded "unknown_event" ((numbered 0 m.crons).flatMap found) = [] :=
    no_events (codes_flatMap h) (by decide)
  unfold checkWebhooksAndCrons
  rw [coded_append, hcrons, List.append_nil, coded_flatMap]
  · exact List.flatMap_congr fun w _ => coded_checkWebhook [.key "webhooks", .index w.1] w.2
  · intro c
    exact codes_findIf (by simp [Finding.code])

theorem coded_findings_events :
    Located.coded "unknown_event" (m.findings settings custom) = m.checkSites [] m.eventSites := by
  unfold findings
  simp only [checkReferences_eq, coded_append, no_events checkDuplicates_codes (by decide), no_events checkStates_codes (by decide),
    no_events checkEvents_codes (by decide), no_events checkPolicies_codes (by decide),
    no_events (unconsumed_codes settings) (by decide), List.nil_append, List.append_nil, coded_checkWebhooksAndCrons,
    coded_flatMap, coded_checkStep]
  have hparts : m.checkSites [] m.eventSites = m.parts.flatMap fun p => m.checkSites p.1 p.2 := by
    rw [eventSites, checkSites, List.flatMap_assoc]
    exact List.flatMap_congr fun p _ => (checkSites_below p.1 p.2).symm
  rw [hparts, parts, List.flatMap_append, List.flatMap_map, List.flatMap_map]

theorem eventNamed?_isNone {name : String} : (m.eventNamed? name).isNone = true ↔ name ∉ m.events.names := by
  rw [← eventNamed?_isSome, Option.not_isSome_iff_eq_none, Option.isNone_iff_eq_none]

theorem events_reported (hd : m.diagnose settings custom = .ok ds) : coded "unknown_event" ds =
    (m.eventSites.filter fun x => (m.eventNamed? x.event).isNone).map fun x => undeclaredEvent x.location x.event := by
  obtain ⟨-, rfl⟩ := Located.diagnostics_eq_ok.mp hd
  rw [coded_diagnostics, coded_findings_events, checkSites]
  simp only [List.nil_append, checkEvent]
  rw [flatMap_findIf, List.map_map]
  rfl

variable (settings custom) in
/-- **Undeclared events are reported where they are named.** A manifest is diagnosed exactly if no number ends the reading
of its expressions; then each place that names an undeclared event has a diagnostic, and these are all, each for a place of
its own. -/
theorem diagnose_references {document : Value} (h : Manifest.load document = .ok m) :
    ((∃ ds, m.diagnose settings custom = .ok ds) ↔ m.Legible) ∧
    (∀ location e e', m.RefersTo location e → m.RefersTo location e' → e = e') ∧
    ∀ ds, m.diagnose settings custom = .ok ds → ((coded "unknown_event" ds).map Diagnostic.location).Nodup ∧
      ∀ d, d ∈ coded "unknown_event" ds ↔
        ∃ location e, m.RefersTo location e ∧ e ∉ m.events.names ∧ d = undeclaredEvent location e := by
  have hnodup := nodup_eventSites fun f hf t ht => load_routes h hf ht
  refine ⟨diagnose_isOk_iff, ?_, ?_⟩
  · intro location e e' he he'
    have hsite := List.inj_on_of_nodup_map hnodup (mem_eventSites (x := ⟨e, location⟩).mpr he)
      (mem_eventSites (x := ⟨e', location⟩).mpr he') rfl
    exact congrArg EventSite.event hsite
  · intro ds hd
    rw [events_reported hd]
    constructor
    · rw [List.map_map]
      exact hnodup.sublist (List.filter_sublist.map _)
    · intro d
      simp only [List.mem_map, List.mem_filter, mem_eventSites]
      constructor
      · intro hx
        obtain ⟨x, ⟨hx, hn⟩, rfl⟩ := hx
        exact ⟨x.location, x.event, hx, eventNamed?_isNone.mp hn, rfl⟩
      · intro hl
        obtain ⟨location, e, hl, hn, rfl⟩ := hl
        exact ⟨⟨e, location⟩, ⟨hl, eventNamed?_isNone.mpr hn⟩, rfl⟩

end

end Manifest

open Plan

/-- A document with names of undeclared events in every kind of place, and an action that writes some template. -/
def misnamed (template : String) : Value := .mapping [
  entry "product" (.mapping [
    entry "name" (.text "misnamed"), entry "description" (.text ""), entry "version" (.text "1")]),
  entry "state_machine" (.mapping [
    entry "initial" (.text "open"),
    entry "states" (.list [.mapping [entry "name" (.text "open"), entry "terminal" (.bool true)]])]),
  entry "events" (.mapping [
    entry "namespace" (.text "misnamed"), entry "definitions" (.list [workshop.event "ordered", workshop.event "paid"])]),
  entry "functions" (.list [
    workshop.function "pack" "fan-in" [entry "primary" (.text "lost"), entry "wait_for" (names ["ordered", "lost"]),
      entry "correlation_key" (.text "id")] [entry "emits" (names ["lost", "ordered", "lost"])],
    workshop.function "split" "routing" [entry "event" (.text "paid"), entry "route_on" (.text "id"),
      entry "routes" (.mapping [
        entry "late" (.mapping [entry "emit" (.text "ordered"), entry "then" (.text "lost")]),
        entry "soon" (.mapping [entry "emit" (.text "lost")])])] [
      entry "persist" (.list [.mapping [
        entry "action" (.text "insert"), entry "table" (.text "orders"),
        entry "values" (.mapping [entry "id" (.text template)])]])]]),
  entry "database" (.mapping [
    entry "actors" (.list [.mapping [entry "name" (.text "owner"), entry "identifier" (.text "auth.uid()")]]),
    entry "tables" (.list [.mapping [
      entry "name" (.text "orders"),
      entry "access" (.list [.mapping [
        entry "actor" (.text "owner"), entry "operations" (names ["ALL"]), entry "condition" (.text "id = :actor")]])]])]),
  entry "webhooks" (.list [workshop.webhook "door" "event" [entry "emits" (.text "lost")]])]

theorem diagnose_references_misnamed : ∃ m ds, Manifest.load (misnamed "\x7b\x7b id \x7d\x7d") = .ok m ∧
    m.diagnose .standard none = .ok ds ∧ m.Legible ∧ ((coded "unknown_event" ds).map Diagnostic.location).Nodup ∧
    (∀ d, d ∈ coded "unknown_event" ds ↔
      ∃ location e, m.RefersTo location e ∧ e ∉ m.events.names ∧ d = undeclaredEvent location e) ∧
    (coded "unknown_event" ds).length = 7 := by
  have hc : (Manifest.load (misnamed "\x7b\x7b id \x7d\x7d")).toOption.any (fun m =>
      (m.diagnose .standard none).toOption.any fun ds => (coded "unknown_event" ds).length == 7) = true := by
    decide +kernel
  obtain ⟨m, hm, hc⟩ := any_toOption.mp hc
  obtain ⟨ds, hd, hc⟩ := any_toOption.mp hc
  obtain ⟨hlegible, -, hreported⟩ := Manifest.diagnose_references .standard none hm
  obtain ⟨hnodup, hall⟩ := hreported ds hd
  exact ⟨m, ds, hm, hd, hlegible.mp ⟨ds, hd⟩, hnodup, hall, beq_iff_eq.mp hc⟩

/-- A place names an undeclared event, but a number in a template ends the search for such places. -/
theorem diagnose_misnamed_number : ∃ m, Manifest.load (misnamed "\x7b\x7b 1.\u0665 \x7d\x7d") = .ok m ∧
    m.RefersTo [.key "functions", .index 0, .key "emits", .index 0] "lost" ∧ "lost" ∉ m.events.names ∧
    m.diagnose .standard none = .error (.foreign none) := by
  have hc : (Manifest.load (misnamed "\x7b\x7b 1.\u0665 \x7d\x7d")).toOption.any (fun m =>
      decide (⟨"lost", [.key "functions", .index 0, .key "emits", .index 0]⟩ ∈ m.eventSites ∧ "lost" ∉ m.events.names) &&
      (fault? (m.diagnose .standard none)).any fun b => b = .foreign none) = true := by
    decide +kernel
  obtain ⟨m, hm, hc⟩ := any_toOption.mp hc
  obtain ⟨hn, hd⟩ := Bool.and_eq_true_iff.mp hc
  obtain ⟨hsite, hn⟩ := of_decide_eq_true hn
  obtain ⟨b, hd, hforeign⟩ := any_fault?.mp hd
  obtain rfl := of_decide_eq_true hforeign
  exact ⟨m, hm, Manifest.mem_eventSites.mp hsite, hn, hd⟩

end Workflow
