import Workflow.Manifest
import Workflow.Persist
import Workflow.Proofs.Shape

/-!
# What a manifest is read and written as

A document that is no manifest is refused for some reason, and a manifest can be written as JSON again. The only integers
in it are the limits of its agents and those that its actions write to columns.
-/

namespace Workflow

/-! ## Integers -/

/-- The integers that go into columns. Of several values for a column the last one counts. -/
def Assignments.integers (values : Assignments) : List Int := (Index.ofEntries values).flatMap fun e => e.2.integers

def StepRules.integers (s : StepRules) : List Int := s.persist.flatMap fun a => Assignments.integers a.assignments

def AgentLimits.integers (l : AgentLimits) : List Int := [l.maxTokens, l.maxToolCalls, l.timeoutSeconds, l.maxRetries]

def Manifest.integers (m : Manifest) : List Int :=
  (m.agents.flatMap fun a => a.toStepRules.integers ++ a.limits.integers) ++
    m.functions.flatMap fun f => f.toStepRules.integers

/-! ## What is known of a manifest that was read -/

def EventField.Bounded (f : EventField) : Prop :=
  (∀ x ∈ f.least, x.isFinite = true) ∧ ∀ x ∈ f.greatest, x.isFinite = true

def Assignments.Literal (values : Assignments) : Prop := ∀ e ∈ values, ∃ j, e.2.toJson = .ok j

def StepRules.Literal (s : StepRules) : Prop := ∀ a ∈ s.persist, Assignments.Literal a.assignments

structure Manifest.WellRead (m : Manifest) : Prop where
  bounds : ∀ e ∈ m.events.definitions, ∀ f ∈ e.payload, f.2.Bounded
  agents : ∀ a ∈ m.agents, a.toStepRules.Literal
  functions : ∀ f ∈ m.functions, f.toStepRules.Literal
  access : ∀ t ∈ m.database.tables, t.access ≠ []

namespace Shape

/-! ## Parts without integers -/

instance : product.Plain := .node (by decide)

instance : inngestSettings.Plain := .node (by decide)

instance : supabaseSettings.Plain := .node (by decide)

instance : anthropicSettings.Plain := .node (by decide)

instance : deploymentSettings.Plain := .node (by decide)

instance : infrastructure.Plain := .node (by decide)

instance : tenancyIsolation.Plain := .node (by decide)

instance : tenancy.Plain := .node (by decide)

instance : stateDefinition.Plain := ⟨.filtered (.node Fields.Plain.sound (by decide))⟩

instance : stateMachine.Plain := .node (by decide)

instance : dbSource.Plain := .node (by decide)

instance : staticSource.Plain := .node (by decide)

instance : artifactSpec.Plain := .node (by decide)

instance : contextIn.Plain := .node (by decide)

instance : contextOut.Plain := .node (by decide)

instance : contract.Plain := .node (by decide)

instance {what : String} : (durationOrNull what).Plain := by
  unfold durationOrNull
  infer_instance

instance : subagent.Plain := .node (by decide)

instance : mcpServer.Plain := .node (by decide)

instance : agentConfig.Plain := .node (by decide)

instance : workspace.Plain := .node (by decide)

instance : triggerRef.Plain := .node (by decide)

instance : emitSpec.Plain := .node (by decide)

instance : validationRule.Plain := .node (by decide)

instance : outputRule.Plain := .node (by decide)

instance : customAction.Plain := .node (by decide)

instance : simpleTrigger.Plain := .node (by decide)

instance : fanInTrigger.Plain := .node (by decide)

instance : cronTrigger.Plain := .node (by decide)

instance : route.Plain := .node (by decide)

instance : routingTrigger.Plain := .node (by decide)

instance : webhookTrigger.Plain := .node (by decide)

instance : webhookHandler.Plain := .node (by decide)

instance : rootedPath.Plain := by
  unfold rootedPath
  infer_instance

instance : webhookHead.Plain := by
  unfold webhookHead
  infer_instance

instance : eventRoute.Plain := by
  unfold eventRoute
  infer_instance

instance : functionRoute.Plain := by
  unfold functionRoute
  infer_instance

instance : scheduleText.Plain := by
  unfold scheduleText
  infer_instance

instance : cron.Plain := .node (by decide)

instance {what : String} : (identifier what).Plain := by
  unfold identifier
  infer_instance

instance : column.Plain := .node (by decide)

instance : accessPolicy.Plain := .node (by decide)

instance : actor.Plain := .node (by decide)

instance : loggingOptions.Plain := .node (by decide)

instance : tracingOptions.Plain := .node (by decide)

instance : observability.Plain := .node (by decide)

/-! ## Webhooks -/

theorem webhook_sound : webhook.Sound (fun _ => True) fun _ => [] := by
  have he : eventWebhook.Plain := ⟨.filtered (.node Fields.Plain.sound (by decide))⟩
  have hf : functionWebhook.Plain := ⟨.filtered (.node Fields.Plain.sound (by decide))⟩
  refine ⟨fun v => readTagged_meets fun b hb v => ?_, fun w _ => ?_⟩
  · simp only [List.mem_cons, List.not_mem_nil, or_false] at hb
    rcases hb with rfl | rfl
    · exact .map (he.sound.read v)
    · exact .map (hf.sound.read v)
  · simp only [webhook]
    split
    · exact he.sound.written _ trivial
    · exact hf.sound.written _ trivial

instance : webhook.Plain := ⟨webhook_sound⟩

/-! ## Events -/

theorem bound_sound : (nullable float).Sound (fun o => ∀ x ∈ o, x.isFinite = true) fun _ => [] :=
  float_sound.nullable.congr (fun _ => Iff.rfl) (by simp)

theorem eventField_sound : eventField.Sound EventField.Bounded fun _ => [] := by
  refine .filtered (.node ?_ (by decide))
  refine .knownOr bound_sound (by simp) (fun _ h => h.2) (.knownOr bound_sound (by simp) (fun _ h => h.1) ?_)
  exact .plainOr (.plainOr (.plain (.of fun _ _ _ _ hleast _ hgreatest => ⟨hleast, hgreatest⟩)))

theorem eventDefinition_sound : eventDefinition.Sound (fun e => ∀ f ∈ e.payload, f.2.Bounded) fun _ => [] := by
  have hpayload : (Shape.entries eventField).Sound (fun fs => ∀ f ∈ fs, f.2.Bounded) fun _ => [] :=
    eventField_sound.entries.congr (fun _ => Iff.rfl) (by simp)
  refine .node (.plainOr (.knownOr hpayload (by simp) (fun _ h => h) ?_)) (by decide)
  exact .plainOr (.plain (.of fun _ _ _ hp _ => hp))

theorem events_sound : events.Sound (fun e => ∀ d ∈ e.definitions, ∀ f ∈ d.payload, f.2.Bounded) fun _ => [] := by
  have hdefinitions : (Shape.tuple eventDefinition).Sound (fun ds => ∀ d ∈ ds, ∀ f ∈ d.payload, f.2.Bounded) fun _ => [] :=
    eventDefinition_sound.tuple.congr (fun _ => Iff.rfl) (by simp)
  exact .node (.knownOr hdefinitions (by simp) (fun _ h => h) (.plain (.of fun _ _ hd => hd))) (by decide)

/-! ## Actions -/

theorem updateAction_sound :
    updateAction.Sound (fun u => Assignments.Literal u.values) fun u => Assignments.integers u.values := by
  refine .node (.plainOr (.first literal_sound.filledEntries nofun (fun _ h => h) ?_)) (by decide)
  exact .plain (.constant (.of fun _ _ hvalues _ => hvalues))

theorem insertAction_sound :
    insertAction.Sound (fun r => Assignments.Literal r.values) fun r => Assignments.integers r.values := by
  refine .node (.first literal_sound.filledEntries nofun (fun _ h => h) ?_) (by decide)
  exact .plain (.constant (.of fun _ _ hvalues => hvalues))

theorem logAction_sound :
    logAction.Sound (fun r => Assignments.Literal r.values) fun r => Assignments.integers r.values := by
  refine .node (.first literal_sound.entries (by simp) (fun _ h => h) ?_) (by decide)
  exact .plain (.constant (.of fun _ _ hvalues => hvalues))

theorem persistAction_sound :
    persistAction.Sound (fun a => Assignments.Literal a.assignments) fun a => Assignments.integers a.assignments := by
  have hcustom : customAction.Plain := inferInstance
  refine ⟨fun v => readTagged_meets fun b hb v => ?_, fun a ha => ?_⟩
  · simp only [List.mem_cons, List.not_mem_nil, or_false] at hb
    rcases hb with rfl | rfl | rfl | rfl
    · exact .map (updateAction_sound.read v)
    · exact .map (insertAction_sound.read v)
    · exact .map (logAction_sound.read v)
    · exact .map ((hcustom.sound.read v).mono fun _ _ => by simp [PersistAction.assignments, Assignments.Literal])
  · cases a with
    | update u => exact updateAction_sound.written u ha
    | insert r => exact insertAction_sound.written r ha
    | log r => exact logAction_sound.written r ha
    | custom c => exact hcustom.sound.written c trivial

/-! ## Steps -/

theorem stepRules_sound : stepRules.Sound StepRules.Literal StepRules.Literal StepRules.integers := by
  refine .first persistAction_sound.tuple ?_ (fun _ h => h) (.plainOr (.plainOr (.of fun _ _ _ hpersist => hpersist)))
  simp

theorem agentLimits_sound : agentLimits.Sound (fun _ => True) AgentLimits.integers := by
  have hlimit (bound : Int) : (intAbove bound).Sound (fun _ => True) fun n => [n] := int_sound.filtered
  have hretries : (intFrom 0).Sound (fun _ => True) fun n => [n] := int_sound.filtered
  refine .node (.congr (.fieldOr hretries trivial (fun _ _ => trivial) (.fieldOr (hlimit 0) trivial (fun _ _ => trivial)
    (.fieldOr (hlimit 0) trivial (fun _ _ => trivial) (.first (hlimit 0) (fun _ _ => trivial) (fun _ _ => trivial) ?_))))
    (fun _ h => h) fun _ _ => Iff.rfl) (by decide)
  exact .of fun _ _ _ _ _ _ _ _ => trivial

theorem agent_sound : agent.Sound (fun a => a.toStepRules.Literal) fun a => a.toStepRules.integers ++ a.limits.integers := by
  refine .node (.plainOr (.fieldOr agentLimits_sound trivial (fun _ _ => trivial) ?_)) (by decide)
  refine .plain (.plain (.plainOr (.plain (.plain (.plain (.firstPart stepRules_sound (fun _ h => h) ?_))))))
  exact .of fun _ hrules _ _ _ _ _ _ _ _ _ => hrules

theorem functionHead_sound : functionHead.Sound (fun h => h.toStepRules.Literal) (fun h => h.toStepRules.Literal)
    fun h => h.toStepRules.integers := by
  refine .plainOr (.plainOr (.plainOr (.plainOr (.plainOr (.plainOr (.plain (.plain ?_)))))))
  exact .firstPart stepRules_sound (fun _ h => h) (.of fun _ hrules _ _ _ _ _ _ _ _ => hrules)

theorem functionOf_sound {τ : Type} {name pattern : String} {trigger : Shape τ} [trigger.Plain] :
    (functionOf name pattern trigger).Sound (fun f => f.1.toStepRules.Literal) fun f => f.1.toStepRules.integers := by
  refine .node (.plain (.constant (.firstPart functionHead_sound (fun _ h => h) (.of fun _ hrules _ => hrules)))) ?_
  -- the names do not depend on the trigger
  change (functionHead.names ++ ["pattern", "trigger"]).Nodup
  decide

theorem function_sound : function.Sound (fun f => f.toStepRules.Literal) fun f => f.toStepRules.integers := by
  refine ⟨fun v => readTagged_meets fun b hb v => ?_, fun f hf => ?_⟩
  · simp only [List.mem_cons, List.not_mem_nil, or_false] at hb
    rcases hb with rfl | rfl | rfl | rfl | rfl
    · exact .map (functionOf_sound.read v)
    · exact .map (functionOf_sound.read v)
    · exact .map (functionOf_sound.read v)
    · exact .map (functionOf_sound.filtered.read v)
    · exact .map (functionOf_sound.read v)
  · simp only [function]
    split
    · exact functionOf_sound.written _ hf
    · exact functionOf_sound.written _ hf
    · exact functionOf_sound.written _ hf
    · exact functionOf_sound.filtered.written _ hf
    · exact functionOf_sound.written _ hf

/-! ## Tables -/

theorem table_sound : table.Sound (fun t => t.access ≠ []) fun _ => [] := by
  have haccess : (filledTuple accessPolicy).Sound (fun as => as ≠ []) fun _ => [] := by
    have h : accessPolicy.Plain := inferInstance
    exact h.sound.filledTuple.congr (by simp) (by simp)
  exact .node (.known haccess (fun _ h => h) (.plainOr (.plain (.of fun _ _ _ h => h)))) (by decide)

theorem database_sound : database.Sound (fun d => ∀ t ∈ d.tables, t.access ≠ []) fun _ => [] := by
  have htables : (Shape.tuple table).Sound (fun ts => ∀ t ∈ ts, t.access ≠ []) fun _ => [] :=
    table_sound.tuple.congr (fun _ => Iff.rfl) (by simp)
  refine .node (.knownOr htables (by simp) (fun _ h => h) (.plainOr (.plainOr (.of fun _ _ _ h => h)))) (by decide)

/-! ## Manifests -/

theorem manifest_sound : manifest.Sound Manifest.WellRead Manifest.integers := by
  refine .node (.plainOr (.plainOr (.plainOr (.knownOr database_sound (by simp) (fun _ h => h.access) ?_)))) (by decide)
  refine .fieldOr function_sound.tuple (by simp) (fun _ h => h.functions) ?_
  refine .first agent_sound.tuple (by simp) (fun _ h => h.agents) ?_
  refine .known events_sound (fun _ h => h.bounds) (.plain (.plainOr (.plainOr (.plain (.of ?_)))))
  exact fun _ _ _ _ _ hbounds _ hagents _ hfunctions _ haccess _ _ _ => ⟨hbounds, hagents, hfunctions, haccess⟩

end Shape

end Workflow
