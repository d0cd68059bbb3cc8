import Workflow.Manifest
import Workflow.Proofs.Shape.Stable

/-!
# Manifests are read as they are written

Every node of a manifest is read again from what is written of it, with the defaults in place and the coercions done.
-/

namespace Workflow

namespace Shape

/-! ## Product and infrastructure -/

instance : product.Stable := .of_fields

instance : inngestSettings.Stable := .of_fields

instance : supabaseSettings.Stable := .of_fields

instance : anthropicSettings.Stable := .of_fields

instance : deploymentSettings.Stable := .of_fields

instance : infrastructure.Stable := .of_fields

instance : infrastructure.Filled := inferInstanceAs (node _ _).Filled

instance : tenancyIsolation.Stable := .of_fields

instance : tenancy.Stable := .of_fields

instance : tenancy.Filled := inferInstanceAs (node _ _).Filled

/-! ## States and events -/

instance : stateDefinition.Stable := Stable.filtered .of_fields

instance : stateMachine.Stable := .of_fields

instance : eventField.Stable := Stable.filtered .of_fields

instance : eventDefinition.Stable := .of_fields

instance : events.Stable := .of_fields

/-! ## Contracts -/

instance : dbSource.Stable := .of_fields

instance : staticSource.Stable := .of_fields

instance : artifactSpec.Stable := by
  have hstorage : (oneOf ["supabase_storage", "database", "none"]).Fixed "supabase_storage" := fixed_oneOf (by decide)
  exact .of_fields (by simp +contextual [hstorage])

instance : contextIn.Stable := .of_fields

instance : contextOut.Stable := .of_fields

instance : ((filledTuple text).prepared oneOrMore).Stable := Stable.prepared inferInstance fun _ => rfl

instance : contract.Stable := by
  have hin : contextIn.Fixed ⟨[], []⟩ := rfl
  have hout : contextOut.Fixed ⟨[]⟩ := rfl
  exact .of_fields (by simp +contextual [hin, hout])

instance : contract.Filled := inferInstanceAs (node _ _).Filled

/-! ## Rules of steps -/

instance : validationRule.Stable := .of_fields

instance : outputRule.Stable := .of_fields

instance : updateAction.Stable := .of_fields

instance : insertAction.Stable := .of_fields

instance : logAction.Stable := .of_fields

instance : customAction.Stable := .of_fields

theorem updateAction_tag : updateAction.WritesTag "action" "update" :=
  writesTag_node (by decide) fun a => Fields.mem_spelled (Fields.mem_spelled (Fields.mem_spelled (Fields.mem_constant a)))

theorem insertAction_tag : insertAction.WritesTag "action" "insert" :=
  writesTag_node (by decide) fun a => Fields.mem_spelled (Fields.mem_spelled (Fields.mem_constant a))

theorem logAction_tag : logAction.WritesTag "action" "log" :=
  writesTag_node (by decide) fun a => Fields.mem_spelled (Fields.mem_spelled (Fields.mem_constant a))

theorem customAction_tag : customAction.WritesTag "action" "custom" :=
  writesTag_node (by decide) fun a => Fields.mem_spelled (Fields.mem_constant a)

instance : persistAction.Stable := by
  refine ⟨?_⟩
  intro v a h
  obtain ⟨branch, hbranch, hr⟩ := readTagged_eq_ok h
  simp only [List.mem_cons, List.not_mem_nil, or_false] at hbranch
  rcases hbranch with rfl | rfl | rfl | rfl
  all_goals
    obtain ⟨b, hb, rfl⟩ := map_eq_ok.mp hr
    simp only [Fixed, persistAction]
  · apply readTagged_written PersistAction.update updateAction_tag (Stable.fixed hb)
    rfl
  · apply readTagged_written PersistAction.insert insertAction_tag (Stable.fixed hb)
    rfl
  · apply readTagged_written PersistAction.log logAction_tag (Stable.fixed hb)
    rfl
  · apply readTagged_written PersistAction.custom customAction_tag (Stable.fixed hb)
    rfl

instance : stepRules.Stable := by
  unfold stepRules
  have hinput : validationRule.Fixed ⟨[], none, none, []⟩ := rfl
  have houtput : outputRule.Fixed ⟨true, false, []⟩ := rfl
  exact .of_parts (by simp +contextual [hinput, houtput])

instance : stepRules.Named := by
  unfold stepRules
  infer_instance

/-! ## Agents -/

instance {what : String} : (durationOrNull what).Stable := Stable.filtered inferInstance

instance : subagent.Stable := .of_fields

instance : mcpServer.Stable := .of_fields

instance : agentConfig.Stable := by
  have hmode : (oneOf ["default", "acceptEdits", "bypassPermissions"]).Fixed "default" := fixed_oneOf (by decide)
  exact .of_fields (by simp +contextual [hmode])

instance : agentLimits.Stable := by
  have habove {n : Int} (h : 0 < n) : (intAbove 0).Fixed n := fixed_filtered.mpr ⟨rfl, if_pos h⟩
  have hfrom : (intFrom 0).Fixed 3 := rfl
  exact .of_fields (by simp +contextual [habove, hfrom])

instance : workspace.Stable := by
  have hcleanup : (oneOf ["on_success", "on_complete", "never"]).Fixed "on_success" := fixed_oneOf (by decide)
  exact .of_fields (by simp +contextual [hcleanup])

instance : triggerRef.Stable := .of_fields

instance : emitSpec.Stable := by
  have hdelay : (durationOrNull "delay").Fixed none := rfl
  exact .of_fields (by simp +contextual [hdelay])

instance : agent.Stable := by
  have hlimits : agentLimits.Fixed ⟨50000, 50, 300, 3⟩ := rfl
  have hworkspace : workspace.Fixed ⟨none, "on_success", true⟩ := rfl
  exact .of_fields (by simp +contextual [hlimits, hworkspace])

/-! ## Functions -/

instance : simpleTrigger.Stable := .of_fields

instance : fanInTrigger.Stable := by
  have htimeout : (durationOrNull "timeout").Fixed none := rfl
  exact .of_fields (by simp +contextual [htimeout])

instance : cronTrigger.Stable := .of_fields

instance : route.Stable := .of_fields

instance : routingTrigger.Stable := .of_fields

instance : webhookTrigger.Stable := .of_fields

instance : functionHead.Stable := by
  unfold functionHead
  exact .of_parts

instance : functionHead.Named := by
  unfold functionHead
  infer_instance

section
variable {τ : Type} {name pattern : String} {trigger : Shape τ}

theorem functionOf_names : (functionHead.names ++ ["pattern", "trigger"]).Nodup := by decide

theorem functionOf_keys : [] ∉ functionHead.keys ++ [["pattern"], ["trigger"]] := by decide

instance [trigger.Stable] : (functionOf name pattern trigger).Stable :=
  .of_fields (by simp +contextual) (fun _ => rfl) functionOf_names functionOf_keys

theorem functionOf_tag : (functionOf name pattern trigger).WritesTag "pattern" pattern :=
  writesTag_node functionOf_names fun f => Fields.mem_spelled (Fields.mem_constant f)

end

instance : simpleFunction.Stable := inferInstanceAs (functionOf _ _ _).Stable

instance : fanInFunction.Stable := inferInstanceAs (functionOf _ _ _).Stable

instance : cronFunction.Stable := inferInstanceAs (functionOf _ _ _).Stable

instance : routingFunction.Stable := inferInstanceAs (checked (functionOf _ _ _) _).Stable

instance : webhookFunction.Stable := inferInstanceAs (functionOf _ _ _).Stable

instance : function.Stable := by
  refine ⟨?_⟩
  intro v a h
  obtain ⟨branch, hbranch, hr⟩ := readTagged_eq_ok h
  simp only [List.mem_cons, List.not_mem_nil, or_false] at hbranch
  rcases hbranch with rfl | rfl | rfl | rfl | rfl
  all_goals
    obtain ⟨b, hb, rfl⟩ := map_eq_ok.mp hr
    simp only [Fixed, function]
  · apply readTagged_written (fun f => Function.mk f.1 (.simple f.2)) functionOf_tag (Stable.fixed hb)
    rfl
  · apply readTagged_written (fun f => Function.mk f.1 (.fanIn f.2)) functionOf_tag (Stable.fixed hb)
    rfl
  · apply readTagged_written (fun f => Function.mk f.1 (.cron f.2)) functionOf_tag (Stable.fixed hb)
    rfl
  · apply readTagged_written (fun f => Function.mk f.1 (.routing f.2)) functionOf_tag.filtered (Stable.fixed hb)
    rfl
  · apply readTagged_written (fun f => Function.mk f.1 (.webhook f.2)) functionOf_tag (Stable.fixed hb)
    rfl

/-! ## Tables -/

instance {what : String} : (identifier what).Stable := Stable.filtered inferInstance

instance : column.Stable := .of_fields

theorem capitalOperations_grants (gs : List Grant) :
    capitalOperations ((filledTuple (choice Grant.every Grant.name)).write gs) =
      (filledTuple (choice Grant.every Grant.name)).write gs := by
  have hname (g : Grant) : g.name.map capital = g.name := by
    apply String.toList_inj.mp
    rw [String.toList_map]
    rcases g with (_ | _ | _ | _) | _ <;> decide
  simp [filledTuple, tuple, items, choice, capitalOperations, capitalOperations.capitalText, hname]

instance : accessPolicy.Stable := by
  have : ((filledTuple (choice Grant.every Grant.name)).prepared capitalOperations).Stable :=
    Stable.prepared inferInstance capitalOperations_grants
  exact .of_fields

instance : table.Stable := .of_fields

instance : actor.Stable := .of_fields

instance : database.Stable := .of_fields

/-! ## Webhooks and schedules -/

instance : webhookHandler.Stable := .of_fields

instance : webhookHandler.Filled := inferInstanceAs (node _ _).Filled

instance : rootedPath.Stable := Stable.filtered inferInstance

instance : webhookHead.Stable := by
  unfold webhookHead
  exact .of_parts

instance : webhookHead.Named := by
  unfold webhookHead
  infer_instance

instance : eventRoute.Stable := by
  unfold eventRoute
  exact .of_parts

instance : eventRoute.Named := by
  unfold eventRoute
  infer_instance

instance : functionRoute.Stable := by
  unfold functionRoute
  exact .of_parts

instance : functionRoute.Named := by
  unfold functionRoute
  infer_instance

instance : scheduleText.Stable := Stable.filtered inferInstance

instance : cron.Stable := .of_fields

instance : eventWebhook.Stable := Stable.filtered .of_fields

instance : functionWebhook.Stable := Stable.filtered .of_fields

theorem eventWebhook_tag : eventWebhook.WritesTag "routing" "event" :=
  WritesTag.filtered (writesTag_node (by decide) fun w => Fields.mem_part (Fields.mem_constant w))

theorem functionWebhook_tag : functionWebhook.WritesTag "routing" "function" :=
  WritesTag.filtered (writesTag_node (by decide) fun w => Fields.mem_part (Fields.mem_constant w))

instance : webhook.Stable := by
  refine ⟨?_⟩
  intro v a h
  obtain ⟨branch, hbranch, hr⟩ := readTagged_eq_ok h
  simp only [List.mem_cons, List.not_mem_nil, or_false] at hbranch
  rcases hbranch with rfl | rfl
  all_goals
    obtain ⟨b, hb, rfl⟩ := map_eq_ok.mp hr
    simp only [Fixed, webhook]
  · apply readTagged_written (fun w => Webhook.mk w.1 (.event w.2)) eventWebhook_tag (Stable.fixed hb)
    rfl
  · apply readTagged_written (fun w => Webhook.mk w.1 (.function w.2)) functionWebhook_tag (Stable.fixed hb)
    rfl

/-! ## Manifests -/

instance : loggingOptions.Stable := by
  have hlevel : (oneOf ["debug", "info", "warn", "error"]).Fixed "info" := fixed_oneOf (by decide)
  have hformat : (oneOf ["json", "pretty"]).Fixed "json" := fixed_oneOf (by decide)
  exact .of_fields (by simp +contextual [hlevel, hformat])

instance : tracingOptions.Stable := .of_fields

instance : observability.Stable := by
  have hlogging : loggingOptions.Fixed ⟨"info", "json"⟩ := rfl
  have htracing : tracingOptions.Fixed ⟨true, "trace_id"⟩ := rfl
  exact .of_fields (by simp +contextual [hlogging, htracing])

instance : manifest.Stable := by
  have hdatabase : database.Fixed ⟨"supabase/migrations/", [], []⟩ := rfl
  have hobservability : observability.Fixed ⟨⟨"info", "json"⟩, ⟨true, "trace_id"⟩⟩ := rfl
  exact .of_fields (by simp +contextual [hdatabase, hobservability])

/-! ## Routes -/

theorem nodup_routes {v : Value} {t : RoutingTrigger} (h : routingTrigger.read v = .ok t) : (Index.names t.routes).Nodup := by
  apply node_reads (Q := fun t : RoutingTrigger => (Index.names t.routes).Nodup) ?_ h
  refine ⟨?_, rfl⟩
  intro event _ key _ routes hroutes _ _
  exact nodup_entries (filtered_eq_ok.mp hroutes).1

theorem fixed_trigger {τ : Type} {name pattern : String} {trigger : Shape τ} [trigger.Stable] {v : Value} {f : FunctionHead × τ}
    (h : (functionOf name pattern trigger).read v = .ok f) : trigger.Fixed f.2 := by
  apply node_reads (Q := fun f : FunctionHead × τ => trigger.Fixed f.2) ?_ h
  intro head _ t ht
  exact ht

theorem function_routes {v : Value} {f : Function} {t : RoutingTrigger} (h : function.read v = .ok f)
    (ht : f.trigger = .routing t) : (Index.names t.routes).Nodup := by
  obtain ⟨branch, hbranch, hr⟩ := readTagged_eq_ok h
  simp only [List.mem_cons, List.not_mem_nil, or_false] at hbranch
  rcases hbranch with rfl | rfl | rfl | rfl | rfl
  all_goals
    obtain ⟨b, hb, rfl⟩ := map_eq_ok.mp hr
    cases ht
  exact nodup_routes (fixed_trigger (filtered_eq_ok.mp hb).1)

theorem fixed_functions {v : Value} {m : Manifest} (h : manifest.read v = .ok m) : ∀ f ∈ m.functions, function.Fixed f := by
  have hdatabase : database.Fixed ⟨"supabase/migrations/", [], []⟩ := rfl
  have hobservability : observability.Fixed ⟨⟨"info", "json"⟩, ⟨true, "trace_id"⟩⟩ := rfl
  apply node_reads (Q := fun m : Manifest => ∀ f ∈ m.functions, function.Fixed f) ?_ h
  simp +contextual [hdatabase, hobservability, fixed_tuple_iff]

end Shape

theorem load_routes {document : Value} {m : Manifest} (h : Manifest.load document = .ok m) {f : Function} (hf : f ∈ m.functions)
    {t : RoutingTrigger} (ht : f.trigger = .routing t) : (Index.names t.routes).Nodup := by
  unfold Manifest.load at h
  split at h
  · exact Shape.function_routes (Shape.fixed_functions (mapError_eq_ok.mp h) f hf) ht
  · cases h

end Workflow
