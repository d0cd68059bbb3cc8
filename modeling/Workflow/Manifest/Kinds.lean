import Workflow.Manifest

/-!
# Kinds of nodes

Every kind of node that a manifest is made of, by its name. A value can be checked against one on its own.
-/

namespace Workflow

structure NodeKind where
  name : String
  /-- Read a value, and write it with every default filled in. -/
  check : Value → Except (List Diagnostic) Value

namespace NodeKind

def of {α : Type} (name : String) (s : Shape α) : NodeKind := ⟨name, fun v => (s.diagnose v).map s.write⟩

def all : List NodeKind := [
  of "Product" Shape.product,
  of "InngestSettings" Shape.inngestSettings,
  of "SupabaseSettings" Shape.supabaseSettings,
  of "AnthropicSettings" Shape.anthropicSettings,
  of "DeploymentSettings" Shape.deploymentSettings,
  of "Infrastructure" Shape.infrastructure,
  of "TenancyIsolation" Shape.tenancyIsolation,
  of "Tenancy" Shape.tenancy,
  of "StateDefinition" Shape.stateDefinition,
  of "StateMachine" Shape.stateMachine,
  of "EventField" Shape.eventField,
  of "EventDefinition" Shape.eventDefinition,
  of "Events" Shape.events,
  of "DbSource" Shape.dbSource,
  of "StaticSource" Shape.staticSource,
  of "ArtifactSpec" Shape.artifactSpec,
  of "ContextIn" Shape.contextIn,
  of "ContextOut" Shape.contextOut,
  of "Contract" Shape.contract,
  of "Subagent" Shape.subagent,
  of "McpServer" Shape.mcpServer,
  of "AgentConfig" Shape.agentConfig,
  of "AgentLimits" Shape.agentLimits,
  of "Workspace" Shape.workspace,
  of "ValidationRule" Shape.validationRule,
  of "OutputRule" Shape.outputRule,
  of "UpdateAction" Shape.updateAction,
  of "InsertAction" Shape.insertAction,
  of "LogAction" Shape.logAction,
  of "CustomAction" Shape.customAction,
  of "PersistAction" Shape.persistAction,
  of "TriggerRef" Shape.triggerRef,
  of "EmitSpec" Shape.emitSpec,
  of "Agent" Shape.agent,
  of "SimpleTrigger" Shape.simpleTrigger,
  of "FanInTrigger" Shape.fanInTrigger,
  of "CronTrigger" Shape.cronTrigger,
  of "Route" Shape.route,
  of "RoutingTrigger" Shape.routingTrigger,
  of "WebhookTrigger" Shape.webhookTrigger,
  of "SimpleFunction" Shape.simpleFunction,
  of "FanInFunction" Shape.fanInFunction,
  of "CronFunction" Shape.cronFunction,
  of "RoutingFunction" Shape.routingFunction,
  of "WebhookFunction" Shape.webhookFunction,
  of "Function" Shape.function,
  of "WebhookHandler" Shape.webhookHandler,
  of "EventWebhook" Shape.eventWebhook,
  of "FunctionWebhook" Shape.functionWebhook,
  of "Webhook" Shape.webhook,
  of "Cron" Shape.cron,
  of "Column" Shape.column,
  of "AccessPolicy" Shape.accessPolicy,
  of "Table" Shape.table,
  of "Actor" Shape.actor,
  of "Database" Shape.database,
  of "LoggingOptions" Shape.loggingOptions,
  of "TracingOptions" Shape.tracingOptions,
  of "Observability" Shape.observability,
  of "Manifest" Shape.manifest]

def named? (name : String) : Option NodeKind := all.find? fun k => k.name == name

end NodeKind

end Workflow
