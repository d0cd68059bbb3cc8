import Workflow.Manifest.Contract
import Workflow.Manifest.Product
import Workflow.Manifest.Rules

/-!
# Agents

Steps whose body is a language model with tools. An agent starts on any one of its triggers.
-/

namespace Workflow

structure Subagent where
  name : String
  description : Option String
  model : String
  tools : List String
  deriving DecidableEq

structure McpServer where
  name : String
  url : String
  deriving DecidableEq

structure AgentConfig where
  model : String
  allowedTools : List String
  permissionMode : String
  subagents : List Subagent
  mcpServers : List McpServer
  deriving DecidableEq

structure AgentLimits where
  maxTokens : Int
  maxToolCalls : Int
  timeoutSeconds : Int
  maxRetries : Int
  deriving DecidableEq

structure Workspace where
  base : Option String
  cleanup : String
  snapshotOnFailure : Bool
  deriving DecidableEq

structure TriggerRef where
  event : String
  deriving DecidableEq

structure EmitSpec where
  event : String
  condition : Option String
  delay : Option String
  deriving DecidableEq

structure Agent extends StepRules where
  name : String
  description : String
  triggers : List TriggerRef
  emits : List EmitSpec
  contract : Contract
  config : AgentConfig
  limits : AgentLimits
  workspace : Workspace
  deriving DecidableEq

namespace Shape

def durationOrNull (what : String) : Shape (Option String) :=
  (nullable text).checked fun
    | some d => if isDuration d then none else some (.duration what d)
    | none => none

def subagent : Shape Subagent :=
  node "Subagent" <| Fields.of Subagent.mk
    |>.field "name" text (·.name)
    |>.fieldOr "description" (nullable text) none (·.description)
    |>.field "model" (oneOf modelNames) (·.model)
    |>.fieldOr "tools" (tuple text) [] (·.tools)

def mcpServer : Shape McpServer :=
  node "McpServer" <| Fields.of McpServer.mk
    |>.field "name" text (·.name)
    |>.field "url" text (·.url)

def agentConfig : Shape AgentConfig :=
  node "AgentConfig" <| Fields.of AgentConfig.mk
    |>.field "model" (oneOf modelNames) (·.model)
    |>.fieldOr "allowed_tools" (tuple text) [] (·.allowedTools)
    |>.fieldOr "permission_mode" (oneOf ["default", "acceptEdits", "bypassPermissions"]) "default" (·.permissionMode)
    |>.fieldOr "subagents" (tuple subagent) [] (·.subagents)
    |>.fieldOr "mcp_servers" (tuple mcpServer) [] (·.mcpServers)

def agentLimits : Shape AgentLimits :=
  node "AgentLimits" <| Fields.of AgentLimits.mk
    |>.fieldOr "max_tokens" (intAbove 0) 50000 (·.maxTokens)
    |>.fieldOr "max_tool_calls" (intAbove 0) 50 (·.maxToolCalls)
    |>.fieldOr "timeout_seconds" (intAbove 0) 300 (·.timeoutSeconds)
    |>.fieldOr "max_retries" (intFrom 0) 3 (·.maxRetries)

def workspace : Shape Workspace :=
  node "Workspace" <| Fields.of Workspace.mk
    |>.fieldOr "base" (nullable text) none (·.base)
    |>.fieldOr "cleanup" (oneOf ["on_success", "on_complete", "never"]) "on_success" (·.cleanup)
    |>.fieldOr "snapshot_on_failure" bool true (·.snapshotOnFailure)

def triggerRef : Shape TriggerRef :=
  node "TriggerRef" <| Fields.of TriggerRef.mk
    |>.field "event" text (·.event)

def emitSpec : Shape EmitSpec :=
  node "EmitSpec" <| Fields.of EmitSpec.mk
    |>.field "event" text (·.event)
    |>.fieldOr "when" (nullable text) none (·.condition)
    |>.fieldOr "delay" (durationOrNull "delay") none (·.delay)

def agent : Shape Agent :=
  node "Agent" <| (Fields.of Agent.mk).part stepRules (·.toStepRules)
    |>.field "name" filledText (·.name)
    |>.field "description" text (·.description)
    |>.field "triggers" (filledTuple triggerRef) (·.triggers)
    |>.fieldOr "emits" (tuple emitSpec) [] (·.emits)
    |>.field "contract" contract (·.contract)
    |>.field "config" agentConfig (·.config)
    |>.fieldOr "limits" agentLimits ⟨50000, 50, 300, 3⟩ (·.limits)
    |>.fieldOr "workspace" workspace ⟨none, "on_success", true⟩ (·.workspace)

end Shape

end Workflow
