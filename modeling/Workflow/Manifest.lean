import Workflow.Diagnostic
import Workflow.Manifest.Database
import Workflow.Manifest.Event
import Workflow.Manifest.Function
import Workflow.Manifest.State
import Workflow.Manifest.Webhook
import Workflow.Yaml

/-!
# Manifests

A manifest declares a product: its states, events, steps, tables and ways in. Loading checks the shape of
each node and nothing that needs a second node; every default is filled in, so that a loaded manifest
answers every question about itself.
-/

namespace Workflow

structure LoggingOptions where
  level : String
  format : String
  deriving DecidableEq

structure TracingOptions where
  enabled : Bool
  traceIdField : String
  deriving DecidableEq

structure Observability where
  logging : LoggingOptions
  tracing : TracingOptions
  deriving DecidableEq

structure Manifest where
  product : Product
  infrastructure : Option Infrastructure
  tenancy : Option Tenancy
  stateMachine : StateMachine
  events : Events
  agents : List Agent
  functions : List Function
  database : Database
  crons : List Cron
  webhooks : List Webhook
  observability : Observability
  deriving DecidableEq

namespace Shape

def loggingOptions : Shape LoggingOptions :=
  node "LoggingOptions" <| Fields.of LoggingOptions.mk
    |>.fieldOr "level" (oneOf ["debug", "info", "warn", "error"]) "info" (·.level)
    |>.fieldOr "format" (oneOf ["json", "pretty"]) "json" (·.format)

def tracingOptions : Shape TracingOptions :=
  node "TracingOptions" <| Fields.of TracingOptions.mk
    |>.fieldOr "enabled" bool true (·.enabled)
    |>.fieldOr "trace_id_field" text "trace_id" (·.traceIdField)

def observability : Shape Observability :=
  node "Observability" <| Fields.of Observability.mk
    |>.fieldOr "logging" loggingOptions ⟨"info", "json"⟩ (·.logging)
    |>.fieldOr "tracing" tracingOptions ⟨true, "trace_id"⟩ (·.tracing)

def manifest : Shape Manifest :=
  node "Manifest" <| Fields.of Manifest.mk
    |>.field "product" product (·.product)
    |>.fieldOr "infrastructure" (nullable infrastructure) none (·.infrastructure)
    |>.fieldOr "tenancy" (nullable tenancy) none (·.tenancy)
    |>.field "state_machine" stateMachine (·.stateMachine)
    |>.field "events" events (·.events)
    |>.fieldOr "agents" (tuple agent) [] (·.agents)
    |>.fieldOr "functions" (tuple function) [] (·.functions)
    |>.fieldOr "database" database ⟨"supabase/migrations/", [], []⟩ (·.database)
    |>.fieldOr "crons" (tuple cron) [] (·.crons)
    |>.fieldOr "webhooks" (tuple webhook) [] (·.webhooks)
    |>.fieldOr "observability" observability ⟨⟨"info", "json"⟩, ⟨true, "trace_id"⟩⟩ (·.observability)

end Shape

/-! ## Structural diagnostics -/

def tagsIn : String → List String
  | "functions" => ["simple", "fan-in", "cron", "routing", "inngest-first-webhook"]
  | "webhooks" => ["event", "function"]
  | "persist" => ["update", "insert", "log", "custom"]
  | _ => []

/-- Whether a step behind two others is the tag of a node. -/
def isTagStep (collection position tag : PathStep) : Bool :=
  match position, tag with
  | .index _, .key t => (tagsIn collection.text).contains t
  | _, _ => false

/-- The steps that follow two others, without tags. -/
def withoutTags (a b : PathStep) : List PathStep → List PathStep
  | [] => []
  | c :: rest => if isTagStep a b c then withoutTags b c rest else c :: withoutTags b c rest

/-- A location of the document: the tags that a location of the reader has besides are left out. -/
def documentLocation : Location → Location
  | a :: b :: rest => a :: b :: withoutTags a b rest
  | path => path

def structuralDiagnostic (f : ShapeFault) : Diagnostic :=
  ⟨documentLocation f.location, .structural, f.cause.code, f.cause.message, .error⟩

def documentDiagnostic (code message : String) : Diagnostic := ⟨[], .structural, code, message, .error⟩

def Shape.diagnose {α : Type} (s : Shape α) (v : Value) : Except (List Diagnostic) α :=
  (s.read v).mapError (List.map structuralDiagnostic)

namespace Manifest

/-- Read a document. -/
def load (document : Value) : Except (List Diagnostic) Manifest :=
  match document with
  | .mapping ms => Shape.manifest.diagnose (.mapping ms)
  | v => .error [documentDiagnostic "document_type" s!"manifest must be a mapping, got {v.kindName}"]

/-- The document of a manifest, with every default written out. -/
def dump (m : Manifest) : Value := Shape.manifest.write m

end Manifest

/-! ## Texts

A manifest is written in YAML, of which JSON is a part.
-/

/-- The finding about a text that is no document. -/
def malformedText : Diagnostic := documentDiagnostic "yaml_syntax" ("invalid YAML: " ++ Yaml.Fault.malformed.message)

/-- Read a manifest from a text. A scalar that does not spell what its tag says is no finding about the
manifest: it ends the reading. -/
def Manifest.loadText (text : String) : Except Yaml.Fault (Except (List Diagnostic) Manifest) :=
  match Yaml.read text with
  | .ok v => .ok (Manifest.load v)
  | .error .malformed => .ok (.error [malformedText])
  | .error f => .error f

end Workflow
