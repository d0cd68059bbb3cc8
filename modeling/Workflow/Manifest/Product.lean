import Workflow.Shape

/-!
# Product, infrastructure and tenancy

The parts of a manifest that say what is built and where it runs. Nothing here refers to another part.
-/

namespace Workflow

def modelNames : List String := ["haiku", "sonnet", "opus"]

structure Product where
  name : String
  description : String
  version : String
  deriving DecidableEq

structure InngestSettings where
  appId : String
  signingKey : String
  eventKey : String
  deriving DecidableEq

structure SupabaseSettings where
  projectRef : String
  url : String
  anonKey : String
  serviceKey : String
  deriving DecidableEq

structure AnthropicSettings where
  apiKey : String
  defaultModel : String
  deriving DecidableEq

structure DeploymentSettings where
  platform : String
  region : Option String
  deriving DecidableEq

structure Infrastructure where
  inngest : InngestSettings
  supabase : SupabaseSettings
  anthropic : AnthropicSettings
  deployment : DeploymentSettings
  deriving DecidableEq

structure TenancyIsolation where
  database : String
  storage : String
  workspace : String
  deriving DecidableEq

structure Tenancy where
  enabled : Bool
  identifier : String
  isolation : TenancyIsolation
  deriving DecidableEq

namespace Shape

def product : Shape Product :=
  node "Product" <| Fields.of Product.mk
    |>.field "name" filledText (·.name)
    |>.field "description" text (·.description)
    |>.field "version" filledText (·.version)

def inngestSettings : Shape InngestSettings :=
  node "InngestSettings" <| Fields.of InngestSettings.mk
    |>.field "app_id" text (·.appId)
    |>.field "signing_key" text (·.signingKey)
    |>.field "event_key" text (·.eventKey)

def supabaseSettings : Shape SupabaseSettings :=
  node "SupabaseSettings" <| Fields.of SupabaseSettings.mk
    |>.field "project_ref" text (·.projectRef)
    |>.field "url" text (·.url)
    |>.field "anon_key" text (·.anonKey)
    |>.field "service_key" text (·.serviceKey)

def anthropicSettings : Shape AnthropicSettings :=
  node "AnthropicSettings" <| Fields.of AnthropicSettings.mk
    |>.field "api_key" text (·.apiKey)
    |>.field "default_model" (oneOf modelNames) (·.defaultModel)

def deploymentSettings : Shape DeploymentSettings :=
  node "DeploymentSettings" <| Fields.of DeploymentSettings.mk
    |>.field "platform" (oneOf ["vercel", "railway", "docker"]) (·.platform)
    |>.fieldOr "region" (nullable text) none (·.region)

def infrastructure : Shape Infrastructure :=
  node "Infrastructure" <| Fields.of Infrastructure.mk
    |>.field "inngest" inngestSettings (·.inngest)
    |>.field "supabase" supabaseSettings (·.supabase)
    |>.field "anthropic" anthropicSettings (·.anthropic)
    |>.field "deployment" deploymentSettings (·.deployment)

def tenancyIsolation : Shape TenancyIsolation :=
  node "TenancyIsolation" <| Fields.of TenancyIsolation.mk
    |>.field "database" (oneOf ["rls", "schema", "database"]) (·.database)
    |>.field "storage" (oneOf ["prefix", "bucket"]) (·.storage)
    |>.field "workspace" (oneOf ["prefix"]) (·.workspace)

def tenancy : Shape Tenancy :=
  node "Tenancy" <| Fields.of Tenancy.mk
    |>.field "enabled" bool (·.enabled)
    |>.field "identifier" text (·.identifier)
    |>.field "isolation" tenancyIsolation (·.isolation)

end Shape

end Workflow
