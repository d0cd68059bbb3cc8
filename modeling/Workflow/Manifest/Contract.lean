import Workflow.Shape

/-!
# Contracts

What a step relies on and what it leaves behind: the states it runs in and ends in, the rows and files it
reads, the artifacts it writes and the schema of its output.
-/

namespace Workflow

structure DbSource where
  table : String
  name : String
  template : Option String
  mustHave : List String
  deriving DecidableEq

structure StaticSource where
  source : String
  dest : String
  deriving DecidableEq

structure ArtifactSpec where
  file : String
  required : Bool
  persistTo : String
  deriving DecidableEq

structure ContextIn where
  fromDb : List DbSource
  static : List StaticSource
  deriving DecidableEq

structure ContextOut where
  artifacts : List ArtifactSpec
  deriving DecidableEq

structure Contract where
  stateIn : List String
  stateOut : String
  contextIn : ContextIn
  contextOut : ContextOut
  outputSchema : String
  deriving DecidableEq

/-- A single text stands for a list of one. -/
def oneOrMore : Value → Value
  | .scalar (.text s) => .list [.text s]
  | v => v

namespace Shape

def dbSource : Shape DbSource :=
  node "DbSource" <| Fields.of DbSource.mk
    |>.field "table" text (·.table)
    |>.spelled ["as", "as_"] text none (·.name)
    |>.fieldOr "template" (nullable text) none (·.template)
    |>.fieldOr "must_have" (tuple text) [] (·.mustHave)

def staticSource : Shape StaticSource :=
  node "StaticSource" <| Fields.of StaticSource.mk
    |>.field "source" text (·.source)
    |>.field "dest" text (·.dest)

def artifactSpec : Shape ArtifactSpec :=
  node "ArtifactSpec" <| Fields.of ArtifactSpec.mk
    |>.field "file" filledText (·.file)
    |>.fieldOr "required" bool true (·.required)
    |>.fieldOr "persist_to" (oneOf ["supabase_storage", "database", "none"]) "supabase_storage" (·.persistTo)

def contextIn : Shape ContextIn :=
  node "ContextIn" <| Fields.of ContextIn.mk
    |>.fieldOr "from_db" (tuple dbSource) [] (·.fromDb)
    |>.fieldOr "static" (tuple staticSource) [] (·.static)

def contextOut : Shape ContextOut :=
  node "ContextOut" <| Fields.of ContextOut.mk
    |>.fieldOr "artifacts" (tuple artifactSpec) [] (·.artifacts)

def contract : Shape Contract :=
  node "Contract" <| Fields.of Contract.mk
    |>.field "state_in" ((filledTuple text).prepared oneOrMore) (·.stateIn)
    |>.field "state_out" text (·.stateOut)
    |>.fieldOr "context_in" contextIn ⟨[], []⟩ (·.contextIn)
    |>.fieldOr "context_out" contextOut ⟨[]⟩ (·.contextOut)
    |>.field "output_schema" text (·.outputSchema)

end Shape

end Workflow
