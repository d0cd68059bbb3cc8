import Workflow.Value
import Workflow.Manifest.Database
import Workflow.Text.Word

/-!
# Access rules

The policies of a table become rules: one for each actor and operation, with the identifier of the actor
in place of `:actor`. An operation without a rule is denied, and a table without policies is refused.
-/

namespace Workflow

def actorParameter : List Char := [':', 'a', 'c', 't', 'o', 'r']

/-- What follows the parameter, if a text starts with it; a longer word is another one. -/
def afterActor? (cs : List Char) : Option (List Char) :=
  if actorParameter.isPrefixOf cs then
    let rest := cs.drop actorParameter.length
    if rest.head?.any CharSet.word.contains then none else some rest
  else none

def mentionsActorChars : List Char → Bool
  | [] => false
  | c :: rest => (afterActor? (c :: rest)).isSome || mentionsActorChars rest

def mentionsActor (condition : String) : Bool := mentionsActorChars condition.toList

/-- Write an identifier for each parameter. `skip` characters are still part of the last one. -/
def substituteActorChars (identifier : List Char) : Nat → List Char → List Char
  | _, [] => []
  | skip + 1, _ :: rest => substituteActorChars identifier skip rest
  | 0, c :: rest =>
    if (afterActor? (c :: rest)).isSome then
      identifier ++ substituteActorChars identifier (actorParameter.length - 1) rest
    else c :: substituteActorChars identifier 0 rest

def substituteActor (condition identifier : String) : String :=
  String.ofList (substituteActorChars identifier.toList 0 condition.toList)

structure AccessRule where
  table : String
  actor : String
  operation : Operation
  /-- The condition with the identifier of the actor. -/
  condition : String
  sourceCondition : String
  deriving DecidableEq

namespace AccessRule

def name (r : AccessRule) : String := r.table ++ "_" ++ r.actor ++ "_" ++ r.operation.name.toLower

/-- The statement that creates a rule. New rows are checked, others are filtered. -/
def sql (r : AccessRule) : String :=
  let clause := if r.operation = .insert then "WITH CHECK" else "USING"
  s!"CREATE POLICY {r.name} ON {r.table} FOR {r.operation.name} {clause} ({r.condition});"

end AccessRule

structure TablePolicies where
  table : String
  rules : List AccessRule
  /-- The operations that no rule grants. -/
  uncovered : List Operation
  deriving DecidableEq

namespace TablePolicies

def rulesFor (p : TablePolicies) (o : Operation) : List AccessRule := p.rules.filter fun r => r.operation == o

def sql (p : TablePolicies) : String :=
  joinWith "\n" (s!"ALTER TABLE {p.table} ENABLE ROW LEVEL SECURITY;" :: p.rules.map AccessRule.sql)

end TablePolicies

/-- Why the policies of a table yield no rules. -/
inductive PolicyFault where
  | noPolicies (table : String)
  | undeclaredActor (table actor : String)
  | noParameter (table actor : String)
  deriving DecidableEq

def PolicyFault.message : PolicyFault → String
  | noPolicies table => s!"table '{table}' has no access policies"
  | undeclaredActor table actor => s!"table '{table}': policy references undeclared actor '{actor}'"
  | noParameter table actor => s!"table '{table}': condition for actor '{actor}' does not reference :actor"

/-- The actor with a name; of several the last one. -/
def actorNamed? (actors : List Actor) (name : String) : Option Actor := actors.reverse.find? fun a => a.name == name

def AccessPolicy.rulesBy (table : String) (actor? : String → Option Actor) (p : AccessPolicy) :
    Except PolicyFault (List AccessRule) :=
  match actor? p.actor with
  | none => .error (.undeclaredActor table p.actor)
  | some a =>
    if mentionsActor p.condition then
      .ok (p.operations.map fun o => ⟨table, a.name, o, substituteActor p.condition a.identifier, p.condition⟩)
    else .error (.noParameter table p.actor)

def AccessPolicy.rules (table : String) (actors : List Actor) (p : AccessPolicy) : Except PolicyFault (List AccessRule) :=
  p.rulesBy table (actorNamed? actors)

def Table.policiesBy (t : Table) (actor? : String → Option Actor) : Except PolicyFault TablePolicies :=
  if t.access.isEmpty then .error (.noPolicies t.name)
  else
    (t.access.mapM (AccessPolicy.rulesBy t.name actor?)).map fun rules =>
      let rules := rules.flatten
      ⟨t.name, rules, Operation.all.filter fun o => rules.all fun r => r.operation != o⟩

def Table.policies (t : Table) (actors : List Actor) : Except PolicyFault TablePolicies :=
  t.policiesBy (actorNamed? actors)

/-- The rules of a table whose actors come by name. -/
def Table.policiesIn (t : Table) (actors : Index Actor) : Except PolicyFault TablePolicies := t.policiesBy actors.get?

end Workflow
