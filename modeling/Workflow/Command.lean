import Workflow.Command.Arguments
import Workflow.Compile
import Workflow.Manifest
import Workflow.Settings.Layers
import Workflow.Value.Json

/-!
# Commands

What can be asked for on the command line: to validate a manifest, to compile it and sum up its plan, or to list
the rules of its tables. A command reads files, may heed variables of the environment, and gives a report.
-/

namespace Workflow

inductive Command where
  | version
  | validate (manifest : String) (settings : Option String)
  | compile (manifest : String) (settings : Option String) (json : Bool)
  | policies (manifest : String) (settings : Option String) (table : Option String) (sql : Bool)
  deriving DecidableEq

namespace Command

/-! ## Reading -/

def versionForm : OptionForm := ⟨"version", some 'V', false⟩
def settingsForm : OptionForm := ⟨"settings", some 's', true⟩
def tableForm : OptionForm := ⟨"table", some 't', true⟩
def jsonForm : OptionForm := ⟨"json", none, false⟩
def sqlForm : OptionForm := ⟨"sql", none, false⟩

def withManifest (forms : List OptionForm) (arguments : List String)
    (command : Arguments → (manifest : String) → (settings : Option String) → Command) : Except UsageFault Command :=
  match Arguments.read forms .none arguments with
  | .error f => .error f
  | .ok a =>
    match a.words with
    | [] => .error .noWord
    | [manifest] => .ok (command a manifest ((a.value? settingsForm.name).filter (· != "")))
    | _ :: word :: _ => .error (.needlessWord word)

def named (name : String) (arguments : List String) : Except UsageFault Command :=
  match name with
  | "validate" => withManifest [settingsForm] arguments fun _ => validate
  | "compile" =>
    withManifest [settingsForm, jsonForm] arguments fun a manifest settings =>
      compile manifest settings (a.flag jsonForm.name)
  | "policies" =>
    withManifest [tableForm, sqlForm, settingsForm] arguments fun a manifest settings =>
      policies manifest settings (a.value? tableForm.name) (a.flag sqlForm.name)
  | name => .error (.unknownCommand name)

/-- Read options that stand before the command, and the command. `asked` is whether the version was asked for,
which goes before any command. -/
def readFrom (asked : Bool) : List String → Except UsageFault Command
  | [] => if asked then .ok version else .error .noCommand
  | a :: rest =>
    match ArgumentKind.of [versionForm] a, rest with
    | .word, rest => if asked then .ok version else named a rest
    | .ending, [] => if asked then .ok version else .error .noCommand
    | .ending, name :: rest => if asked then .ok version else named name rest
    | .options _, rest => readFrom true rest
    | .unfinished _ name, _ => .error (.noValue name)
    | .wrong f, _ => .error f

def ofArguments (arguments : List String) : Except UsageFault Command := readFrom false arguments

end Command

/-! ## Reports -/

inductive Channel where
  | output | errors
  deriving DecidableEq

structure Report where
  exitCode : Nat
  lines : List (Channel × String)
  deriving DecidableEq

namespace Report

def shown (r : Report) (c : Channel) : List String := (r.lines.filter fun l => l.1 == c).map Prod.snd

def text (r : Report) (c : Channel) : String := String.join ((r.shown c).map (· ++ "\n"))

end Report

/-- The files that a command can read, and the variables of its environment. -/
structure Surroundings where
  file : String → Option String
  environment : List (String × String)

inductive CommandFault where
  | settings (f : SettingsFault)
  | noManifest (path : String)
  | noTable (name : String)
  /-- A manifest with errors. -/
  | rejected (ds : List Diagnostic)
  | manifestText (f : Yaml.Fault)
  | compilation (f : CompileFault)

namespace Command

/-! ## Running -/

def paths : Command → List String
  | version => []
  | validate manifest settings => settings.toList ++ [manifest]
  | compile manifest settings _ => settings.toList ++ [manifest]
  | policies manifest settings _ _ => settings.toList ++ [manifest]

def versionText : String := "0.1.0"

def settingsOf (path : Option String) (s : Surroundings) : Except CommandFault Settings :=
  (Settings.load (path.map fun p => ⟨p, s.file p⟩) s.environment).mapError .settings

def compilation (manifest : String) (settings : Option String) (s : Surroundings) : Except CommandFault Compilation := do
  let settings ← settingsOf settings s
  match s.file manifest with
  | none => .error (.noManifest manifest)
  | some text =>
    let loaded ← (Manifest.loadText text).mapError .manifestText
    (Workflow.compile settings none (some manifest) loaded).mapError .compilation

def diagnosticLine (d : Diagnostic) : Channel × String :=
  (if d.isError then .errors else .output, "  " ++ d.severity.name ++ ": " ++ d.text)

/-- Where nothing went wrong, all lines are output. -/
def success (lines : List String) (ds : List Diagnostic) : Report := ⟨0, lines.map (.output, ·) ++ ds.map diagnosticLine⟩

def planLines (p : Plan) : List String := [
    s!"Compiled {p.manifest.product.name} {p.manifest.product.version}",
    s!"  Fingerprint: {p.fingerprint}",
    s!"  States: {p.states.length} (initial: {p.manifest.stateMachine.initial})",
    s!"  Events: {p.events.length}",
    s!"  Steps: {p.steps.length}",
    s!"  Tables: {p.tables.length}"] ++
  p.triggers.map fun (event, steps) => "  " ++ event ++ " -> " ++ joinWith ", " steps

/-- A compilation for other programs: the plan, or what is wrong with the manifest. -/
def compilationValue (c : Compilation) : Value :=
  match c.plan with
  | some p => .mapping [(.text "status", .text "ok"), (.text "ir", p.summary)]
  | none => .mapping [(.text "status", .text "error"), (.text "diagnostics", .list (c.diagnostics.map Diagnostic.dump))]

def ruleLine (r : AccessRule) : String := s!"  {r.operation.name} {r.actor}: {r.condition}"

def policyLines (table : String) (p : TablePolicies) : List String :=
  (table ++ ":") :: p.rules.map ruleLine ++
    if p.uncovered = [] then [] else ["  uncovered (denied): " ++ joinWith ", " (p.uncovered.map Operation.name)]

def policiesOf (p : Plan) : Option String → Except CommandFault (Index TablePolicies)
  | none => .ok p.policies
  | some table =>
    match p.policies.get? table with
    | some t => .ok [(table, t)]
    | none => .error (.noTable table)

def planOf (c : Compilation) : Except CommandFault Plan :=
  match c.plan with
  | some p => .ok p
  | none => .error (.rejected c.diagnostics)

def run (s : Surroundings) : Command → Except CommandFault Report
  | version => .ok (success [s!"agentmanifest version {versionText}"] [])
  | validate manifest settings => do
    let c ← compilation manifest settings s
    let _ ← planOf c
    return success ["Manifest valid."] c.diagnostics
  | compile manifest settings true => do
    let c ← compilation manifest settings s
    return ⟨if c.isOk then 0 else 1, [(.output, (compilationValue c).json .indented)]⟩
  | compile manifest settings false => do
    let c ← compilation manifest settings s
    let p ← planOf c
    return success (planLines p) c.diagnostics
  | policies manifest settings table sql => do
    let c ← compilation manifest settings s
    let p ← planOf c
    let tables ← policiesOf p table
    return success (tables.flatMap fun (name, t) => if sql then [t.sql] else policyLines name t) []

end Command

namespace CommandFault

def settingLine (f : ShapeFault) : String := s!"  - {dottedPath f.location}: {f.cause.message}"

/-- The lines that tell of a fault. Nothing is told of a file that cannot be read as what it should be: the
program ends with the fault. -/
def lines? : CommandFault → Option (List (Channel × String))
  | settings (.missing path) => some [(.errors, s!"Error: Settings file not found: {path}")]
  | settings (.faults fs) => some ((.errors, "Configuration errors:") :: fs.map fun f => (.errors, settingLine f))
  | settings _ => none
  | noManifest path => some [(.errors, s!"Error: Manifest file not found: {path}")]
  | noTable name => some [(.errors, s!"Error: Table '{name}' is not declared")]
  | rejected ds =>
    some ((.errors, s!"Manifest invalid ({(errorsOf ds).length} errors):") :: ds.map Command.diagnosticLine)
  | manifestText _ => none
  | compilation _ => none

def message : CommandFault → String
  | settings (.text f) => f.message
  | settings (.kind name) => s!"settings have to be a mapping, got {name}"
  | manifestText f => f.message
  | compilation f => f.message
  | f => joinWith "\n" ((f.lines?.getD []).map Prod.snd)

end CommandFault

def Command.report (c : Command) (s : Surroundings) : Except CommandFault Report :=
  match c.run s with
  | .ok r => .ok r
  | .error f =>
    match f.lines? with
    | some lines => .ok ⟨1, lines⟩
    | none => .error f

end Workflow
