import Workflow.Settings
import Workflow.Toml
import Workflow.Yaml

/-!
# Where settings come from

Settings are written in a file, and variables of the environment go before what the file says. Names are read
in any case, and what neither mentions has its standard value.
-/

namespace Workflow

structure SettingsFile where
  path : String
  /-- None when there is no such file. -/
  text : Option String

inductive SettingsFault where
  | missing (path : String)
  | text (f : Yaml.Fault)
  /-- The file holds something other than a mapping. -/
  | kind (name : String)
  | faults (fs : List ShapeFault)
  deriving DecidableEq

namespace Settings

/-- The members whose keys are texts, under their names in lower case. -/
def lowered (ms : Members) : Members :=
  Members.ofList (ms.filterMap fun (k, v) =>
    match k with
    | .text name => some (.text name.toLower, v)
    | _ => none)

/-- The kinds of files that settings are read from; others count as empty. -/
def fileEndings : List String := [".yaml", ".yml", ".json"]

def fileMembers (text : String) : Except SettingsFault Members :=
  match Yaml.read text with
  | .error f => .error (.text f)
  | .ok (.mapping ms) => .ok (lowered ms)
  | .ok v => if v.isSomething then .error (.kind v.kindName) else .ok []

end Settings

def SettingsFile.members (f : SettingsFile) : Except SettingsFault Members :=
  match f.text with
  | none => .error (.missing f.path)
  | some text => if Settings.fileEndings.any fun e => f.path.endsWith e then Settings.fileMembers text else .ok []

namespace Settings

def variableMark : String := "AGENTMANIFEST_"

def variableName (setting : String) : String := variableMark ++ setting.toUpper

/-- A variable holds a value as TOML spells it, or else a text. -/
def variableValue (text : String) : Value := (Toml.read? text).getD (.text text)

def variableMembers (environment : List (String × String)) : Members :=
  lowered (environment.filterMap fun (name, text) =>
    if variableMark.isPrefixOf name then
      some (.text (name.drop variableMark.length).toString, variableValue text)
    else none)

def overlay (upper lower : Members) : Members := upper.foldl (fun ms (k, v) => ms.put k v) lower

def load (file : Option SettingsFile) (environment : List (String × String)) : Except SettingsFault Settings :=
  match (file.map SettingsFile.members).getD (.ok []) with
  | .error f => .error f
  | .ok ms => (read (overlay (variableMembers environment) ms)).mapError .faults

end Settings

end Workflow
