import Workflow.Command

/-!
# The program

Files and variables are read, the command is run on them, and its report is shown.
-/

namespace Workflow

/-- The files among some paths; there is nothing of a path that cannot be read. -/
def readFiles (paths : List String) : IO (Index String) := do
  let files ← paths.mapM fun (path : String) => do
    try return some (path, ← IO.FS.readFile path) catch _ => return none
  return files.filterMap id

def readVariables : IO (List (String × String)) := do
  let found ← Settings.fields.keys.flatten.mapM fun setting => do
    let name := Settings.variableName setting
    return (← IO.getEnv name).map fun text => (name, text)
  return found.filterMap id

def runProgram (arguments : List String) : IO UInt32 := do
  match Command.ofArguments arguments with
  | .error f =>
    IO.eprintln ("Error: " ++ f.message)
    return 2
  | .ok c =>
    let files ← readFiles c.paths
    let environment ← readVariables
    match c.report ⟨files.get?, environment⟩ with
    | .error f =>
      IO.eprintln ("Error: " ++ f.message)
      return 1
    | .ok r =>
      IO.print (r.text .output)
      IO.eprint (r.text .errors)
      return r.exitCode.toUInt32

end Workflow

def main (arguments : List String) : IO UInt32 := Workflow.runProgram arguments
