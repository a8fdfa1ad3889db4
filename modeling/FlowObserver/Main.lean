import FlowObserver.Agent.Program

/-!
# The command line

Reads what the program needs from the system, runs it, and writes what it leaves behind.
-/

namespace FlowObserver

def variableNames : List String :=
  ["FLOWSCOPE_CONFIG_PATH", "FLOWSCOPE_LOG_LEVEL", "KUBECONFIG", "HOME",
    "KUBERNETES_SERVICE_HOST", "KUBERNETES_SERVICE_PORT"]

def readEnvironment : IO (List (String × String)) :=
  variableNames.filterMapM fun name => do
    return (← IO.getEnv name).map (name, ·)

def readEntry (path : String) : IO (Option FileEntry) := do
  try
    return some (.file (← IO.FS.readBinFile path).data.toList)
  catch e =>
    return match e with
      | .inappropriateType .. => some .directory
      | _ => none

def withFiles (w : Surroundings) (arguments : List String) : IO Surroundings := do
  let entries ← (Program.paths w arguments).filterMapM fun path => do
    return (← readEntry path).map (path, ·)
  return { w with files := .ofList entries }

end FlowObserver

open FlowObserver in
def main (arguments : List String) : IO UInt32 := do
  let arguments := Command.programName :: arguments
  let bare : Surroundings := { environment := ← readEnvironment }
  let w ← withFiles (← withFiles bare arguments) arguments
  let out := Program.run w arguments
  IO.print out.output
  IO.eprint out.errors
  return out.exitCode.toUInt32
