import FlowObserver.Agent.Error
import FlowObserver.Command.Arguments

/-!
# The program

A command line is read, then the settings, and then the command is carried out. What the program
leaves behind is an exit code, what it printed, and the requests that it sent to a cluster.
-/

namespace FlowObserver

/-- A cluster's server on this machine, where it listens, and which requests it refuses. -/
structure ClusterServer where
  url : String
  refuses : Nat → Bool

structure Surroundings where
  environment : List (String × String) := []
  files : Files := []
  server : Option FlowServer := none
  cluster : Option ClusterServer := none

structure Outcome where
  exitCode : Nat := 0
  output : String := ""
  errors : String := ""
  requests : List String := []
  deriving DecidableEq, Repr

namespace Program

def settings (files : Files) (line : CommandLine) : Except Settings.LoadError Settings := do
  let s ← Settings.load .standard files line.config line.level
  match line.command with
  | .agent interface discover object => return s.withAgentOptions interface discover object
  | _ => return s

/-- The files that the program looks at, as far as they are known from those that it has read. -/
def paths (w : Surroundings) (arguments : List String) : List String :=
  match CommandLine.read w.environment arguments with
  | .error _ => []
  | .ok line =>
    let others := match line.command, settings w.files line with
      | .agent .., .ok s => [s.objectPath]
      | .install _ true, .ok _ => Cluster.configPaths w.environment
      | _, _ => []
    line.config.toList ++ others

def failure (e : AgentError) : Outcome :=
  { exitCode := 1, errors := "Error: " ++ e.message ++ "\n" }

def refusal (w : Surroundings) (arguments : List String) (fault : Command.Fault) : Outcome :=
  let page := Command.page (Command.calledAs arguments) w.environment
  let answer : Outcome := { exitCode := fault.exitCode }
  match fault with
  | .help topic => { answer with output := page topic }
  | .version => { answer with output := Command.programName ++ " " ++ Command.programVersion ++ "\n" }
  | .nothingGiven => { answer with errors := page .program }
  | fault => { answer with errors := "error: " ++ fault.message?.getD "" ++ "\n" }

def startAgent (files : Files) (s : Settings) : Except AgentError Unit := do
  let path := s.objectPath
  let content ← (files.read path).mapError fun _ => .classifier path (.unreadable path)
  let object ← (Classifier.load content).mapError (.classifier path)
  object.openChannel.mapError .source
  object.loadClassifiers.mapError .link

def ask (w : Surroundings) (q : FlowQuery) (url : String) (format : OutputFormat) : Outcome :=
  match (q.ask w.server url format).value with
  | .ok lines => { output := String.join (lines.map (· ++ "\n")) }
  | .error e => failure (.client e)

/-- The path that a URL adds to that of a server; nothing if it leads elsewhere. -/
def basePath? (server url : String) : Option String := do
  let rest ← url.dropPrefix? server
  if rest.isEmpty then return ""
  guard (rest.startsWith "/")
  return (rest.dropEndWhile (· = '/')).toString

def applyManifests (w : Surroundings) (manifests : List Manifest) :
    Except AgentError Unit × List String :=
  match Cluster.connect w.environment w.files with
  | .error _ => (.error (.install .noCluster), [])
  | .ok cluster =>
    let reached := do
      let server ← w.cluster
      return (server.refuses, ← basePath? server.url cluster.url)
    let (refuses, line) : (Nat → Bool) × (ApplyRequest → Option String) := match reached with
      | some (refuses, base) => (refuses, fun r => some (r.method ++ " " ++ base ++ r.uri))
      | none => (fun _ => true, fun _ => none)
    let (result, sent) := (Manifest.applyAll refuses manifests).value
    (result.mapError .install, sent.filterMap line)

def perform (w : Surroundings) (s : Settings) : Command → Outcome
  | .agent .. =>
    match startAgent w.files s with
    | .ok _ => {}
    | .error e => failure e
  | .observe server namespaceName verdict format =>
    ask w (.flows (namespaceName.getD "") (verdict.getD "")) server format
  | .serviceMap server window format => ask w (.edges window) server format
  | .install options apply =>
    let manifests := Manifest.all options
    if apply then
      let (result, requests) := applyManifests w manifests
      match result with
      | .ok _ => { requests }
      | .error e => { failure e with requests }
    else { output := Manifest.stream manifests }

def run (w : Surroundings) (arguments : List String) : Outcome :=
  match CommandLine.read w.environment arguments with
  | .error fault => refusal w arguments fault
  | .ok line =>
    match settings w.files line with
    | .error e => failure (.settings line.config e)
    | .ok s => perform w s line.command

end Program
end FlowObserver
