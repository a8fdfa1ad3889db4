import FlowObserver.Cluster.Config
import FlowObserver.Files
import FlowObserver.Text.Numeral

/-!
# Connecting to a cluster

The cluster is found through configuration files: those that the environment names, else one in the
home directory. Without a usable configuration the agent takes itself for a part of a cluster, which
the environment then has to tell it; but there is no account of that cluster here.
-/

namespace FlowObserver

/-- Why the agent cannot act as a part of a cluster. -/
inductive InsideError where
  | noVariable
  | badPort (reason : String)
  | badUrl (reason : String)
  | noAccount (reason : String)
  deriving DecidableEq, Repr

def InsideError.message : InsideError → String
  | noVariable => "failed to read an incluster environment variable: environment variable not found"
  | badPort reason => "failed to parse cluster port: " ++ reason
  | badUrl reason => "failed to parse cluster url: " ++ reason
  | noAccount reason => "failed to read the default namespace: " ++ reason

inductive ClusterError where
  | notFound (inside : InsideError) (config : ConfigError)
  | watch (details : String)
  deriving DecidableEq, Repr

def ClusterError.message : ClusterError → String
  | notFound inside config =>
    "failed to initialize Kubernetes client: Failed to infer configuration: " ++
      "failed to infer config: in-cluster: (" ++ inside.message ++ "), kubeconfig: (" ++
      config.message ++ ")"
  | watch details => "pod watch stream failed: " ++ details

structure Cluster where
  url : String
  namespaceName : String
  deriving DecidableEq, Repr

namespace Cluster

abbrev Environment := List (String × String)

def readConfig (files : Files) (path : String) : Except ConfigError ClusterConfig := do
  let content ← (files.read path).mapError fun e => .unreadable path e.message
  match content.text? with
  | some text => ClusterConfig.ofText text
  | none => throw (.unreadable path "Invalid UTF-8")

def homePath? (environment : Environment) : Option String :=
  (environment.lookup "HOME").map fun home =>
    (if home.isEmpty || home.endsWith "/" then home else home ++ "/") ++ ".kube/config"

/-- The files that the configuration is merged from. -/
def configPaths (environment : Environment) : List String :=
  let named := ((environment.lookup "KUBECONFIG").getD "").splitOn ":" |>.filter (!·.isEmpty)
  if named.isEmpty then (homePath? environment).toList else named

def config (environment : Environment) (files : Files) : Except ConfigError ClusterConfig :=
  match configPaths environment with
  | [] => .error .noPath
  | paths => paths.foldlM (fun c path => do c.merge (← readConfig files path)) {}

/-- The default port is left out of a URL. -/
def insideUrl (host : String) (port : Nat) : String :=
  let suffix := if port = 443 then "" else s!":{port}"
  let place := match Net.Address.parse? host with
    | some (.v6 value) => "[" ++ (Net.Address.v6 value).toString ++ "]"
    | some a => a.toString
    | none => host
  "https://" ++ place ++ suffix

def insideFailure (environment : Environment) : InsideError :=
  match environment.lookup "KUBERNETES_SERVICE_HOST",
    environment.lookup "KUBERNETES_SERVICE_PORT" with
  | some host, some text =>
    match Text.natural (UInt16.size - 1) text with
    | .error fault => .badPort fault.message
    | .ok port =>
      match Net.Uri.check (insideUrl host port) with
      | .error fault => .badUrl fault.message
      | .ok _ => .noAccount Files.ReadFailure.missing.message
  | _, _ => .noVariable

/-- Nothing is sent yet. -/
def connect (environment : Environment) (files : Files) : Except ClusterError Cluster :=
  match (config environment files).bind ClusterConfig.target with
  | .ok (url, namespaceName) => .ok ⟨url, namespaceName⟩
  | .error e => .error (.notFound (insideFailure environment) e)

end Cluster
end FlowObserver
