import FlowObserver.Net.Uri
import FlowObserver.Settings.Reader
import FlowObserver.Yaml.Document

/-!
# Cluster configurations

A configuration names clusters, users and contexts; a context joins a cluster and a user, and one of
the contexts is the current one. Configurations from several documents and files are merged, where
the first entry of each name is kept.
-/

namespace FlowObserver

structure ClusterContext where
  cluster : String := ""
  user : Option String := none
  namespaceName : Option String := none
  deriving DecidableEq, Repr

structure Named (α : Type) where
  name : String := ""
  value : Option α := none
  deriving DecidableEq, Repr

structure ClusterConfig where
  clusters : List (Named (Option String)) := []
  users : List (Named Unit) := []
  contexts : List (Named ClusterContext) := []
  current : Option String := none
  kind : Option String := none
  version : Option String := none
  deriving DecidableEq, Repr

inductive ConfigError where
  | noPath
  | unreadable (path reason : String)
  | notYaml (reason : String)
  | badStructure (reason : String)
  | kindMismatch
  | versionMismatch
  | noCurrentContext
  | unknownContext (name : String)
  | unknownCluster (name : String)
  | noUrl
  | badUrl (reason : String)
  deriving DecidableEq, Repr

def ConfigError.message : ConfigError → String
  | noPath => "failed to find the path of kubeconfig"
  | unreadable path reason =>
    "failed to read kubeconfig from '" ++ Text.quoted path ++ "': " ++ reason
  | notYaml reason => "failed to parse kubeconfig YAML: " ++ reason
  | badStructure reason => "the structure of the parsed kubeconfig is invalid: " ++ reason
  | kindMismatch => "kubeconfigs with mismatching kind cannot be merged"
  | versionMismatch => "kubeconfigs with mismatching api version cannot be merged"
  | noCurrentContext => "failed to determine current context"
  | unknownContext name => "failed to load current context: " ++ name
  | unknownCluster name => "failed to load the cluster of context: " ++ name
  | noUrl => "cluster url is missing on selected cluster"
  | badUrl reason => "failed to parse cluster url: " ++ reason

namespace ClusterConfig

open Settings

def optional {α : Type} (read : Json → Accepted α) : Json → Accepted (Option α)
  | .null => .ok none
  | j => (read j).map some

def listOf {α : Type} (read : Json → Accepted α) : Json → Accepted (List α)
  | .null => .ok []
  | .arr items => items.mapM read
  | j => refuse (.wrongType j "a sequence")

/-- Reads a mapping field by field; a mapping without fields may be left out. -/
def fieldsOf {σ : Type} (typeName : String) (required : List String)
    (set : String → Json → σ → Accepted σ) (empty : σ) (j : Json) : Accepted σ := do
  let fields ← match j with
    | .obj fields => pure fields
    | .null => pure []
    | j => refuse (.wrongType j ("struct " ++ typeName))
  let s ← fields.foldlM (fun s (name, value) => set name value s) empty
  match required.find? fun name => (fields.lookup name).isNone with
  | some name => refuse (.missingField name)
  | none => return s

def readNamed {α : Type} (typeName valueName : String) (read : Json → Accepted α) :
    Json → Accepted (Named α) :=
  fieldsOf typeName ["name"] (fun name j s =>
    if name = "name" then return { s with name := ← readString j }
    else if name = valueName then return { s with value := ← optional read j }
    else return s) {}

def readCluster : Json → Accepted (Option String) :=
  fieldsOf "Cluster" [] (fun name j url =>
    if name = "server" then optional readString j
    else if ["certificate-authority", "certificate-authority-data", "proxy-url",
        "tls-server-name"].contains name then do
      let _ ← optional readString j
      return url
    else if ["insecure-skip-tls-verify", "disable-compression"].contains name then do
      let _ ← optional readBool j
      return url
    else return url) none

/-- The credentials of a user are checked for their form only. -/
def readUser : Json → Accepted Unit :=
  fieldsOf "AuthInfo" [] (fun name j _ =>
    if ["username", "password", "token", "tokenFile", "client-certificate",
        "client-certificate-data", "client-key", "client-key-data", "as"].contains name then do
      let _ ← optional readString j
    else if name = "as-groups" then do
      let _ ← optional (listOf readString) j
    else return ()) ()

def readContext : Json → Accepted ClusterContext :=
  fieldsOf "Context" ["cluster"] (fun name j s =>
    match name with
    | "cluster" => return { s with cluster := ← readString j }
    | "user" => return { s with user := ← optional readString j }
    | "namespace" => return { s with namespaceName := ← optional readString j }
    | _ => return s) {}

def ofJson : Json → Accepted ClusterConfig :=
  fieldsOf "Kubeconfig" [] (fun name j s =>
    match name with
    | "clusters" =>
      return { s with clusters := ← listOf (readNamed "NamedCluster" "cluster" readCluster) j }
    | "users" => return { s with users := ← listOf (readNamed "NamedAuthInfo" "user" readUser) j }
    | "contexts" =>
      return { s with contexts := ← listOf (readNamed "NamedContext" "context" readContext) j }
    | "current-context" => return { s with current := ← optional readString j }
    | "kind" => return { s with kind := ← optional readString j }
    | "apiVersion" => return { s with version := ← optional readString j }
    | _ => return s) {}

/-- Appends the entries whose names are new. -/
def addNew {α : Type} (entries others : List (Named α)) : List (Named α) :=
  entries ++ others.filter fun e => !entries.any (·.name = e.name)

def disagree (a b : Option String) : Bool := a.isSome && b.isSome && a ≠ b

def merge (a b : ClusterConfig) : Except ConfigError ClusterConfig :=
  if disagree a.kind b.kind then .error .kindMismatch
  else if disagree a.version b.version then .error .versionMismatch
  else .ok {
    clusters := addNew a.clusters b.clusters
    users := addNew a.users b.users
    contexts := addNew a.contexts b.contexts
    current := a.current <|> b.current
    kind := a.kind <|> b.kind
    version := a.version <|> b.version }

def ofNode (n : Yaml.Node) : Except ConfigError ClusterConfig := do
  let j ← (n.value Yaml.maxDepth).mapError fun e => .notYaml e.message
  (ofJson j).mapError fun r => .badStructure r.fault.message

def ofText (text : String) : Except ConfigError ClusterConfig := do
  let (nodes, failure) := Yaml.parse text
  let configs ← nodes.mapM ofNode
  if let some failure := failure then throw (.notYaml failure.message)
  configs.foldlM merge {}

def find? {α : Type} (entries : List (Named α)) (name : String) : Option α :=
  (entries.find? (·.name = name)).bind (·.value)

/-- The URL of the cluster, and the namespace, that the current context names. -/
def target (c : ClusterConfig) : Except ConfigError (String × String) := do
  let some current := c.current | throw .noCurrentContext
  let some context := find? c.contexts current | throw (.unknownContext current)
  let some cluster := find? c.clusters context.cluster | throw (.unknownCluster context.cluster)
  let some url := cluster | throw .noUrl
  (Net.Uri.check url).mapError fun fault => .badUrl fault.message
  return (url, context.namespaceName.getD "default")

end ClusterConfig
end FlowObserver
