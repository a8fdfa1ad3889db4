import FlowObserver.Text.Quoted
import FlowObserver.Yaml.Printer

/-!
# Manifests

The objects that put the agent on every node of a cluster, in the order in which they have to be
applied: the namespace, an account that may read pods, and the daemon set.
-/

namespace FlowObserver

structure InstallOptions where
  namespaceName : String := "flowscope"
  image : String := "ghcr.io/flowscope/flowscope:0.1.0"
  deriving DecidableEq, Repr

inductive ManifestKind where
  | ofNamespace | serviceAccount | clusterRole | clusterRoleBinding | daemonSet
  deriving DecidableEq, Repr

namespace ManifestKind

def label : ManifestKind → String
  | ofNamespace => "Namespace"
  | serviceAccount => "ServiceAccount"
  | clusterRole => "ClusterRole"
  | clusterRoleBinding => "ClusterRoleBinding"
  | daemonSet => "DaemonSet"

def group : ManifestKind → Option String
  | ofNamespace | serviceAccount => none
  | clusterRole | clusterRoleBinding => some "rbac.authorization.k8s.io"
  | daemonSet => some "apps"

def apiVersion (k : ManifestKind) : String :=
  match k.group with
  | some group => group ++ "/v1"
  | none => "v1"

def plural (k : ManifestKind) : String := Text.lowerAscii k.label ++ "s"

end ManifestKind

structure Manifest where
  kind : ManifestKind
  name : String
  /-- Where the object lives, unless it belongs to the whole cluster. -/
  namespaceName : Option String := none
  content : List (String × Json) := []

namespace Manifest

def appName : String := "flowscope"

def labels : Json :=
  .obj [("app.kubernetes.io/component", "agent"), ("app.kubernetes.io/name", appName)]

def toFields (m : Manifest) : List (String × Json) :=
  let location (n : String) : String × Json := ("namespace", n)
  let metadata := [("labels", labels), ("name", .str m.name)] ++ m.namespaceName.toList.map location
  [("apiVersion", .str m.kind.apiVersion), ("kind", .str m.kind.label), ("metadata", .obj metadata)] ++
    m.content

def toJson (m : Manifest) : Json := .obj m.toFields

/-- A directory of the host, and the name of its volume. -/
def hostDirectories : List (String × String) :=
  [("/sys/fs/bpf", "bpffs"), ("/sys/kernel/debug", "sys-kernel-debug")]

def rules : Json :=
  .arr [.obj [("apiGroups", [""]), ("resources", ["pods"]), ("verbs", ["get", "list", "watch"])]]

def container (image : String) : Json :=
  let port (number : Nat) (name : String) : Json := .obj [("containerPort", number), ("name", name)]
  let mount : String × String → Json := fun (path, name) =>
    .obj [("mountPath", path), ("name", name)]
  .obj [("args", ["agent", "--discover"]),
    ("env", .arr [.obj [("name", "FLOWSCOPE_LOG_LEVEL"), ("value", "info")]]),
    ("image", image), ("name", appName),
    ("ports", [port 4245 "grpc", port 10250 "metrics"]),
    ("securityContext", .obj [("privileged", true)]),
    ("volumeMounts", hostDirectories.map mount)]

def podSpec (image : String) : Json :=
  let volume : String × String → Json := fun (path, name) =>
    .obj [("hostPath", .obj [("path", path), ("type", "Directory")]), ("name", name)]
  .obj [("containers", [container image]), ("dnsPolicy", "ClusterFirstWithHostNet"),
    ("hostNetwork", true), ("serviceAccountName", appName),
    ("tolerations", .arr [.obj [("operator", "Exists")]]),
    ("volumes", hostDirectories.map volume)]

def all (o : InstallOptions) : List Manifest :=
  let role := ManifestKind.clusterRole
  let account := ManifestKind.serviceAccount
  [{ kind := .ofNamespace, name := o.namespaceName },
   { kind := account, name := appName, namespaceName := o.namespaceName },
   { kind := role, name := appName, content := [("rules", rules)] },
   { kind := .clusterRoleBinding, name := appName
     content :=
      [("roleRef", .obj [("apiGroup", role.group), ("kind", role.label), ("name", appName)]),
       ("subjects", .arr [.obj [("kind", account.label), ("name", appName),
          ("namespace", o.namespaceName)]])] },
   { kind := .daemonSet, name := appName, namespaceName := o.namespaceName
     content := [("spec", .obj [("selector", .obj [("matchLabels", labels)]),
        ("template", .obj [("metadata", .obj [("labels", labels)]),
          ("spec", podSpec o.image)])])] }]

def stream (manifests : List Manifest) : String :=
  String.join (manifests.map fun m => "---\n" ++ Yaml.document m.toFields)

end Manifest
end FlowObserver
