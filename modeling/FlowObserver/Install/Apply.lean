import FlowObserver.Install.Manifest
import FlowObserver.Net.Uri
import FlowObserver.Telemetry.Told

/-!
# Applying manifests

Objects are sent to the cluster one after the other, each to a path made from its kind, its
namespace and its name. The first that is refused ends the installation.
-/

namespace FlowObserver

inductive InstallError where
  | render
  | noCluster
  | refused (kind : ManifestKind) (name : String)
  deriving DecidableEq, Repr

def InstallError.message : InstallError → String
  | render => "failed to render manifests"
  | noCluster => "failed to connect to the cluster"
  | refused kind name => s!"failed to apply {kind.label} '{name}'"

structure ApplyRequest where
  method : String := "PATCH"
  uri : String
  contentType : String := "application/apply-patch+yaml"
  body : Json

namespace Manifest

def path (m : Manifest) : String :=
  let root := match m.kind.group with
    | some _ => "/apis/" ++ m.kind.apiVersion
    | none => "/api/" ++ m.kind.apiVersion
  let location := match m.namespaceName with
    | some n => "/namespaces/" ++ n
    | none => ""
  root ++ location ++ "/" ++ m.kind.plural ++ "/" ++ m.name

/-- The request for an object; there is none for an object without a name, or with one that no URI
can hold. A fragment is not sent. -/
def request? (m : Manifest) : Option ApplyRequest :=
  let uri := m.path ++ "?&force=true&fieldManager=" ++ appName
  if m.name.isEmpty || !Net.Uri.accepts uri then none
  else some { uri := (uri.takeWhile (· ≠ '#')).toString, body := m.toJson }

def applied (m : Manifest) : Signal :=
  .event .info "flowscope::install" "install.applied" "manifest applied"
    [("k8s.resource.kind", Text.quoted m.kind.label), ("k8s.resource.name", m.name)]

def applyEach (refuses : Nat → Bool) (sent : List ApplyRequest) :
    List Manifest → Told (Except InstallError Unit × List ApplyRequest)
  | [] => return (.ok (), sent)
  | m :: rest => do
    match m.request? with
    | none => return (.error (.refused m.kind m.name), sent)
    | some r =>
      if refuses sent.length then return (.error (.refused m.kind m.name), sent ++ [r])
      else
        tell [m.applied]
        applyEach refuses (sent ++ [r]) rest

def applyAll (refuses : Nat → Bool) (manifests : List Manifest) :
    Told (Except InstallError Unit × List ApplyRequest) :=
  applyEach refuses [] manifests

end Manifest
end FlowObserver
