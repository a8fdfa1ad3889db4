import FlowObserver.Classifier.Object
import FlowObserver.Cluster.Connection
import FlowObserver.Install.Apply
import FlowObserver.Service.Client
import FlowObserver.Settings.Layers
import FlowObserver.Telemetry.Server

/-!
# What ends a command

Every part of the agent has errors of its own. Those that end a command are told as they are, except
that a failed read and a failed registration tell what could not be done because of them.
-/

namespace FlowObserver

inductive AgentError where
  | settings (config : Option String) (e : Settings.LoadError)
  | classifier (path : String) (e : Classifier.ObjectError)
  | source (e : ReadError)
  | ingestion (f : SustainedFailure)
  | closed (channel : String)
  | link (e : LinkError)
  | cluster (e : ClusterError)
  | service (e : ListenError)
  | client (e : ClientError)
  | metrics (e : Exposition.ServerError)
  | registration (cause : String)
  | install (e : InstallError)
  | output (cause : String)

def AgentError.message : AgentError → String
  | settings config e => e.message config
  | classifier path e => s!"failed to load eBPF object '{path}': {e.message}"
  | source e => "event channel unavailable: " ++ e.message
  | ingestion f => f.message
  | closed channel => channel ++ " closed unexpectedly"
  | link e => e.message
  | cluster e => e.message
  | service e => e.message
  | client e => e.message
  | metrics e => e.message
  | registration cause => "failed to register metrics: " ++ cause
  | install e => e.message
  | output cause => "failed to write output: " ++ cause

end FlowObserver
