import FlowObserver.Service.Listen
import FlowObserver.ServiceMap.Basic
import FlowObserver.Text.Numeral

/-!
# Settings of the agent

All that can be configured, with the values that hold unless something else is asked for.
-/

namespace FlowObserver

inductive LogFormat where
  | full | json
  deriving DecidableEq, Repr

/-- `fixed` names one interface; `discover` follows every link that the patterns or kinds select. -/
inductive AttachMode where
  | fixed | discover
  deriving DecidableEq, Repr

structure AttachSettings where
  mode : AttachMode := .fixed
  interface : String := "cni0"
  patterns : List String := ["veth*"]
  kinds : List String := ["veth"]
  deriving DecidableEq, Repr

structure PipelineSettings where
  handoffCapacity : Nat := 1024
  /-- How long a full handover channel is waited for before the event is dropped. -/
  handoffTimeout : Duration := .ofSeconds 1
  backoffInitial : Duration := .ofSeconds 1
  backoffMax : Duration := .ofSeconds 30
  /-- Failed reads in a row after which ingestion gives up. -/
  maxConsecutiveFailures : Nat := 5
  lossPollInterval : Duration := .ofSeconds 1
  deriving DecidableEq, Repr

structure DistributionSettings where
  subscriberCapacity : Nat := 256
  deriving DecidableEq, Repr

structure KubernetesSettings where
  enabled : Bool := true
  watchReconnectDelay : Duration := .ofSeconds 5
  deriving DecidableEq, Repr

structure MetricsSettings where
  enabled : Bool := true
  listen : ListenSettings := { port := 10250 }
  deriving DecidableEq, Repr

structure Settings where
  logLevel : Severity := .info
  logFormat : LogFormat := .full
  attach : AttachSettings := {}
  objectPath : String := "target/bpfel-unknown-none/release/flowscope-ebpf"
  pipeline : PipelineSettings := {}
  distribution : DistributionSettings := {}
  kubernetes : KubernetesSettings := {}
  service : ListenSettings := { port := 4245 }
  metrics : MetricsSettings := {}
  serviceMap : ServiceMapSettings := {}
  /-- Upper bound for each stage of a graceful shutdown. -/
  shutdownTimeout : Duration := .ofSeconds 5
  deriving DecidableEq, Repr

namespace AttachMode

def label : AttachMode → String
  | fixed => "fixed"
  | discover => "discover"

def ofLabel? (s : String) : Option AttachMode := [fixed, discover].find? (·.label = s)

end AttachMode

namespace LogFormat

def label : LogFormat → String
  | full => "full"
  | json => "json"

def ofLabel? (s : String) : Option LogFormat := [full, json].find? (·.label = s)

end LogFormat

namespace Severity

def all : List Severity := [error, warn, info, debug, trace]

/-- A level by its name in any case, or by its number from 1 to 5. -/
def ofText? (s : String) : Option Severity :=
  match Text.natural (UInt64.size - 1) s with
  | .ok 0 => none
  | .ok (n + 1) => all[n]?
  | .error _ => all.find? fun level => Text.sameUpToCase level.label s

def levelSyntaxMessage : String :=
  "error parsing level: expected one of \"error\", \"warn\", \"info\", \"debug\", \"trace\", " ++
    "or a number 1-5"

end Severity
end FlowObserver
