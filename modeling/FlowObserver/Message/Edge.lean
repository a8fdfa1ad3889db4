import FlowObserver.Message.Flow
import FlowObserver.ServiceMap.Edge

/-!
# Edges as clients see them

The message that answers a service map request, with its two renderings.
-/

namespace FlowObserver

structure EdgeMessage where
  source : String := ""
  sourceNamespace : String := ""
  destination : String := ""
  destinationNamespace : String := ""
  protocol : String := ""
  requests : Nat := 0
  successes : Nat := 0
  failures : Nat := 0
  deriving DecidableEq, Repr

namespace EdgeMessage

def ofEdge (e : ServiceMap.Edge) : EdgeMessage where
  source := e.key.source
  sourceNamespace := e.key.sourceNamespace
  destination := e.key.destination
  destinationNamespace := e.key.destinationNamespace
  protocol := e.key.protocol
  requests := e.counts.requests
  successes := e.counts.successes
  failures := e.counts.failures

/-- For instance `frontend (default) -> catalog (default) [TCP] requests=3 ok=2 failed=1`. -/
def text (m : EdgeMessage) : String :=
  FlowMessage.qualified m.source m.sourceNamespace ++ " -> " ++
    FlowMessage.qualified m.destination m.destinationNamespace ++ " [" ++ m.protocol ++ "] " ++
    s!"requests={m.requests} ok={m.successes} failed={m.failures}"

def toJson (m : EdgeMessage) : Json :=
  .obj [("src_workload", m.source), ("src_namespace", m.sourceNamespace),
    ("dst_workload", m.destination), ("dst_namespace", m.destinationNamespace),
    ("protocol", m.protocol), ("request_count", m.requests), ("success_count", m.successes),
    ("failure_count", m.failures)]

/-- Reads back what `toJson` writes; what is missing is zero or empty. -/
def ofJson (j : Json) : EdgeMessage where
  source := j.textAt "src_workload"
  sourceNamespace := j.textAt "src_namespace"
  destination := j.textAt "dst_workload"
  destinationNamespace := j.textAt "dst_namespace"
  protocol := j.textAt "protocol"
  requests := j.natAt "request_count"
  successes := j.natAt "success_count"
  failures := j.natAt "failure_count"

end EdgeMessage
end FlowObserver
