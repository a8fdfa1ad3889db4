import FlowObserver.Flow.Basic

/-!
# Flows as clients see them

The message that is streamed to a client, with its two renderings: one line of text and one line of
JSON. Absent identity is an absent pod; absent text is empty.
-/

namespace FlowObserver

structure PodMessage where
  name : String := ""
  namespaceName : String := ""
  ownerName : String := ""
  ownerKind : String := ""
  labels : List (String × String) := []
  deriving DecidableEq, Repr

namespace PodMessage

def ofWorkload (w : Workload) : PodMessage where
  name := w.name
  namespaceName := w.namespaceName
  ownerName := w.ownerName.getD ""
  ownerKind := w.ownerKind.getD ""
  labels := w.labels

def toJson (p : PodMessage) : Json :=
  .obj [("name", p.name), ("namespace", p.namespaceName), ("workload_name", p.ownerName),
    ("workload_kind", p.ownerKind), ("labels", .obj (p.labels.map fun (k, v) => (k, .str v)))]

def ofJson (j : Json) : PodMessage where
  name := j.textAt "name"
  namespaceName := j.textAt "namespace"
  ownerName := j.textAt "workload_name"
  ownerKind := j.textAt "workload_kind"
  labels := (j.sub "labels").textFields

end PodMessage

structure FlowMessage where
  source : String := ""
  destination : String := ""
  sourcePort : UInt32 := 0
  destinationPort : UInt32 := 0
  protocol : String := ""
  verdict : String := ""
  timestamp : UInt64 := 0
  tunneled : Bool := false
  sourcePod : Option PodMessage := none
  destinationPod : Option PodMessage := none
  failureReason : String := ""
  deriving DecidableEq, Repr

namespace FlowMessage

def ofEvent (e : FlowEvent) : FlowMessage where
  source := Net.dotted e.flow.tuple.source
  destination := Net.dotted e.flow.tuple.destination
  sourcePort := e.flow.tuple.sourcePort.toUInt32
  destinationPort := e.flow.tuple.destinationPort.toUInt32
  protocol := e.protocolLabel
  verdict := e.verdictLabel
  timestamp := e.flow.timestamp
  tunneled := e.flow.tunneled
  sourcePod := e.source.map .ofWorkload
  destinationPod := e.destination.map .ofWorkload
  failureReason := e.failureReason.getD ""

def qualified (name namespaceName : String) : String :=
  if namespaceName = "" then name else name ++ " (" ++ namespaceName ++ ")"

/-- A named pod, else the address, with the port unless that is zero. -/
def sideText (pod : Option PodMessage) (address : String) (port : UInt32) : String :=
  let bare := if port = 0 then address else s!"{address}:{port.toNat}"
  match pod with
  | some p => if p.name = "" then bare else qualified p.name p.namespaceName
  | none => bare

/-- For instance `frontend (default) -> 10.0.0.9:80 [TCP] (FORWARDED)`. -/
def text (m : FlowMessage) : String :=
  sideText m.sourcePod m.source m.sourcePort ++ " -> " ++
    sideText m.destinationPod m.destination m.destinationPort ++
    " [" ++ m.protocol ++ "] (" ++ m.verdict ++ ")"

def toJson (m : FlowMessage) : Json :=
  .obj [("src_ip", m.source), ("dst_ip", m.destination), ("src_port", m.sourcePort.toNat),
    ("dst_port", m.destinationPort.toNat), ("protocol", m.protocol), ("verdict", m.verdict),
    ("timestamp_ns", m.timestamp.toNat), ("tunneled", m.tunneled),
    ("src_pod", .ofOption PodMessage.toJson m.sourcePod),
    ("dst_pod", .ofOption PodMessage.toJson m.destinationPod),
    ("failure_reason", m.failureReason)]

/-- Reads back what `toJson` writes; what is missing is zero, empty or absent. -/
def ofJson (j : Json) : FlowMessage where
  source := j.textAt "src_ip"
  destination := j.textAt "dst_ip"
  sourcePort := .ofNat (j.natAt "src_port")
  destinationPort := .ofNat (j.natAt "dst_port")
  protocol := j.textAt "protocol"
  verdict := j.textAt "verdict"
  timestamp := .ofNat (j.natAt "timestamp_ns")
  tunneled := j.flagAt "tunneled"
  sourcePod := (j.present? "src_pod").map .ofJson
  destinationPod := (j.present? "dst_pod").map .ofJson
  failureReason := j.textAt "failure_reason"

end FlowMessage
end FlowObserver
