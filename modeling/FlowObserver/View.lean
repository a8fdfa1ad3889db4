import FlowObserver.Command.Basic
import FlowObserver.Ingest.Basic
import FlowObserver.Json.Access
import FlowObserver.Link.Policy

/-!
# Views

Values of the agent as JSON objects, for tools that look into it. Where there is a reader as well,
it takes back what is written; a field that is missing is zero, empty or absent.
-/

namespace FlowObserver

namespace Duration

def toParts (d : Duration) : Json := .obj [("secs", d.seconds), ("nanos", d.subsecond)]

def ofParts (j : Json) : Duration :=
  .clamped (j.natAt "secs" * nanosPerSecond + j.natAt "nanos")

end Duration

namespace WireRecord

def toJson (r : WireRecord) : Json :=
  .obj [("src_addr", r.sourceAddress), ("dst_addr", r.destinationAddress),
    ("src_port", r.sourcePort), ("dst_port", r.destinationPort), ("protocol", r.protocol),
    ("verdict", r.verdict), ("flags", r.flags), ("timestamp_ns", r.timestamp),
    ("tunneled", r.tunneled)]

/-- Whether the flow is tunneled is part of the flags. -/
def ofJson (j : Json) : WireRecord where
  sourceAddress := .ofNat (j.natAt "src_addr")
  destinationAddress := .ofNat (j.natAt "dst_addr")
  sourcePort := .ofNat (j.natAt "src_port")
  destinationPort := .ofNat (j.natAt "dst_port")
  protocol := .ofNat (j.natAt "protocol")
  verdict := .ofNat (j.natAt "verdict")
  flags := .ofNat (j.natAt "flags")
  timestamp := .ofNat (j.natAt "timestamp_ns")

end WireRecord

def Flow.toJson (f : Flow) : Json :=
  .obj [("key", f.tuple.toString), ("src", Net.dotted f.tuple.source),
    ("dst", Net.dotted f.tuple.destination), ("src_port", f.tuple.sourcePort),
    ("dst_port", f.tuple.destinationPort), ("protocol", f.tuple.protocol),
    ("verdict", f.verdict.label), ("timestamp_ns", f.timestamp), ("tunneled", f.tunneled)]

def IngestStats.toJson (s : IngestStats) : Json :=
  .obj [("records", s.records), ("truncated", s.truncated), ("malformed", s.malformed),
    ("handed_off", s.handedOff), ("handoff_dropped", s.handoffDropped), ("lost", s.lost)]

namespace Link

def toJson (l : Link) : Json :=
  .obj [("index", l.index), ("name", l.name), ("kind", l.kind), ("up", l.up)]

/-- A link is up unless it is said to be down. -/
def ofJson (j : Json) : Link :=
  ⟨.ofNat (j.natAt "index"), j.textAt "name", j.textAt? "kind", j.flagAt "up" true⟩

end Link

/-- A command with its options, also those that it was not given. -/
def Command.toJson : Command → Json
  | agent interface discover object =>
    .obj [("name", "agent"), ("interface", interface), ("discover", discover),
      ("ebpf_object", object)]
  | observe server namespaceName verdict format =>
    .obj [("name", "observe"), ("server", server), ("namespace", namespaceName),
      ("verdict", verdict), ("format", format.label)]
  | serviceMap server window format =>
    .obj [("name", "service-map"), ("server", server),
      ("window", .ofOption (fun w : UInt32 => w) window), ("format", format.label)]
  | install options apply =>
    .obj [("name", "install"), ("namespace", options.namespaceName), ("image", options.image),
      ("apply", apply)]

end FlowObserver
