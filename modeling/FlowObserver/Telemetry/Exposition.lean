import FlowObserver.Decimal.Shortest
import FlowObserver.Table
import FlowObserver.Telemetry.Signal
import FlowObserver.Text.Order

/-!
# The exposition of measurements

All measurements as text, family by family: a line of help, a line with the kind, and a line per
value. Families are sorted by name and values by their labels. A family without labels always has a
value; one with labels shows only what has been measured, and nothing at all before that.
-/

namespace FlowObserver
namespace Exposition

inductive Kind where
  | counter | gauge
  deriving DecidableEq, Repr

def Kind.label : Kind → String
  | counter => "counter"
  | gauge => "gauge"

structure Family where
  name : String
  kind : Kind
  help : String
  deriving DecidableEq, Repr

def counter (area name help : String) : Family := ⟨s!"flowscope_{area}_{name}", .counter, help⟩

def gauge (area name help : String) : Family := ⟨s!"flowscope_{area}_{name}", .gauge, help⟩

end Exposition

open Exposition in
def Metric.family : Metric → Family
  | eventsLost => counter "ebpf" "events_lost_total"
    "Total number of flow records dropped in the kernel because the ring buffer was full"
  | ringRecords => counter "ebpf" "ringbuf_records_total"
    "Total number of records read from the FLOW_EVENTS ring buffer"
  | recordsDiscarded _ => counter "ingest" "records_discarded_total"
    "Total number of ring buffer records discarded during decode"
  | handoffDropped => counter "ingest" "handoff_dropped_total"
    "Total number of flow events dropped because the distribution handoff timed out"
  | readFailures => counter "ingest" "read_failures_total"
    "Total number of transient event channel read failures"
  | eventsHandedOff => counter "ingest" "events_total"
    "Total number of flow events handed off to distribution"
  | watcherEvents _ => counter "k8s" "watcher_events_total" "Total number of pod watcher events"
  | indexEntries => gauge "k8s" "cache_entries" "Current number of addresses mapped to a workload"
  | indexLookups _ => counter "k8s" "cache_lookups_total" "Total number of workload cache lookups"
  | subscriberDropped => counter "distribution" "dropped_total"
    "Total number of flow events dropped because a subscriber queue was full"
  | subscribers => gauge "distribution" "subscribers" "Current number of registered subscriptions"
  | published => counter "distribution" "published_total"
    "Total number of flow events published to the hub"
  | attachedLinks => gauge "iface" "attached_links"
    "Current number of TC links held by the agent"
  | linkOperations _ _ => counter "iface" "operations_total"
    "Total number of TC attach and detach operations"
  | activeTasks _ => gauge "tasks" "active" "Current number of running agent tasks"
  | finishedTasks _ _ => counter "tasks" "finished_total"
    "Total number of agent tasks that finished, by outcome"
  | shutdownTimeouts => counter "tasks" "shutdown_timeouts_total"
    "Total number of shutdowns that had to cancel tasks"

/-- Label names with their values, in the order of the names. -/
def Metric.labels : Metric → List (String × String)
  | recordsDiscarded reason => [("reason", reason)]
  | watcherEvents event => [("event", event)]
  | indexLookups result => [("result", result)]
  | linkOperations operation status => [("operation", operation), ("status", status)]
  | activeTasks task => [("task", task)]
  | finishedTasks task outcome => [("outcome", outcome), ("task", task)]
  | _ => []

namespace Exposition

/-- The measurements without labels, which are zero at first. -/
def start : Table Metric Int :=
  [Metric.eventsLost, .ringRecords, .handoffDropped, .readFailures, .eventsHandedOff, .indexEntries,
    .subscriberDropped, .subscribers, .published, .attachedLinks, .shutdownTimeouts].foldl
    (fun t m => t.insert m 0) .empty

def apply (t : Table Metric Int) : Signal → Table Metric Int
  | .log _ => t
  | .add m amount => t.insert m ((t.find? m).getD 0 + amount)
  | .set m value => t.insert m value

/-- A line of the text: the labels, and the value as it is printed. -/
structure Sample where
  labels : List (String × String)
  value : String

structure Block where
  family : Family
  samples : List Sample

def escapeWith (quotes : Bool) (s : String) : String :=
  String.ofList <| s.toList.flatMap fun c =>
    match c with
    | '\\' => ['\\', '\\']
    | '\n' => ['\\', 'n']
    | '"' => if quotes then ['\\', '"'] else ['"']
    | c => [c]

def Sample.line (name : String) (s : Sample) : String :=
  let label : String × String → String := fun (n, v) => n ++ "=\"" ++ escapeWith true v ++ "\""
  let labels := if s.labels.isEmpty then ""
    else "\x7b" ++ ",".intercalate (s.labels.map label) ++ "\x7d"
  name ++ labels ++ " " ++ s.value

def Block.lines (b : Block) : List String :=
  let help := if b.family.help.isEmpty then []
    else ["# HELP " ++ b.family.name ++ " " ++ escapeWith false b.family.help]
  help ++ ["# TYPE " ++ b.family.name ++ " " ++ b.family.kind.label] ++
    b.samples.map (·.line b.family.name)

/-- Values are printed as doubles. -/
def valueText (n : Int) : String := Decimal.plain (.ofInt n)

def labelValues (m : Metric) : List String := m.labels.map (·.2)

def block (t : Table Metric Int) (f : Family) : Block :=
  let entries := t.entries.filter (·.1.family = f)
  let sorted := entries.mergeSort fun a b => Text.listLe (labelValues a.1) (labelValues b.1)
  ⟨f, sorted.map fun (m, n) => ⟨m.labels, valueText n⟩⟩

def blocks (signals : List Signal) : List Block :=
  let t := signals.foldl apply start
  (t.keys.map (·.family)).eraseDups.map (block t)

def render (blocks : List Block) : List String :=
  (blocks.mergeSort fun a b => a.family.name ≤ b.family.name).flatMap Block.lines

end Exposition
end FlowObserver
