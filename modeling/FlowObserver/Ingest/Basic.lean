import FlowObserver.Flow.Decode
import FlowObserver.Ingest.Backoff
import FlowObserver.Telemetry.Told
import FlowObserver.Time.Human
import FlowObserver.Workload.Signals

/-!
# Ingestion

Records are read in batches, decoded, joined with the workloads at both ends, and handed off one by
one. Ingestion counts what becomes of every record. A record that is counted and neither discarded,
handed off nor dropped is the one in hand.
-/

namespace FlowObserver

inductive ReadError where
  | transient (details : String)
  | closed
  deriving DecidableEq, Repr

def ReadError.message : ReadError → String
  | transient details => "transient event channel read failure: " ++ details
  | closed => "event channel closed"

structure SustainedFailure where
  failures : Nat
  last : ReadError
  deriving DecidableEq, Repr

def SustainedFailure.message (f : SustainedFailure) : String :=
  s!"event channel failed {f.failures} consecutive reads: " ++ f.last.message

inductive IngestExit where
  | shutdown
  | channelClosed
  | handoffClosed
  deriving DecidableEq, Repr

def IngestExit.label : IngestExit → String
  | shutdown => "Shutdown"
  | channelClosed => "ChannelClosed"
  | handoffClosed => "HandoffClosed"

structure IngestStats where
  records : Nat := 0
  truncated : Nat := 0
  malformed : Nat := 0
  handedOff : Nat := 0
  handoffDropped : Nat := 0
  lost : Nat := 0
  deriving DecidableEq, Repr

structure Ingestion where
  stats : IngestStats := {}
  lastReading : Nat := 0
  backoff : Backoff
  inHand : Option FlowEvent := none
  deriving DecidableEq, Repr

namespace IngestStats

def discard (s : IngestStats) : DecodeError → IngestStats
  | .truncated _ => { s with truncated := s.truncated + 1 }
  | .malformed _ => { s with malformed := s.malformed + 1 }

end IngestStats

namespace Ingestion

def say (severity : Severity) (name message : String) (details : List (String × String)) : Signal :=
  .event severity "flowscope::source::ingest" name message details

def taskName : String × String := ("task.name", Text.quoted "ingestion_loop")

def errorDetail (message : String) : String × String := ("error.message", message)

def ofSettings (initial cap : Duration) : Ingestion := { backoff := .start initial cap }

def resolve (index : Option WorkloadIndex) (address : UInt32) : Told (Option Workload) :=
  match index with
  | some x => x.lookingUp (.v4 address)
  | none => return none

def discarded (e : DecodeError) : List Signal :=
  [.count (.recordsDiscarded e.reason),
   say .warn "ingest.record_discarded" "discarding undecodable record"
    [errorDetail e.message, ("reason", Text.quoted e.reason)]]

def observed (e : FlowEvent) : Signal :=
  say .trace "ingest.flow" "flow observed"
    [("flow.key", e.flow.tuple.toString), ("flow.verdict", Text.quoted e.verdictLabel)]

def takeRecord (x : Ingestion) (index : Option WorkloadIndex) (bytes : Bytes) :
    Told Ingestion := do
  let stats := { x.stats with records := x.stats.records + 1 }
  match Flow.decode bytes with
  | .error e =>
    tell (discarded e)
    return { x with stats := stats.discard e }
  | .ok flow =>
    let source ← resolve index flow.tuple.source
    let destination ← resolve index flow.tuple.destination
    let event : FlowEvent := ⟨flow, source, destination⟩
    tell [observed event]
    return { x with stats, inHand := some event }

def handedOff (x : Ingestion) : Told Ingestion := do
  tell [.count .eventsHandedOff]
  return { x with
    stats := { x.stats with handedOff := x.stats.handedOff + 1 }
    inHand := none }

def handoffTimedOut (x : Ingestion) : Told Ingestion := do
  tell [.count .handoffDropped,
    say .debug "ingest.handoff_dropped" "distribution handoff full, dropping event" []]
  return { x with
    stats := { x.stats with handoffDropped := x.stats.handoffDropped + 1 }
    inHand := none }

def readSucceeded (x : Ingestion) : Ingestion := { x with backoff := x.backoff.reset }

def retrying (e : ReadError) (failures : Nat) (delay : Duration) : Signal :=
  say .warn "ingest.read_failed" "event channel read failed, backing off"
    [errorDetail e.message, ("ingest.consecutive_failures", toString failures),
      ("retry.delay", delay.toHuman)]

/-- After a failed read: the delay before the next one, or the failure that ends ingestion. -/
def readFailed (x : Ingestion) (limit : Nat) (e : ReadError) :
    Told (Except SustainedFailure Duration × Ingestion) := do
  let (delay, backoff) := x.backoff.fail
  tell [.count .readFailures]
  if limit ≤ backoff.failures then return (.error ⟨backoff.failures, e⟩, { x with backoff })
  else
    tell [retrying e backoff.failures delay]
    return (.ok delay, { x with backoff })

/-- Adds the growth since the last reading. A counter that falls back counts anew from there. -/
def pollLost (x : Ingestion) : Except ReadError Nat → Told Ingestion
  | .ok reading => do
    let growth := reading - x.lastReading
    if growth = 0 then return { x with lastReading := reading }
    else
      tell [.add .eventsLost growth,
        say .warn "ebpf.samples_lost" "ring buffer full, samples lost in kernel"
          [("ebpf.samples_lost", toString growth), ("ebpf.samples_lost_total", toString reading)]]
      return { x with
        stats := { x.stats with lost := x.stats.lost + growth }
        lastReading := reading }
  | .error e => do
    tell [say .debug "ebpf.loss_counter_unreadable" "failed to read lost sample counter"
      [errorDetail e.message]]
    return x

/-- The last poll, at the end of a run without an error. -/
def stopped (x : Ingestion) (reading : Except ReadError Nat) (exit : IngestExit) :
    Told Ingestion := do
  let x ← x.pollLost reading
  tell [say .info "task.stopped" "ingestion loop stopped"
    [taskName, ("ingest.exit", exit.label), ("ingest.records", toString x.stats.records),
      ("ingest.handoff_dropped", toString x.stats.handoffDropped)]]
  return x

end Ingestion
end FlowObserver
