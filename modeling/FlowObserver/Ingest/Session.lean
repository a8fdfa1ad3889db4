import FlowObserver.Ingest.Basic
import FlowObserver.Ingest.Handoff
import FlowObserver.Settings.Basic

/-!
# Ingestion on a clock

A run of ingestion over reads that are given in advance, on a clock that moves only while ingestion
waits: for a read, for a retry, or for room in the handover channel. The shutdown is noticed while
ingestion waits for a read or a retry, and before each record. The loss counter is polled at every
multiple of its interval at which ingestion waits for a read, or right after, and once at the end.
-/

namespace FlowObserver
namespace Ingestion

inductive ReadResult where
  | batch (records : List Bytes)
  | failed (e : ReadError)
  | never

structure Read where
  delay : Nat := 0
  counter : Option Nat := none
  /-- Whether the shutdown is signalled then. -/
  signalsShutdown : Bool := false
  result : ReadResult

abbrev nanosPerMilli : Nat := 1000000

structure Session where
  now : Nat := 0
  /-- Waiting ends at full ticks of the clock. -/
  tick : Nat := nanosPerMilli
  ingestion : Ingestion
  handoff : Handoff
  counter : Nat := 0
  /-- When polls of the counter were last caught up with. -/
  polled : Nat := 0
  shutdownAt : Option Nat := none

inductive Ending where
  | exit (e : IngestExit)
  | failed (f : SustainedFailure)
  /-- A read never comes back, and no shutdown is signalled. -/
  | stuck
  deriving DecidableEq, Repr

namespace Session

/-- The time at which a wait until `time` is cut short by the shutdown. -/
def shutdownBy (s : Session) (time : Nat) : Option Nat :=
  match s.shutdownAt with
  | some t => if t ≤ time then some (max t s.now) else none
  | none => none

/-- When a wait of `nanos` ends. -/
def wakeTime (s : Session) (nanos : Nat) : Nat := (s.now + nanos + s.tick - 1) / s.tick * s.tick

/-- Lets time pass; the consumer gets its turn unless no time passes at all. -/
def sleepUntil (s : Session) (time : Nat) : Session :=
  if s.now < time then { s with now := time, handoff := s.handoff.during s.now time } else s

/-- Lets time pass while waiting for a read, and polls the loss counter if an interval begins. -/
def awaitUntil (s : Session) (interval time : Nat) : Told Session := do
  let s := s.sleepUntil time
  if s.polled / interval = s.now / interval then return s
  else return { s with ingestion := ← s.ingestion.pollLost (.ok s.counter), polled := s.now }

def exit (s : Session) (e : IngestExit) : Told (Ending × Session) := do
  return (.exit e, { s with ingestion := ← s.ingestion.stopped (.ok s.counter) e })

def handOff (settings : PipelineSettings) (s : Session) (e : FlowEvent) :
    Told (Option IngestExit × Session) := do
  let deadline := s.wakeTime settings.handoffTimeout.nanos
  match s.handoff.offer e s.now deadline with
  | (.placed now, handoff) =>
    return (none, { s with now, handoff, ingestion := ← s.ingestion.handedOff })
  | (.timedOut now, handoff) =>
    return (none, { s with now, handoff, ingestion := ← s.ingestion.handoffTimedOut })
  | (.closed now, handoff) =>
    tell [say .warn "ingest.handoff_closed" "distribution channel closed, ingestion loop ending" []]
    return (some .handoffClosed, { s with now, handoff })

/-- Takes the records of a batch one after the other, up to the one that ends ingestion. -/
def takeBatch (settings : PipelineSettings) (index : Option WorkloadIndex) (s : Session) :
    List Bytes → Told (Option IngestExit × Session)
  | [] => return (none, s)
  | bytes :: rest => do
    if (s.shutdownBy s.now).isSome then return (some .shutdown, s)
    else
      let s := { s with ingestion := ← s.ingestion.takeRecord index bytes }
      match s.ingestion.inHand with
      | none => takeBatch settings index s rest
      | some e =>
        match ← handOff settings s e with
        | (some exit, s) => return (some exit, s)
        | (none, s) => takeBatch settings index s rest

def arrive (s : Session) (r : Read) : Session :=
  { s with
    counter := r.counter.getD s.counter
    shutdownAt := if r.signalsShutdown && (s.shutdownBy s.now).isNone then some s.now
      else s.shutdownAt }

/-- Deals with the result of a read: an ending, or the session that goes on. -/
def takeResult (settings : PipelineSettings) (index : Option WorkloadIndex) (s : Session) :
    ReadResult → Told (Option Ending × Session)
  | .batch records => do
    let s := { s with ingestion := s.ingestion.readSucceeded }
    match ← takeBatch settings index s records with
    | (some e, s) =>
      let (ending, s) ← s.exit e
      return (some ending, s)
    | (none, s) => return (none, s)
  | .failed .closed => do
    tell [say .warn "ingest.channel_closed" "event channel closed, ingestion loop ending" []]
    let (ending, s) ← s.exit .channelClosed
    return (some ending, s)
  | .failed e => do
    let (next, ingestion) ← s.ingestion.readFailed settings.maxConsecutiveFailures e
    let s := { s with ingestion }
    match next with
    | .error f => return (some (.failed f), s)
    | .ok delay =>
      let wake := s.wakeTime delay.nanos
      match s.shutdownBy wake with
      | some time =>
        let (ending, s) ← (s.sleepUntil time).exit .shutdown
        return (some ending, s)
      | none => return (none, s.sleepUntil wake)
  | .never => do
    match s.shutdownAt with
    | some time =>
      let s ← s.awaitUntil settings.lossPollInterval.nanos (max time s.now)
      let (ending, s) ← s.exit .shutdown
      return (some ending, s)
    | none => return (some .stuck, s)

def read (settings : PipelineSettings) (index : Option WorkloadIndex) (s : Session) (r : Read) :
    Told (Option Ending × Session) := do
  let interval := settings.lossPollInterval.nanos
  let back := s.wakeTime r.delay
  match s.shutdownBy back with
  | some time =>
    let (ending, s) ← (← s.awaitUntil interval time).exit .shutdown
    return (some ending, s)
  | none =>
    let s ← s.awaitUntil interval back
    (s.arrive r).takeResult settings index r.result

def reads (settings : PipelineSettings) (index : Option WorkloadIndex) (s : Session) :
    List Read → Told (Ending × Session)
  | [] => do
    let (ending, s) ← s.read settings index { result := .failed .closed }
    return (ending.getD .stuck, s)
  | r :: rest => do
    match ← s.read settings index r with
    | (some ending, s) => return (ending, s)
    | (none, s) => s.reads settings index rest

end Session

/-- Without an interval between polls there is nothing to run. -/
def isRunnable (settings : PipelineSettings) : Bool := 0 < settings.lossPollInterval.nanos

def run (settings : PipelineSettings) (index : Option WorkloadIndex) (handoff : Handoff)
    (script : List Read) (shutdownAt : Option Nat) (tick : Nat := nanosPerMilli) :
    Told (Ending × Session) := do
  tell [say .info "task.started" "ingestion loop started" [taskName]]
  let start : Session := {
    tick
    ingestion := .ofSettings settings.backoffInitial settings.backoffMax
    handoff
    shutdownAt }
  start.reads settings index script

end Ingestion
end FlowObserver
