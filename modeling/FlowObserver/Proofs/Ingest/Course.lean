import FlowObserver.Ingest.Session
import FlowObserver.Proofs.Ingest.Changes

/-!
# Ingestion step by step

Ingestion, the consumer of its channel and the world around them take steps in any order. The world
lets time pass and signals the shutdown; the consumer takes events, stalls or leaves; ingestion does
one thing at a time, and waits where it has to. Nothing is assumed of when a step is taken, except
that an event is given up only when it finds the channel full after its time is over.
-/

namespace FlowObserver
namespace Ingestion

/-- Where ingestion is in its loop. -/
inductive Stage where
  | reading
  | taking (rest : List Bytes)
  /-- The event in hand has been offered since then. -/
  | offering (since : Nat) (rest : List Bytes)
  | retrying (wake : Nat)
  | closing
  | ended (ending : Ending)
  deriving DecidableEq, Repr

namespace Stage

def between : List Bytes → Stage
  | [] => reading
  | bytes :: rest => taking (bytes :: rest)

def rest : Stage → List Bytes
  | taking rest | offering _ rest => rest
  | reading | retrying _ | closing | ended _ => []

def hasEvent : Stage → Bool
  | offering .. => true
  | ended ending => ending = .exit .handoffClosed
  | reading | taking _ | retrying _ | closing => false

def isEnded : Stage → Bool
  | ended _ => true
  | _ => false

@[simp] theorem rest_between (records : List Bytes) : (between records).rest = records := by
  cases records <;> rfl

@[simp] theorem hasEvent_between (records : List Bytes) : (between records).hasEvent = false := by
  cases records <;> rfl

end Stage

structure Activity where
  ingestion : Ingestion
  channel : Handoff
  now : Nat := 0
  stage : Stage := .reading
  signalled : Bool := false

inductive Step where
  | pass (nanos : Nat)
  | signal
  | drain
  /-- The consumer closes the channel; what is queued it may still take. -/
  | leave
  | poll (reading : Except ReadError Nat)
  | read (result : Except ReadError (List Bytes))
  | retry
  | take (index : Option WorkloadIndex)
  | place
  | expire
  | stop (reading : Except ReadError Nat)

/-- Ingestion ends here without an error. -/
inductive Due (x : Activity) : IngestExit → Prop where
  | reading (hstage : x.stage = .reading) (hsignal : x.signalled = true) : Due x .shutdown
  | retrying {wake : Nat} (hstage : x.stage = .retrying wake) (hsignal : x.signalled = true) :
    Due x .shutdown
  | taking {rest : List Bytes} (hstage : x.stage = .taking rest) (hsignal : x.signalled = true) :
    Due x .shutdown
  | closing (hstage : x.stage = .closing) : Due x .channelClosed
  | offering {since : Nat} {rest : List Bytes} (hstage : x.stage = .offering since rest)
    (hgone : x.channel.isGone = true) : Due x .handoffClosed

/-- What a step makes of the activity that it is taken in. -/
inductive Move (settings : PipelineSettings) (x : Activity) : Step → Activity → Prop where
  | pass (nanos : Nat) : Move settings x (.pass nanos) { x with now := x.now + nanos }
  | signal : Move settings x .signal { x with signalled := true }
  | drain {e : FlowEvent} {queue : List FlowEvent} (hqueue : x.channel.queue = e :: queue) :
    Move settings x .drain
      { x with channel := { x.channel with queue, taken := x.channel.taken ++ [(x.now, e)] } }
  | leave : Move settings x .leave { x with channel := { x.channel with consumer := .gone } }
  | poll (reading : Except ReadError Nat) (hstage : x.stage = .reading) :
    Move settings x (.poll reading) { x with ingestion := (x.ingestion.pollLost reading).value }
  | batch (records : List Bytes) (hstage : x.stage = .reading) :
    Move settings x (.read (.ok records))
      { x with ingestion := x.ingestion.readSucceeded, stage := .between records }
  | closed (hstage : x.stage = .reading) :
    Move settings x (.read (.error .closed)) { x with stage := .closing }
  | failed (details : String) {delay : Duration} {ingestion : Ingestion}
    (hstage : x.stage = .reading)
    (hread : (x.ingestion.readFailed settings.maxConsecutiveFailures (.transient details)).value =
      (.ok delay, ingestion)) :
    Move settings x (.read (.error (.transient details)))
      { x with ingestion, stage := .retrying (x.now + delay.nanos) }
  | fatal (details : String) {failure : SustainedFailure} {ingestion : Ingestion}
    (hstage : x.stage = .reading)
    (hread : (x.ingestion.readFailed settings.maxConsecutiveFailures (.transient details)).value =
      (.error failure, ingestion)) :
    Move settings x (.read (.error (.transient details)))
      { x with ingestion, stage := .ended (.failed failure) }
  | retry {wake : Nat} (hstage : x.stage = .retrying wake) (hwake : wake ≤ x.now) :
    Move settings x .retry { x with stage := .reading }
  | discard (index : Option WorkloadIndex) {bytes : Bytes} {rest : List Bytes}
    (hstage : x.stage = .taking (bytes :: rest)) (hsignal : x.signalled = false)
    (hhand : (x.ingestion.takeRecord index bytes).value.inHand = none) :
    Move settings x (.take index)
      { x with ingestion := (x.ingestion.takeRecord index bytes).value, stage := .between rest }
  | start (index : Option WorkloadIndex) {bytes : Bytes} {rest : List Bytes} {e : FlowEvent}
    (hstage : x.stage = .taking (bytes :: rest)) (hsignal : x.signalled = false)
    (hhand : (x.ingestion.takeRecord index bytes).value.inHand = some e) :
    Move settings x (.take index)
      { x with
        ingestion := (x.ingestion.takeRecord index bytes).value
        stage := .offering x.now rest }
  | place {e : FlowEvent} {since : Nat} {rest : List Bytes} {channel : Handoff}
    (hstage : x.stage = .offering since rest) (hhand : x.ingestion.inHand = some e)
    (hplace : x.channel.tryPlace e x.now = some (.placed x.now, channel)) :
    Move settings x .place
      { x with channel, ingestion := x.ingestion.handedOff.value, stage := .between rest }
  | expire {e : FlowEvent} {since : Nat} {rest : List Bytes}
    (hstage : x.stage = .offering since rest) (hhand : x.ingestion.inHand = some e)
    (hplace : x.channel.tryPlace e x.now = none)
    (hlate : since + settings.handoffTimeout.nanos ≤ x.now) :
    Move settings x .expire
      { x with ingestion := x.ingestion.handoffTimedOut.value, stage := .between rest }
  | stop (reading : Except ReadError Nat) {exit : IngestExit} (hdue : Due x exit) :
    Move settings x (.stop reading)
      { x with
        ingestion := (x.ingestion.stopped reading exit).value
        stage := .ended (.exit exit) }

/-- The course of steps leads from `x` to the last activity. -/
inductive Run (settings : PipelineSettings) (x : Activity) : List Step → Activity → Prop where
  | nil : Run settings x [] x
  | concat {course : List Step} {y z : Activity} {s : Step} (hrun : Run settings x course y)
    (hmove : Move settings y s z) : Run settings x (course ++ [s]) z

theorem Run.single {settings : PipelineSettings} {x y : Activity} {s : Step}
    (h : Move settings x s y) : Run settings x [s] y :=
  Run.nil.concat h

theorem Run.append {settings : PipelineSettings} {x y z : Activity} {first later : List Step}
    (hfirst : Run settings x first y) (hlater : Run settings y later z) :
    Run settings x (first ++ later) z := by
  induction hlater with
  | nil => rwa [List.append_nil]
  | concat _ hmove ih =>
    rw [← List.append_assoc]
    exact ih.concat hmove

/-- Ingestion before its first read, with a channel that it hands over to. -/
def Activity.initial (settings : PipelineSettings) (channel : Handoff) : Activity where
  ingestion := .ofSettings settings.backoffInitial settings.backoffMax
  channel

namespace Step

def batch : Step → List Bytes
  | .read (.ok records) => records
  | _ => []

/-- The workloads that are known when a record is taken. -/
def index? : Step → Option (Option WorkloadIndex)
  | .take index => some index
  | _ => none

/-- Whether the event in hand gets its place, where the step decides on it. -/
def fate? : Step → Option Bool
  | .place => some true
  | .expire => some false
  | _ => none

end Step

def source (course : List Step) : List Bytes := course.flatMap Step.batch

/-- For each record that was taken, the workloads that were known by then. -/
def indices (course : List Step) : List (Option WorkloadIndex) := course.filterMap Step.index?

/-- The records that were taken: as many of the source as there were takings. -/
def taken (course : List Step) : List (Option WorkloadIndex × Bytes) :=
  (indices course).zip (source course)

/-- For each event that is not in hand any more, whether it got its place. -/
def fates (course : List Step) : List Bool := course.filterMap Step.fate?

def placedOf (events : List FlowEvent) (fates : List Bool) : List FlowEvent :=
  ((events.zip fates).filter (·.2)).map (·.1)

theorem source_concat (course : List Step) (s : Step) :
    source (course ++ [s]) = source course ++ s.batch := by
  simp [source]

theorem indices_concat (course : List Step) (s : Step) :
    indices (course ++ [s]) = indices course ++ s.index?.toList := by
  rw [indices, List.filterMap_append, List.filterMap_cons]
  cases s.index? <;> rfl

theorem fates_concat (course : List Step) (s : Step) :
    fates (course ++ [s]) = fates course ++ s.fate?.toList := by
  rw [fates, List.filterMap_append, List.filterMap_cons]
  cases s.fate? <;> rfl

end Ingestion
end FlowObserver
