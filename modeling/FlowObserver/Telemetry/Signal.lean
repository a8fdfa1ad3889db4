import FlowObserver.Text.Quoted

/-!
# Signals

What the agent tells about itself: log lines, and changes of its measurements. State transitions
and signals are kept apart, so that each transition can be reasoned about without its telemetry.
-/

namespace FlowObserver

inductive Severity where
  | error | warn | info | debug | trace
  deriving DecidableEq, Repr

namespace Severity

def label : Severity → String
  | error => "ERROR"
  | warn => "WARN"
  | info => "INFO"
  | debug => "DEBUG"
  | trace => "TRACE"

end Severity

/-- A log line: a message and named details, whose values are rendered already. -/
structure LogLine where
  severity : Severity
  target : String
  message : String
  details : List (String × String) := []
  deriving DecidableEq, Repr

/-- The message, then each detail as ` name=value`. -/
def LogLine.text (l : LogLine) : String :=
  l.message ++ String.join (l.details.map fun (name, value) => " " ++ name ++ "=" ++ value)

inductive Metric where
  | eventsLost
  | ringRecords
  | recordsDiscarded (reason : String)
  | handoffDropped
  | readFailures
  | eventsHandedOff
  | watcherEvents (event : String)
  | indexEntries
  | indexLookups (result : String)
  | subscriberDropped
  | subscribers
  | published
  | attachedLinks
  | linkOperations (operation status : String)
  | activeTasks (task : String)
  | finishedTasks (task outcome : String)
  | shutdownTimeouts
  deriving DecidableEq, Repr

inductive Signal where
  | log (line : LogLine)
  | add (metric : Metric) (amount : Int)
  | set (metric : Metric) (value : Int)
  deriving DecidableEq, Repr

namespace Signal

/-- A line of which the event name is the first detail. -/
def event (severity : Severity) (target name message : String)
    (details : List (String × String)) : Signal :=
  .log ⟨severity, target, message, ("event.name", Text.quoted name) :: details⟩

def count (metric : Metric) : Signal := .add metric 1

def line? : Signal → Option LogLine
  | .log l => some l
  | _ => none

end Signal
end FlowObserver
