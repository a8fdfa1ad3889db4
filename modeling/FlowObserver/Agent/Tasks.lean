import FlowObserver.Telemetry.Told

/-!
# Background tasks

The tasks of the agent share one shutdown signal. A shutdown gives the signal, waits for every task
up to a limit, and cancels what is still running then. Times are counted since the tasks were
started, in milliseconds or in any finer unit.
-/

namespace FlowObserver

/-- When a task ends by itself. -/
inductive Lifetime where
  | fixed (time : Nat)
  /-- Some time after the shutdown signal. -/
  | untilSignal (delay : Nat)
  | endless
  deriving DecidableEq, Repr

structure AgentTask where
  name : String
  lifetime : Lifetime
  /-- Whether it ends in a panic. -/
  panics : Bool := false
  deriving DecidableEq, Repr

inductive TaskOutcome where
  | completed | panicked | cancelled
  deriving DecidableEq, Repr

def TaskOutcome.label : TaskOutcome → String
  | completed => "completed"
  | panicked => "panicked"
  | cancelled => "cancelled"

structure ShutdownReport where
  completed : Nat := 0
  cancelled : Nat := 0
  panicked : Nat := 0
  timedOut : Bool := false
  finished : Nat
  deriving DecidableEq, Repr

namespace AgentTask

def end? (signal : Nat) (t : AgentTask) : Option Nat :=
  match t.lifetime with
  | .fixed time => some time
  | .untilSignal delay => some (signal + delay)
  | .endless => none

def endsBefore (signal deadline : Nat) (t : AgentTask) : Bool :=
  match t.end? signal with
  | some time => time < deadline
  | none => false

def outcome (signal deadline : Nat) (t : AgentTask) : TaskOutcome :=
  if t.endsBefore signal deadline then if t.panics then .panicked else .completed
  else .cancelled

end AgentTask

def ShutdownReport.count (r : ShutdownReport) : TaskOutcome → ShutdownReport
  | .completed => { r with completed := r.completed + 1 }
  | .panicked => { r with panicked := r.panicked + 1 }
  | .cancelled => { r with cancelled := r.cancelled + 1 }

namespace TaskSet

def say (severity : Severity) (name message : String) (details : List (String × String)) : Signal :=
  .event severity "flowscope::runtime::tasks" name message details

def nameDetail (t : AgentTask) : String × String := ("task.name", t.name)

def spawned (t : AgentTask) : List Signal :=
  [.add (.activeTasks t.name) 1, say .debug "task.spawned" "task spawned" [nameDetail t]]

def finished (t : AgentTask) (o : TaskOutcome) : List Signal :=
  let line := match o with
    | .completed => say .debug "task.completed" "task completed" [nameDetail t]
    | .panicked => say .error "task.panic" "task panicked" [nameDetail t]
    | .cancelled => say .warn "task.cancelled" "task cancelled forcefully" [nameDetail t]
  [line, .add (.activeTasks t.name) (-1), .count (.finishedTasks t.name o.label)]

def record (r : ShutdownReport) (t : AgentTask) (o : TaskOutcome) : Told ShutdownReport := do
  tell (finished t o)
  return r.count o

def initiated (tasks : List AgentTask) : List Signal :=
  [say .info "tasks.shutdown_initiated" "broadcasting shutdown signal to all tasks"
    [("active_tasks", toString tasks.length)]]

/-- `millisecond` is how many units of time a millisecond has. -/
def expired (limit millisecond remaining : Nat) : List Signal :=
  [say .warn "tasks.shutdown_timeout" "graceful shutdown timed out, cancelling remaining tasks"
    [("timeout_ms", toString (limit / millisecond).toUInt64), ("remaining", toString remaining)],
   .count .shutdownTimeouts]

/-- Waits from time `called` for all tasks, at most for `limit`. Tasks are recorded in the order in
which they end; those that have ended before, and those that are cancelled, in the order of the
list. -/
def shutdown (tasks : List AgentTask) (signal called limit : Nat) (millisecond : Nat := 1) :
    Told ShutdownReport := do
  let deadline := called + limit
  tell (initiated tasks)
  let ending (t : AgentTask) : Nat := max called ((t.end? signal).getD deadline)
  let (ended, running) := tasks.partition (·.endsBefore signal deadline)
  let ended := ended.mergeSort fun a b => ending a ≤ ending b
  let report : ShutdownReport := { finished := ended.foldl (fun time t => max time (ending t)) called }
  let report ← ended.foldlM (fun r t => record r t (t.outcome signal deadline)) report
  if running.isEmpty then return report
  else
    tell (expired limit millisecond running.length)
    running.foldlM (fun r t => record r t .cancelled)
      { report with timedOut := true, finished := deadline }

/-- Starts the tasks, and shuts down at time `called`; the signal may have been given before. -/
def run (tasks : List AgentTask) (signal called limit : Nat) (millisecond : Nat := 1) :
    Told ShutdownReport := do
  tell (tasks.flatMap spawned)
  shutdown tasks signal called limit millisecond

end TaskSet
end FlowObserver
