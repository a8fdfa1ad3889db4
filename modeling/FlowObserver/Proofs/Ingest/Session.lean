import FlowObserver.Ingest.Session
import Mathlib.Tactic

/-!
# A session without what it tells

The functions of a session as plain functions on sessions: what is told on the way has no part in
where a session goes.
-/

namespace FlowObserver

namespace Ingestion

def Read.records (r : Read) : List Bytes :=
  match r.result with
  | .batch records => records
  | .failed _ | .never => []

namespace Session

variable (settings : PipelineSettings) (index : Option WorkloadIndex) (s : Session)

def afterTaking (bytes : Bytes) : Session :=
  { s with ingestion := (s.ingestion.takeRecord index bytes).value }

@[simp] theorem now_afterTaking (bytes : Bytes) : (s.afterTaking index bytes).now = s.now := rfl

@[simp] theorem handoff_afterTaking (bytes : Bytes) :
    (s.afterTaking index bytes).handoff = s.handoff := rfl

def afterStop (e : IngestExit) : Session :=
  { s with ingestion := (s.ingestion.stopped (.ok s.counter) e).value }

def afterPoll : Session :=
  { s with ingestion := (s.ingestion.pollLost (.ok s.counter)).value, polled := s.now }

theorem value_awaitUntil (interval time : Nat) :
    (s.awaitUntil interval time).value =
      if (s.sleepUntil time).polled / interval = (s.sleepUntil time).now / interval then
        s.sleepUntil time
      else (s.sleepUntil time).afterPoll := by
  unfold awaitUntil
  dsimp only
  split_ifs <;> rfl

def afterOffer (s : Session) : Handoff.Offer × Handoff → Option IngestExit × Session
  | (.placed now, handoff) =>
    (none, { s with now, handoff, ingestion := s.ingestion.handedOff.value })
  | (.timedOut now, handoff) =>
    (none, { s with now, handoff, ingestion := s.ingestion.handoffTimedOut.value })
  | (.closed now, handoff) => (some .handoffClosed, { s with now, handoff })

theorem value_handOff (e : FlowEvent) :
    (handOff settings s e).value =
      s.afterOffer (s.handoff.offer e s.now (s.wakeTime settings.handoffTimeout.nanos)) := by
  unfold handOff
  dsimp only
  generalize s.handoff.offer e s.now (s.wakeTime settings.handoffTimeout.nanos) = done
  obtain ⟨offer, handoff⟩ := done
  cases offer <;> rfl

theorem value_takeBatch_cons (bytes : Bytes) (rest : List Bytes) :
    (takeBatch settings index s (bytes :: rest)).value =
      if (s.shutdownBy s.now).isSome then (some .shutdown, s)
      else
        match (s.afterTaking index bytes).ingestion.inHand with
        | none => (takeBatch settings index (s.afterTaking index bytes) rest).value
        | some e =>
          match (handOff settings (s.afterTaking index bytes) e).value with
          | (some exit, s) => (some exit, s)
          | (none, s) => (takeBatch settings index s rest).value := by
  rw [takeBatch]
  split_ifs with h
  · rfl
  · rw [Told.value_bind]
    change (match (s.afterTaking index bytes).ingestion.inHand with
      | none => takeBatch settings index (s.afterTaking index bytes) rest
      | some e => do
        match ← handOff settings (s.afterTaking index bytes) e with
        | (some exit, s) => return (some exit, s)
        | (none, s) => takeBatch settings index s rest).value = _
    cases (s.afterTaking index bytes).ingestion.inHand with
    | none => rfl
    | some e =>
      dsimp only
      rw [Told.value_bind]
      rcases (handOff settings (s.afterTaking index bytes) e).value with ⟨exit, later⟩
      cases exit <;> rfl

theorem value_takeResult_batch (records : List Bytes) :
    (s.takeResult settings index (.batch records)).value =
      match (takeBatch settings index { s with ingestion := s.ingestion.readSucceeded }
          records).value with
      | (some e, s) => (some (.exit e), s.afterStop e)
      | (none, s) => (none, s) := by
  rw [takeResult, Told.value_bind]
  rcases (takeBatch settings index { s with ingestion := s.ingestion.readSucceeded }
    records).value with ⟨exit, later⟩
  cases exit <;> rfl

theorem value_takeResult_closed :
    (s.takeResult settings index (.failed .closed)).value =
      (some (.exit .channelClosed), s.afterStop .channelClosed) := rfl

def afterFailure (details : String) : Session :=
  { s with
    ingestion :=
      (s.ingestion.readFailed settings.maxConsecutiveFailures (.transient details)).value.2 }

/-- The session once a delay is over, or has been cut short by the shutdown. -/
def afterDelay (s : Session) (delay : Duration) : Option Ending × Session :=
  match s.shutdownBy (s.wakeTime delay.nanos) with
  | some time => (some (.exit .shutdown), (s.sleepUntil time).afterStop .shutdown)
  | none => (none, s.sleepUntil (s.wakeTime delay.nanos))

theorem value_takeResult_transient (details : String) :
    (s.takeResult settings index (.failed (.transient details))).value =
      match (s.ingestion.readFailed settings.maxConsecutiveFailures
          (.transient details)).value.1 with
      | .error f => (some (.failed f), s.afterFailure settings details)
      | .ok delay => (s.afterFailure settings details).afterDelay delay := by
  rw [takeResult, Told.value_bind]
  case x_1 => exact ReadError.noConfusion
  dsimp only
  cases (s.ingestion.readFailed settings.maxConsecutiveFailures (.transient details)).value.1 with
  | error f => rfl
  | ok delay =>
    unfold afterDelay afterFailure
    dsimp only
    split
    · rename_i time htime
      rw [htime]
      rfl
    · rename_i htime
      rw [htime]
      rfl

theorem value_takeResult_never :
    (s.takeResult settings index .never).value =
      match s.shutdownAt with
      | some time =>
        (some (.exit .shutdown),
          (s.awaitUntil settings.lossPollInterval.nanos (max time s.now)).value.afterStop .shutdown)
      | none => (some .stuck, s) := by
  rw [takeResult]
  cases s.shutdownAt <;> rfl

theorem value_read (r : Read) :
    (s.read settings index r).value =
      match s.shutdownBy (s.wakeTime r.delay) with
      | some time =>
        (some (.exit .shutdown),
          (s.awaitUntil settings.lossPollInterval.nanos time).value.afterStop .shutdown)
      | none =>
        (((s.awaitUntil settings.lossPollInterval.nanos (s.wakeTime r.delay)).value.arrive
          r).takeResult settings index r.result).value := by
  rw [read]
  cases s.shutdownBy (s.wakeTime r.delay) <;> rfl

def next (r : Read) : Session := (s.read settings index r).value.2

def follow (reads : List Read) : Session := reads.foldl (next settings index) s

theorem value_reads_nil :
    (s.reads settings index []).value =
      ((s.read settings index { result := .failed .closed }).value.1.getD .stuck,
        (s.read settings index { result := .failed .closed }).value.2) := rfl

theorem value_reads_cons (r : Read) (rest : List Read) :
    (s.reads settings index (r :: rest)).value =
      match (s.read settings index r).value with
      | (some ending, s) => (ending, s)
      | (none, s) => (s.reads settings index rest).value := by
  rw [reads, Told.value_bind]
  rcases (s.read settings index r).value with ⟨ending, later⟩
  cases ending <;> rfl

variable {settings index s}

def opening (settings : PipelineSettings) (handoff : Handoff) (shutdownAt : Option Nat)
    (tick : Nat) : Session where
  tick
  ingestion := .ofSettings settings.backoffInitial settings.backoffMax
  handoff
  shutdownAt

theorem run_eq (handoff : Handoff) (script : List Read) (shutdownAt : Option Nat) (tick : Nat) :
    Ingestion.run settings index handoff script shutdownAt tick =
      ⟨((opening settings handoff shutdownAt tick).reads settings index script).value,
        say .info "task.started" "ingestion loop started" [taskName] ::
          ((opening settings handoff shutdownAt tick).reads settings index script).signals⟩ := rfl

end Session
end Ingestion
end FlowObserver
