import FlowObserver.Proofs.Ingest.Changes
import FlowObserver.Proofs.Ingest.Channel
import FlowObserver.Proofs.Ingest.Delays
import FlowObserver.Proofs.Ingest.Session

/-!
# When a run ends, and what time it takes

Reads take no time here, timers are exact, no shutdown is signalled, and the consumer stays. A run
ends at the first read that finds the event channel closed or is the last failure in a row that is
borne with. Time passes in the delays after failed reads, which double from one failure to the next,
and while an event is offered, and nowhere else.
-/

namespace FlowObserver

def Handoff.Offer.time : Handoff.Offer → Nat
  | placed time | timedOut time | closed time => time

/-- How long events are offered, each from the end of the offer before it. -/
def Handoff.blocked (timeout now : Nat) (h : Handoff) : List FlowEvent → Nat
  | [] => 0
  | e :: rest =>
    let done := h.offer e now (now + timeout)
    (done.1.time - now) + blocked timeout done.1.time done.2 rest

namespace Ingestion

def Read.isFailure (r : Read) : Bool :=
  match r.result with
  | .failed (.transient _) => true
  | _ => false

/-- A read that comes back at once, without a shutdown. -/
structure Read.Immediate (r : Read) : Prop where
  delay : r.delay = 0
  unsignalled : r.signalsShutdown = false
  returns : r.result ≠ .never

def inRow (failures : Nat) (reads : List Read) : Nat :=
  reads.foldl (fun failures r => if r.isFailure then failures + 1 else 0) failures

/-- Ingestion ends at a read that comes after so many failures in a row. -/
def EndsAt (limit failures : Nat) (r : Read) : Prop :=
  r.result = .failed .closed ∨ r.isFailure = true ∧ failures + 1 = max 1 limit

def GoesOn (limit failures : Nat) (reads : List Read) : Prop :=
  ∀ earlier r later, reads = earlier ++ r :: later → ¬EndsAt limit (inRow failures earlier) r

def delayAfter (settings : PipelineSettings) (failures : Nat) (r : Read) : Nat :=
  if r.isFailure then min (settings.backoffInitial.nanos * 2 ^ failures) settings.backoffMax.nanos
  else 0

def delays (settings : PipelineSettings) (failures : Nat) : List Read → Nat
  | [] => 0
  | r :: rest => delayAfter settings failures r + delays settings (inRow failures [r]) rest

def Read.events (index : Option WorkloadIndex) (r : Read) : List FlowEvent :=
  eventsOf (r.records.map (index, ·))

section

variable {limit failures : Nat} {r : Read} {reads later : List Read}

theorem goesOn_cons_iff :
    GoesOn limit failures (r :: reads) ↔
      ¬EndsAt limit failures r ∧ GoesOn limit (inRow failures [r]) reads := by
  constructor
  · intro h
    exact ⟨h [] r reads rfl, fun earlier q later hreads =>
      h (r :: earlier) q later (congrArg (r :: ·) hreads)⟩
  · rintro ⟨hr, hreads⟩ earlier q later hsplit
    cases earlier with
    | nil =>
      obtain ⟨rfl, -⟩ := List.cons.inj hsplit
      exact hr
    | cons first earlier =>
      obtain ⟨rfl, hrest⟩ := List.cons.inj hsplit
      exact hreads earlier q later hrest

theorem GoesOn.of_append (h : GoesOn limit failures (reads ++ later)) :
    GoesOn limit failures reads := by
  rintro earlier q rest rfl
  exact h earlier q (rest ++ later) (by simp)

end

namespace Session

variable (settings : PipelineSettings) (index : Option WorkloadIndex)

def blocked (s : Session) : List Read → Nat
  | [] => 0
  | r :: rest =>
    s.handoff.blocked settings.handoffTimeout.nanos s.now (r.events index) +
      (s.next settings index r).blocked rest

/-- Timers are exact, no shutdown is to come, the consumer stays, and so many failures in a row are
borne with. -/
structure Regular (settings : PipelineSettings) (failures : Nat) (s : Session) : Prop where
  backoff : s.ingestion.backoff =
    .failing settings.backoffInitial settings.backoffMax failures
  below : failures < max 1 settings.maxConsecutiveFailures
  exact : s.tick = 1
  unsignalled : s.shutdownAt = none
  stays : s.handoff.Stays
  bounded : s.handoff.Bounded

/-- A regular session that has dealt with these records. -/
structure Ready (settings : PipelineSettings) (index : Option WorkloadIndex) (failures : Nat)
    (records : List Bytes) (s : Session) : Prop extends Regular settings failures s where
  processed : Processed (records.map (index, ·)) s.ingestion
  inHand : s.ingestion.inHand = none

variable {settings index} {failures : Nat} {s : Session} {done : List Bytes}

theorem Regular.wakeTime_eq (hs : Regular settings failures s) (nanos : Nat) :
    s.wakeTime nanos = s.now + nanos := by
  rw [wakeTime, hs.exact, Nat.div_one, Nat.mul_one, Nat.add_sub_cancel]

theorem Regular.shutdownBy_eq (hs : Regular settings failures s) (time : Nat) :
    s.shutdownBy time = none := by
  rw [shutdownBy, hs.unsignalled]

/-- An offer to a consumer that stays ends with the event placed or given up. -/
theorem Regular.afterOffer (hs : Regular settings failures s)
    (hp : Processed (done.map (index, ·)) s.ingestion) (hhand : s.ingestion.inHand.isSome = true)
    {e : FlowEvent} {deadline : Nat} {offered : Handoff.Offer × Handoff}
    (hoffered : s.handoff.Outcome e s.now deadline offered) :
    ∃ later, s.afterOffer offered = (none, later) ∧ Ready settings index failures done later ∧
      s.now ≤ offered.1.time ∧ later.now = offered.1.time ∧ later.handoff = offered.2 := by
  cases hoffered with
  | @placed time later after hlapse htry =>
    obtain ⟨-, hroom, -, rfl⟩ := (Handoff.tryPlace_eq_placed_iff _ _ _ _ _).mp htry
    have hregular : Regular settings failures { s with
        now := time
        handoff := later.place e
        ingestion := s.ingestion.handedOff.value } :=
      ⟨hs.backoff, hs.below, hs.exact, hs.unsignalled, hlapse.stays hs.stays,
        later.bounded_place e hroom⟩
    exact ⟨_, rfl, ⟨hregular, hp.handedOff hhand, rfl⟩, hlapse.le, rfl, rfl⟩
  | @timedOut time later hlapse htry hlate =>
    have hregular : Regular settings failures { s with
        now := time
        handoff := later
        ingestion := s.ingestion.handoffTimedOut.value } :=
      ⟨hs.backoff, hs.below, hs.exact, hs.unsignalled, hlapse.stays hs.stays,
        hlapse.bounded hs.bounded⟩
    exact ⟨_, rfl, ⟨hregular, hp.handoffTimedOut hhand, rfl⟩, hlapse.le, rfl, rfl⟩
  | closed hlapse hgone =>
    rw [(hlapse.stays hs.stays).isGone_eq] at hgone
    cases hgone

theorem Ready.takeBatch (hs : Ready settings index failures done s) (records : List Bytes) :
    ∃ later, (Session.takeBatch settings index s records).value = (none, later) ∧
      Ready settings index failures (done ++ records) later ∧
      later.now = s.now + s.handoff.blocked settings.handoffTimeout.nanos s.now
        (eventsOf (records.map (index, ·))) := by
  induction records generalizing s done with
  | nil => exact ⟨s, rfl, by rwa [List.append_nil], rfl⟩
  | cons bytes rest ih =>
    have hp : Processed ((done ++ [bytes]).map (index, ·))
        (s.afterTaking index bytes).ingestion := by
      rw [List.map_append]
      exact hs.processed.takeRecord hs.inHand index bytes
    have hhand : (s.afterTaking index bytes).ingestion.inHand = eventOf index bytes := by
      rw [afterTaking, value_takeRecord, hs.inHand, Option.or_none]
    have hregular : Regular settings failures (s.afterTaking index bytes) := by
      refine ⟨?_, hs.below, hs.exact, hs.unsignalled, hs.stays, hs.bounded⟩
      rw [afterTaking, value_takeRecord]
      exact hs.backoff
    rw [value_takeBatch_cons, hs.shutdownBy_eq, Option.isSome_none, if_neg Bool.false_ne_true,
      List.map_cons, eventsOf_cons, List.append_cons, hhand]
    cases he : eventOf index bytes with
    | none => exact ih ⟨hregular, hp, hhand.trans he⟩
    | some e =>
      have hsome : (s.afterTaking index bytes).ingestion.inHand.isSome = true := by
        rw [hhand, he]
        rfl
      obtain ⟨middle, hoffer, hmiddle, hle, hnow, hhandoff⟩ :=
        hregular.afterOffer hp hsome (Handoff.outcome_offer hs.bounded e s.now
          (s.now + settings.handoffTimeout.nanos))
      obtain ⟨later, hbatch, hlater, hnow'⟩ := ih hmiddle
      dsimp only
      rw [value_handOff, hregular.wakeTime_eq, handoff_afterTaking, now_afterTaking, hoffer]
      refine ⟨later, hbatch, hlater, ?_⟩
      rw [now_afterTaking] at hle
      rw [hnow', hhandoff, hnow, Option.toList_some, List.singleton_append, Handoff.blocked,
        ← Nat.add_assoc, Nat.add_sub_cancel' hle]

def arrived (settings : PipelineSettings) (s : Session) (r : Read) : Session :=
  (s.awaitUntil settings.lossPollInterval.nanos s.now).value.arrive r

theorem Ready.value_read (hs : Ready settings index failures done s) {r : Read}
    (hr : r.Immediate) :
    (s.read settings index r).value =
      ((s.arrived settings r).takeResult settings index r.result).value := by
  rw [Session.value_read, hs.shutdownBy_eq, hs.wakeTime_eq, hr.delay, Nat.add_zero]
  rfl

/-- A poll of the loss counter changes nothing that matters here. -/
theorem Ready.arrived (hs : Ready settings index failures done s) {r : Read} (hr : r.Immediate) :
    Ready settings index failures done (s.arrived settings r) ∧
      (s.arrived settings r).now = s.now ∧ (s.arrived settings r).handoff = s.handoff := by
  have hsleep : s.sleepUntil s.now = s := if_neg (Nat.lt_irrefl _)
  have hpoll : Ready settings index failures done s.afterPoll := by
    have hsame := s.ingestion.sameRecords_pollLost (.ok s.counter)
    have hbackoff := s.ingestion.backoff_pollLost (.ok s.counter)
    exact ⟨⟨hbackoff.trans hs.backoff, hs.below, hs.exact, hs.unsignalled, hs.stays, hs.bounded⟩,
      hsame.processed hs.processed, hsame.inHand.trans hs.inHand⟩
  have harrive : ∀ later : Session, Ready settings index failures done later →
      Ready settings index failures done (later.arrive r) := by
    intro later hlater
    refine ⟨⟨hlater.backoff, hlater.below, hlater.exact, ?_, hlater.stays, hlater.bounded⟩,
      hlater.processed, hlater.inHand⟩
    rw [arrive, hr.unsignalled, Bool.false_and]
    exact hlater.unsignalled
  rw [Session.arrived, value_awaitUntil, hsleep]
  split_ifs
  · exact ⟨harrive s hs, rfl, rfl⟩
  · exact ⟨harrive _ hpoll, rfl, rfl⟩

theorem Ready.takeResult_batch (hs : Ready settings index failures done s)
    (records : List Bytes) :
    ∃ later, (s.takeResult settings index (.batch records)).value = (none, later) ∧
      Ready settings index 0 (done ++ records) later ∧
      later.now = s.now + s.handoff.blocked settings.handoffTimeout.nanos s.now
        (eventsOf (records.map (index, ·))) := by
  have hs' : Ready settings index 0 done { s with ingestion := s.ingestion.readSucceeded } := by
    refine ⟨⟨?_, by omega, hs.exact, hs.unsignalled, hs.stays, hs.bounded⟩,
      SameRecords.processed ⟨⟨_, rfl⟩, rfl⟩ hs.processed, hs.inHand⟩
    change s.ingestion.backoff.reset = _
    rw [hs.backoff, Backoff.reset_failing]
  obtain ⟨later, hbatch, hlater⟩ := hs'.takeBatch records
  refine ⟨later, ?_, hlater⟩
  rw [value_takeResult_batch, hbatch]

theorem Ready.value_readFailed (hs : Ready settings index failures done s) (e : ReadError) :
    (s.ingestion.readFailed settings.maxConsecutiveFailures e).value =
      (if settings.maxConsecutiveFailures ≤ min (failures + 1) Backoff.failureLimit then
          .error ⟨min (failures + 1) Backoff.failureLimit, e⟩
        else .ok (Backoff.failing settings.backoffInitial settings.backoffMax failures).current,
        { s.ingestion with
          backoff := .failing settings.backoffInitial settings.backoffMax (failures + 1) }) := by
  rw [Ingestion.value_readFailed, hs.backoff,
    ← Backoff.failures_failing settings.backoffInitial settings.backoffMax]
  rfl

theorem Ready.sleepUntil (hs : Ready settings index failures done s) (nanos : Nat) :
    Ready settings index failures done (s.sleepUntil (s.now + nanos)) ∧
      (s.sleepUntil (s.now + nanos)).now = s.now + nanos := by
  rw [Session.sleepUntil]
  split_ifs with hlt
  · exact ⟨⟨⟨hs.backoff, hs.below, hs.exact, hs.unsignalled, hs.stays.during _ _,
      hs.bounded.during _ _⟩, hs.processed, hs.inHand⟩, rfl⟩
  · exact ⟨hs, by omega⟩

theorem Ready.takeResult_transient (hs : Ready settings index failures done s) (details : String)
    (hbelow : failures + 1 < max 1 settings.maxConsecutiveFailures) :
    ∃ later, (s.takeResult settings index (.failed (.transient details))).value = (none, later) ∧
      Ready settings index (failures + 1) done later ∧
      later.now = s.now +
        min (settings.backoffInitial.nanos * 2 ^ failures) settings.backoffMax.nanos := by
  have hread := hs.value_readFailed (.transient details)
  rw [if_neg (by omega)] at hread
  have hs' : Ready settings index (failures + 1) done (s.afterFailure settings details) := by
    have hsame := s.ingestion.sameRecords_readFailed settings.maxConsecutiveFailures
      (.transient details)
    refine ⟨⟨?_, hbelow, hs.exact, hs.unsignalled, hs.stays, hs.bounded⟩,
      hsame.processed hs.processed, hsame.inHand.trans hs.inHand⟩
    rw [afterFailure, hread]
  rw [value_takeResult_transient, hread]
  dsimp only
  rw [afterDelay, hs'.shutdownBy_eq, hs'.wakeTime_eq, Backoff.nanos_current_failing]
  exact ⟨_, rfl, hs'.sleepUntil _⟩

/-- A read that does not end ingestion. -/
theorem Ready.read_goesOn (hs : Ready settings index failures done s) {r : Read}
    (hr : r.Immediate) (hgoes : ¬EndsAt settings.maxConsecutiveFailures failures r) :
    (s.read settings index r).value = (none, s.next settings index r) ∧
      Ready settings index (inRow failures [r]) (done ++ r.records) (s.next settings index r) ∧
      (s.next settings index r).now = s.now + delayAfter settings failures r +
        s.handoff.blocked settings.handoffTimeout.nanos s.now (r.events index) := by
  obtain ⟨harrived, hnow, hhandoff⟩ := hs.arrived hr
  suffices h : ∃ later, (s.read settings index r).value = (none, later) ∧
      Ready settings index (inRow failures [r]) (done ++ r.records) later ∧
      later.now = s.now + delayAfter settings failures r +
        s.handoff.blocked settings.handoffTimeout.nanos s.now (r.events index) by
    obtain ⟨later, hvalue, hlater⟩ := h
    rw [next, hvalue]
    exact ⟨rfl, hlater⟩
  rw [hs.value_read hr, ← hnow, ← hhandoff]
  obtain ⟨delay, counter, signals, result⟩ := r
  cases result with
  | never => exact absurd rfl hr.returns
  | batch records => exact harrived.takeResult_batch records
  | failed e =>
    cases e with
    | closed => exact absurd (.inl rfl) hgoes
    | transient details =>
      have hbelow : failures + 1 < max 1 settings.maxConsecutiveFailures :=
        Nat.lt_of_le_of_ne hs.below fun hlast => hgoes (.inr ⟨rfl, hlast⟩)
      obtain ⟨later, hvalue, hlater, hlaterNow⟩ := harrived.takeResult_transient details hbelow
      exact ⟨later, hvalue, by rwa [Read.records, List.append_nil], hlaterNow⟩

theorem Ready.follow (hs : Ready settings index failures done s) {reads : List Read}
    (himmediate : ∀ r ∈ reads, r.Immediate)
    (hgoes : GoesOn settings.maxConsecutiveFailures failures reads) :
    Ready settings index (inRow failures reads) (done ++ reads.flatMap Read.records)
        (s.follow settings index reads) ∧
      (s.follow settings index reads).now =
        s.now + delays settings failures reads + s.blocked settings index reads := by
  induction reads generalizing s failures done with
  | nil => exact ⟨by rwa [List.flatMap_nil, List.append_nil], rfl⟩
  | cons r rest ih =>
    obtain ⟨himmediate, himmediate'⟩ := List.forall_mem_cons.mp himmediate
    obtain ⟨hgoes, hgoes'⟩ := goesOn_cons_iff.mp hgoes
    obtain ⟨-, hnext, hnow⟩ := hs.read_goesOn himmediate hgoes
    obtain ⟨hfollow, hfollowNow⟩ := ih hnext himmediate' hgoes'
    refine ⟨?_, ?_⟩
    · rwa [List.flatMap_cons, ← List.append_assoc]
    · change ((s.next settings index r).follow settings index rest).now = _
      rw [hfollowNow, hnow, delays, blocked]
      omega

end Session

end Ingestion
end FlowObserver
