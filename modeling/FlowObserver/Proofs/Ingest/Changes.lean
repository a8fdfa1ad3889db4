import FlowObserver.Ingest.Basic
import Mathlib.Tactic

/-!
# What ingestion changes

Each operation of ingestion in an equation. A record is one of three: too short, with a verdict byte
that names no verdict, or an event. Nothing but taking a record and deciding on the event in hand
touches the counts of records.
-/

namespace FlowObserver
namespace Ingestion

def isTruncated (bytes : Bytes) : Bool :=
  match Flow.decode bytes with
  | .error (.truncated _) => true
  | _ => false

def isMalformed (bytes : Bytes) : Bool :=
  match Flow.decode bytes with
  | .error (.malformed _) => true
  | _ => false

def eventOf (index : Option WorkloadIndex) (bytes : Bytes) : Option FlowEvent :=
  match Flow.decode bytes with
  | .error _ => none
  | .ok flow => some ⟨flow, index.bind (·.lookup (.v4 flow.tuple.source)),
      index.bind (·.lookup (.v4 flow.tuple.destination))⟩

/-- The events of records, each with the workloads that are known when it is taken. -/
def eventsOf (records : List (Option WorkloadIndex × Bytes)) : List FlowEvent :=
  records.filterMap fun record => eventOf record.1 record.2

theorem eventsOf_cons (index : Option WorkloadIndex) (bytes : Bytes)
    (rest : List (Option WorkloadIndex × Bytes)) :
    eventsOf ((index, bytes) :: rest) = (eventOf index bytes).toList ++ eventsOf rest := by
  rw [eventsOf, List.filterMap_cons]
  cases eventOf index bytes <;> rfl

theorem eventsOf_concat (records : List (Option WorkloadIndex × Bytes))
    (index : Option WorkloadIndex) (bytes : Bytes) :
    eventsOf (records ++ [(index, bytes)]) = eventsOf records ++ (eventOf index bytes).toList := by
  rw [eventsOf, List.filterMap_append]
  exact congrArg _ ((eventsOf_cons index bytes []).trans (List.append_nil _))

theorem discarded_add_event_eq_one (index : Option WorkloadIndex) (bytes : Bytes) :
    (if isTruncated bytes then 1 else 0) + (if isMalformed bytes then 1 else 0) +
      (eventOf index bytes).toList.length = 1 := by
  unfold isTruncated isMalformed eventOf
  cases Flow.decode bytes with
  | error e => cases e <;> rfl
  | ok flow => rfl

theorem length_eq_discarded_add_events (records : List (Option WorkloadIndex × Bytes)) :
    records.length = records.countP (isTruncated ·.2) + records.countP (isMalformed ·.2) +
      (eventsOf records).length := by
  induction records with
  | nil => rfl
  | cons record rest ih =>
    have hone := discarded_add_event_eq_one record.1 record.2
    rw [List.length_cons, List.countP_cons, List.countP_cons, eventsOf_cons, List.length_append]
    omega

variable (x : Ingestion)

theorem value_resolve (index : Option WorkloadIndex) (address : UInt32) :
    (resolve index address).value = index.bind (·.lookup (.v4 address)) := by
  cases index <;> rfl

theorem value_takeRecord (index : Option WorkloadIndex) (bytes : Bytes) :
    (x.takeRecord index bytes).value =
      { x with
        stats := { x.stats with
          records := x.stats.records + 1
          truncated := x.stats.truncated + if isTruncated bytes then 1 else 0
          malformed := x.stats.malformed + if isMalformed bytes then 1 else 0 }
        inHand := (eventOf index bytes).or x.inHand } := by
  unfold takeRecord isTruncated isMalformed eventOf
  cases Flow.decode bytes with
  | error e => cases e <;> rfl
  | ok flow =>
    simp only [Told.value_bind, Told.value_pure, value_resolve]
    rfl

theorem value_readFailed (limit : Nat) (e : ReadError) :
    (x.readFailed limit e).value =
      (if limit ≤ x.backoff.fail.2.failures then .error ⟨x.backoff.fail.2.failures, e⟩
        else .ok x.backoff.fail.1, { x with backoff := x.backoff.fail.2 }) := by
  unfold readFailed
  dsimp only
  split_ifs <;> rfl

/-- Records play no part in the difference: it is in lost samples and delays only. -/
structure SameRecords (x y : Ingestion) : Prop where
  stats : ∃ lost, y.stats = { x.stats with lost }
  inHand : y.inHand = x.inHand

theorem SameRecords.refl : SameRecords x x := ⟨⟨x.stats.lost, rfl⟩, rfl⟩

theorem sameRecords_pollLost (reading : Except ReadError Nat) :
    SameRecords x (x.pollLost reading).value := by
  cases reading with
  | error e => exact SameRecords.refl x
  | ok total =>
    by_cases h : total - x.lastReading = 0
    · exact ⟨⟨x.stats.lost, by simp [pollLost, h]⟩, by simp [pollLost, h]⟩
    · exact ⟨⟨x.stats.lost + (total - x.lastReading), by simp [pollLost, h]⟩, by simp [pollLost, h]⟩

theorem sameRecords_stopped (reading : Except ReadError Nat) (exit : IngestExit) :
    SameRecords x (x.stopped reading exit).value :=
  x.sameRecords_pollLost reading

theorem sameRecords_readFailed (limit : Nat) (e : ReadError) :
    SameRecords x (x.readFailed limit e).value.2 := by
  rw [value_readFailed]
  exact ⟨⟨x.stats.lost, rfl⟩, rfl⟩

theorem backoff_pollLost (reading : Except ReadError Nat) :
    (x.pollLost reading).value.backoff = x.backoff := by
  cases reading with
  | error e => rfl
  | ok total => by_cases h : total - x.lastReading = 0 <;> simp [pollLost, h]

/-- These records have been taken, and all of their events but the one in hand decided on. -/
structure Processed (records : List (Option WorkloadIndex × Bytes)) (x : Ingestion) : Prop where
  counted : x.stats.records = records.length
  truncated : x.stats.truncated = records.countP (isTruncated ·.2)
  malformed : x.stats.malformed = records.countP (isMalformed ·.2)
  events : x.stats.handedOff + x.stats.handoffDropped + x.inHand.toList.length =
    (eventsOf records).length

variable {x} {y : Ingestion} {records : List (Option WorkloadIndex × Bytes)}

/-- A record is discarded, handed off, given up or in hand. -/
theorem Processed.balanced (hx : Processed records x) :
    x.stats.records = x.stats.truncated + x.stats.malformed + x.stats.handedOff +
      x.stats.handoffDropped + x.inHand.toList.length := by
  have htotal := length_eq_discarded_add_events records
  rw [← hx.counted, ← hx.truncated, ← hx.malformed, ← hx.events] at htotal
  omega

theorem SameRecords.processed (hxy : SameRecords x y) (hx : Processed records x) :
    Processed records y := by
  obtain ⟨⟨lost, hstats⟩, hhand⟩ := hxy
  constructor
  · rw [hstats, hx.counted]
  · rw [hstats, hx.truncated]
  · rw [hstats, hx.malformed]
  · rw [hstats, hhand, hx.events]

theorem Processed.takeRecord (hx : Processed records x) (hhand : x.inHand = none)
    (index : Option WorkloadIndex) (bytes : Bytes) :
    Processed (records ++ [(index, bytes)]) (x.takeRecord index bytes).value := by
  have hevents := hx.events
  rw [hhand] at hevents
  rw [value_takeRecord, hhand, Option.or_none]
  constructor
  · rw [List.length_append, ← hx.counted]
    rfl
  · rw [List.countP_append, ← hx.truncated, List.countP_singleton]
  · rw [List.countP_append, ← hx.malformed, List.countP_singleton]
  · rw [eventsOf_concat, List.length_append, ← hevents]
    rfl

theorem Processed.handedOff (hx : Processed records x) (hhand : x.inHand.isSome = true) :
    Processed records x.handedOff.value := by
  obtain ⟨e, he⟩ := Option.isSome_iff_exists.mp hhand
  have hevents := hx.events
  rw [he, Option.toList_some, List.length_singleton, Nat.add_right_comm] at hevents
  exact ⟨hx.counted, hx.truncated, hx.malformed, hevents⟩

theorem Processed.handoffTimedOut (hx : Processed records x) (hhand : x.inHand.isSome = true) :
    Processed records x.handoffTimedOut.value := by
  obtain ⟨e, he⟩ := Option.isSome_iff_exists.mp hhand
  have hevents := hx.events
  rw [he] at hevents
  exact ⟨hx.counted, hx.truncated, hx.malformed, hevents⟩

end Ingestion
end FlowObserver
