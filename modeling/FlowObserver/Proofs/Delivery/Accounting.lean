import FlowObserver.Proofs.Delivery.Clock
import Mathlib.Data.Bool.Count

/-!
# What reaches a subscriber

A subscription that is there before the first record receives the events of the records that its
filter accepts, in their order and each at most once. What it misses was given up because the
channel was full for too long, or dropped because its own queue was full; both are counted. It comes
to its end when, and only when, ingestion has ended and all that was handed over is published and
received.
-/

namespace FlowObserver
namespace Delivery

open Ingestion (source indices taken fates placedOf eventOf eventsOf)

/-- The events that were given up. -/
def lostOf (events : List FlowEvent) (fates : List Bool) : List FlowEvent :=
  ((events.zip fates).filter (!·.2)).map (·.1)

theorem length_filter_eq (accepts : FlowEvent → Bool) {events : List FlowEvent}
    {fates : List Bool} (h : events.length = fates.length) :
    (events.filter accepts).length = ((placedOf events fates).filter accepts).length +
      ((lostOf events fates).filter accepts).length := by
  induction events generalizing fates with
  | nil => rfl
  | cons e rest ih =>
    cases fates with
    | nil => cases h
    | cons placed fates =>
      have hrest := ih (Nat.succ.inj h)
      unfold placedOf lostOf at hrest ⊢
      cases placed <;> by_cases he : accepts e = true <;> simp [he] <;> omega

theorem exists_serves_of_closed {hub : Hub.Activity} (hsound : hub.Sound) {id : SubscriptionId}
    {filter : FlowFilter} {q : Queue} (hserves : hub.Serves id filter true q)
    (steps : List Hub.Step) (hheld : .release id ∉ steps) :
    ∃ later, (hub.run steps).Serves id filter true later ∧
      later.pending = q.pending.drop (steps.count (.receive id)) := by
  induction steps using List.reverseRecOn with
  | nil => exact ⟨q, hserves, rfl⟩
  | append_singleton steps s ih =>
    rw [List.mem_append, not_or, List.mem_singleton] at hheld
    obtain ⟨later, hlater, hpending⟩ := ih hheld.1
    refine ⟨_, Hub.Activity.run_concat hub steps s ▸
      hlater.step (hsound.run steps) s (Ne.symm hheld.2), ?_⟩
    rw [List.count_append, ← List.drop_drop, ← hpending]
    cases s with
    | receive other =>
      rw [Hub.Activity.react]
      by_cases hother : other = id
      · simp [hother]
      · simp [hother]
    | _ => simp [Hub.Activity.react]

theorem receive_eq_ended_iff {hub : Hub.Activity} {id : SubscriptionId} {filter : FlowFilter}
    {closed : Bool} {q : Queue} (hserves : hub.Serves id filter closed q) :
    (hub.hub.receive id).1 = .ended ↔ closed = true ∧ q.pending = [] := by
  obtain ⟨hheld, hregistered⟩ := hserves
  obtain ⟨capacity, pending, dropped⟩ := q
  rw [Hub.receive, hheld, Table.contains, hregistered]
  cases pending with
  | nil => cases closed <;> simp
  | cons e rest => simp

/-- The events of all records that were read, as far as the filter accepts them. -/
def wanted (index : Option WorkloadIndex) (filter : FlowFilter) (course : List Step) :
    List FlowEvent :=
  ((source (ingestCourse course)).filterMap (eventOf index)).filter filter.accepts

/-- Those that were given up because the channel had no room for them in time. -/
def timedOut (index : Option WorkloadIndex) (filter : FlowFilter) (course : List Step) :
    List FlowEvent :=
  (lostOf ((source (ingestCourse course)).filterMap (eventOf index))
    (fates (ingestCourse course))).filter filter.accepts

section

variable {settings : PipelineSettings} {index : Option WorkloadIndex} {capacity : Nat}
  {hub : Hub.Activity} {course : List Step} {x : Delivery}

theorem Run.accounts (hrun : Run settings index (initial settings capacity hub) course x) :
    Ingestion.Accounts (ingestCourse course) x.ingest :=
  (Ingestion.accounts_initial settings rfl).run hrun.ingest.1

theorem Run.accounted (hrun : Run settings index (initial settings capacity hub) course x) :
    Ingestion.Accounted (ingestCourse course) x.ingest :=
  hrun.accounts.accounted hrun.ingest.1 rfl

theorem Run.carries (hrun : Run settings index (initial settings capacity hub) course x) :
    Carries course x :=
  (carries_initial settings capacity hub).run hrun

theorem Run.placed_eq (hrun : Run settings index (initial settings capacity hub) course x) :
    x.ingest.channel.placed =
      published course ++ x.carried.toList ++ x.ingest.channel.queue := by
  rw [Handoff.placed, hrun.carries.taken]

theorem Run.published_sublist_wanted
    (hrun : Run settings index (initial settings capacity hub) course x) (filter : FlowFilter) :
    ((published course).filter filter.accepts).Sublist (wanted index filter course) := by
  have hplaced := hrun.accounted.ordered
  rw [hrun.placed_eq, List.append_assoc,
    Ingestion.eventsOf_taken hrun.accounts.indices_le hrun.ingest.2] at hplaced
  have htaken := (List.take_sublist (indices (ingestCourse course)).length
    (source (ingestCourse course))).filterMap (eventOf index)
  exact (((List.sublist_append_left _ _).trans hplaced).trans htaken).filter _

theorem Run.length_wanted (hrun : Run settings index (initial settings capacity hub) course x)
    (hfinished : x.finished = true) (filter : FlowFilter) :
    (wanted index filter course).length =
      ((published course).filter filter.accepts).length +
        (timedOut index filter course).length := by
  obtain ⟨hcarried, hqueue, hended⟩ := hrun.carries.finished hfinished
  have hstart : Ingestion.Undisturbed [] (.initial settings { capacity }) :=
    ⟨rfl, rfl, fun h => absurd h Bool.false_ne_true⟩
  have hcalm := hstart.run (Ingestion.accounts_initial settings rfl) hrun.ingest.1 hrun.ingest.2
  obtain ⟨hexhausted, hevent⟩ := hcalm.exhausted hended
  have hevents : eventsOf (taken (ingestCourse course)) =
      (source (ingestCourse course)).filterMap (eventOf index) := by
    rw [Ingestion.eventsOf_taken hrun.accounts.indices_le hrun.ingest.2,
      List.take_of_length_le hexhausted]
  have hdecided := hrun.accounted.decided
  have hplaced := hrun.accounted.placed
  rw [hrun.accounts.inHand, hevent, if_neg Bool.false_ne_true, Nat.add_zero, hevents] at hdecided
  rw [hrun.placed_eq, hcarried, hqueue, Option.toList_none, List.append_nil, List.append_nil,
    hevents] at hplaced
  rw [hplaced]
  exact length_filter_eq filter.accepts hdecided

theorem Run.handoffDropped_eq (hrun : Run settings index (initial settings capacity hub) course x) :
    x.ingest.ingestion.stats.handoffDropped = (fates (ingestCourse course)).count false := by
  have hdecided := hrun.accounted.decided
  have hevents := hrun.accounts.processed.events
  have hhanded := hrun.accounts.handedOff
  have hfates := (fates (ingestCourse course)).count_true_add_count_false
  cases hhand : x.ingest.ingestion.inHand with
  | none =>
    rw [hhand, Option.isSome_none, if_neg Bool.false_ne_true] at hdecided
    rw [hhand, Option.toList_none, List.length_nil] at hevents
    omega
  | some e =>
    rw [hhand, Option.isSome_some, if_pos rfl] at hdecided
    rw [hhand, Option.toList_some, List.length_singleton] at hevents
    omega

end

/-- What a subscription has got at some moment of a course, and what it still gets. -/
structure Delivered (hub : Hub.Activity) (index : Option WorkloadIndex) (course : List Step)
    (x : Delivery) (id : SubscriptionId) (filter : FlowFilter) (q : Queue) : Prop where
  held : x.hub.hub.held.find? id = some q
  ordered : (hub.received id (hubCourse course) ++ q.pending).Sublist (wanted index filter course)
  ended_iff : (x.hub.hub.receive id).1 = .ended ↔ x.finished = true ∧ q.pending = []
  counted : x.ingest.ingestion.stats.handoffDropped = (fates (ingestCourse course)).count false
  /-- At the end, what is missing was dropped here or given up on the way. -/
  balanced : (x.hub.hub.receive id).1 = .ended →
    (wanted index filter course).length = (hub.received id (hubCourse course)).length +
      (q.dropped + (timedOut index filter course).length)
  complete : (x.hub.hub.receive id).1 = .ended → q.dropped = 0 → timedOut index filter course = [] →
    hub.received id (hubCourse course) = wanted index filter course

section

variable {settings : PipelineSettings} {index : Option WorkloadIndex} {room : Nat}
  {before : List Hub.Step} {id : SubscriptionId} {course : List Step} {x : Delivery}

/-- A subscription that is there before the first record is served all along. -/
theorem exists_delivered (harriving : id ∈ (({} : Hub.Activity).run before).arriving)
    (hopen : .closeAll ∉ before) (filter : FlowFilter) (capacity : Nat) {hub : Hub.Activity}
    (hhub : hub = (({} : Hub.Activity).run before).step (.register id filter capacity))
    (hrun : Run settings index (initial settings room hub) course x)
    (hheld : .release id ∉ hubCourse course) :
    ∃ q, x.hub.Serves id filter x.finished q ∧ Delivered hub index course x id filter q := by
  have hclosed : (({} : Hub.Activity).run before).hub.closed = false :=
    Hub.Activity.closed_run {} before hopen
  obtain ⟨q, hserves, -, hordered, hbalanced, -⟩ := Hub.Activity.exists_serves_accounts
    (Hub.Activity.sound_start.run before) harriving hclosed filter capacity (hubCourse course) hheld
  have hlast : x.hub = hub.run (hubCourse course) := hrun.hub_eq
  have hclosing : decide (.closeAll ∈ hubCourse course) = x.finished := by
    rw [Bool.eq_iff_iff, decide_eq_true_iff, hrun.carries.closeAll_iff]
  rw [← hhub, ← hlast, hclosing] at hserves
  rw [← hhub, hrun.carries.meant] at hordered hbalanced
  have hended := receive_eq_ended_iff hserves
  have hsub := hordered.trans (hrun.published_sublist_wanted filter)
  have hmissed : (x.hub.hub.receive id).1 = .ended → (wanted index filter course).length =
      (hub.received id (hubCourse course)).length +
        (q.dropped + (timedOut index filter course).length) := by
    intro h
    obtain ⟨hfinished, hpending⟩ := hended.mp h
    rw [hpending, List.length_nil] at hbalanced
    rw [hrun.length_wanted hfinished filter, ← hbalanced]
    exact Nat.add_assoc _ _ _
  refine ⟨q, hserves, hserves.held, hsub, hended, hrun.handoffDropped_eq, hmissed, ?_⟩
  intro h hdropped htimedOut
  have hlength := hmissed h
  rw [hdropped, htimedOut] at hlength
  exact ((List.sublist_append_left _ _).trans hsub).eq_of_length hlength.symm

end

/-- Whatever is read and in whatever order all parties take their steps, a subscription that is
there before the first record gets the events that it wants in order, and misses those that are
counted. Once ingestion has ended, the publishing task is never stuck and ends after a fixed number
of steps of its own; from then on, a subscriber that receives as often as there are queued events
comes to the end. Each run on the clock that ends with its event channel, with all that it placed
being published afterwards, is one of these courses, and its source is everything that stands before
that end; so ends each run over batches whose consumer stays, if no shutdown is signalled. -/
theorem delivered_or_counted (settings : PipelineSettings) (index : Option WorkloadIndex)
    (room : Nat) (before : List Hub.Step) (id : SubscriptionId) (filter : FlowFilter)
    (capacity : Nat) (harriving : id ∈ (({} : Hub.Activity).run before).arriving)
    (hopen : .closeAll ∉ before) :
    let hub := (({} : Hub.Activity).run before).step (.register id filter capacity)
    let start := initial settings room hub
    (∀ course x, Run settings index start course x → .release id ∉ hubCourse course →
      ∃ q, Delivered hub index course x id filter q ∧
        (x.ingest.stage.isEnded = true → ∀ later y, Run settings index x later y →
          (y.finished = true ↔ later.countP Step.isPublishing = x.left) ∧
          (y.finished = false → ∃ s z, s.isPublishing = true ∧ Move settings index y s z)) ∧
        (x.finished = true → ∀ later y, Run settings index x later y →
          .release id ∉ hubCourse later →
          q.pending.length ≤ (hubCourse later).count (.receive id) →
          (y.hub.hub.receive id).1 = .ended)) ∧
    (∀ handoff script shutdownAt tick, handoff.placed = [] → handoff.capacity = room → 0 < tick →
      let done := (Ingestion.run settings index handoff script shutdownAt tick).value
      done.1 = .exit .channelClosed →
      ∃ course x, Run settings index start course x ∧ .release id ∉ hubCourse course ∧
        source (ingestCourse course) =
          (script.takeWhile fun r => !r.result.isFinal).flatMap Ingestion.Read.records ∧
        x.ingest.ingestion = done.2.ingestion ∧ x.finished = true ∧
        x.hub.hub = (hub.hub.distribute done.2.handoff.placed).value) ∧
    ∀ handoff script tick, handoff.placed = [] → handoff.Stays →
      (∀ r ∈ script, r.signalsShutdown = false ∧ ∃ records, r.result = .batch records) →
      (Ingestion.run settings index handoff script none tick).value.1 = .exit .channelClosed := by
  intro hub start
  have hsound : hub.Sound := (Hub.Activity.sound_start.run before).step _
  refine ⟨?_, ?_, ?_⟩
  · intro course x hrun hheld
    obtain ⟨q, hserves, hdelivered⟩ :=
      exists_delivered harriving hopen filter capacity rfl hrun hheld
    refine ⟨q, hdelivered, ?_, ?_⟩
    · intro hstage later y hlater
      obtain ⟨hstage', hleft⟩ := hlater.left_eq hstage
      refine ⟨?_, exists_publishing settings index hstage'⟩
      rw [← (hrun.append hlater).carries.left_eq_zero_iff]
      omega
    · intro hfinished later y hlater hkept hcount
      have hsoundx : x.hub.Sound := hrun.hub_eq ▸ hsound.run _
      rw [hfinished] at hserves
      obtain ⟨last, hlast, hpending⟩ :=
        exists_serves_of_closed hsoundx hserves (hubCourse later) hkept
      rw [← hlater.hub_eq] at hlast
      have hempty : last.pending = [] := hpending.trans (List.drop_eq_nil_iff.mpr hcount)
      exact (receive_eq_ended_iff hlast).mpr ⟨rfl, hempty⟩
  · rintro handoff script shutdownAt tick hfresh rfl htick done hdone
    obtain ⟨course, x, hrun, hsource, hingestion, hfinished, hhub, hcourse⟩ :=
      exists_course_of_distribute settings index hfresh hsound script shutdownAt htick hdone
    refine ⟨course, x, hrun, ?_, hsource, hingestion, hfinished, hhub⟩
    simp [hcourse]
  · intro handoff script tick hfresh hstays hbatches
    have hbounded : handoff.Bounded := by
      rw [Handoff.Bounded, (List.append_eq_nil_iff.mp hfresh).2]
      exact Nat.zero_le _
    exact Ingestion.ending_of_batches settings index hstays hbounded hbatches tick

def forwardedEvent : FlowEvent :=
  ⟨⟨⟨16777226, 33554442, 80, 81, 6⟩, .forwarded, 0, false⟩, none, none⟩

/-- Three events and a record that is cut off. The second event finds no room on the channel, and
the third none in the subscriber's queue. -/
def crowded : List Step :=
  [.ingest (.read (.ok [Ingestion.forwardedRecord, Ingestion.forwardedRecord,
      Ingestion.forwardedRecord, [10, 0, 0, 1]])),
    .ingest (.take none), .ingest .place, .ingest (.take none), .ingest (.pass 1000000000),
    .ingest .expire, .take, .publish forwardedEvent, .ingest (.take none), .ingest .place,
    .ingest (.take none), .ingest (.read (.error .closed)), .ingest (.stop (.ok 0)), .take,
    .publish forwardedEvent, .finish, .use (.receive 0)]

def crowdedScript : List Ingestion.Read :=
  [{ result := .batch [Ingestion.forwardedRecord, Ingestion.forwardedRecord] },
    { delay := 5, result := .batch [[10, 0, 0, 1]] }]

theorem delivered_or_counted_crowded :
    0 ∈ (({} : Hub.Activity).run [.allocate]).arriving ∧ .closeAll ∉ [Hub.Step.allocate] ∧
      .release 0 ∉ hubCourse crowded ∧
      let hub := (({} : Hub.Activity).run [.allocate]).step (.register 0 {} 1)
      ∃ x q, Run {} none (initial {} 1 hub) crowded x ∧ Delivered hub none crowded x 0 {} q ∧
        (x.hub.hub.receive 0).1 = .ended ∧
        wanted none {} crowded = [forwardedEvent, forwardedEvent, forwardedEvent] ∧
        timedOut none {} crowded = [forwardedEvent] ∧
        hub.received 0 (hubCourse crowded) = [forwardedEvent] ∧
        ∃ course y, Run {} none (initial {} 1 hub) course y ∧ y.finished = true ∧
          source (ingestCourse course) =
            [Ingestion.forwardedRecord, Ingestion.forwardedRecord, [10, 0, 0, 1]] := by
  have harriving : 0 ∈ (({} : Hub.Activity).run [.allocate]).arriving := by decide
  have hopen : .closeAll ∉ [Hub.Step.allocate] := by decide
  have hheld : .release 0 ∉ hubCourse crowded := by decide
  let hub := (({} : Hub.Activity).run [.allocate]).step (.register 0 {} 1)
  have hread : Run {} none (initial {} 1 hub) _ _ :=
    Run.nil.concat (.ingest (.batch [Ingestion.forwardedRecord, Ingestion.forwardedRecord,
      Ingestion.forwardedRecord, [10, 0, 0, 1]] rfl) trivial nofun)
  have hplaced := (hread.concat (.ingest (.start none rfl rfl rfl) rfl nofun)).concat
    (.ingest (.place rfl rfl rfl) trivial nofun)
  have hexpired := ((hplaced.concat (.ingest (.start none rfl rfl rfl) rfl nofun)).concat
    (.ingest (.pass 1000000000) trivial nofun)).concat
      (.ingest (.expire rfl rfl rfl (by decide)) trivial nofun)
  have hpublished := (hexpired.concat (.take rfl rfl rfl (.drain rfl))).concat
    (.publish (e := forwardedEvent) rfl)
  have hfilled := (hpublished.concat (.ingest (.start none rfl rfl rfl) rfl nofun)).concat
    (.ingest (.place rfl rfl rfl) trivial nofun)
  have hstopped := ((hfilled.concat (.ingest (.discard none rfl rfl rfl) rfl nofun)).concat
    (.ingest (.closed rfl) trivial nofun)).concat (.ingest (.stop (.ok 0) (.closing rfl)) trivial
      nofun)
  have hfinished := ((hstopped.concat (.take rfl rfl rfl (.drain rfl))).concat
    (.publish (e := forwardedEvent) rfl)).concat (.finish rfl rfl rfl rfl)
  have hrun : Run {} none (initial {} 1 hub) crowded _ :=
    hfinished.concat (.use (s := .receive 0) rfl nofun)
  obtain ⟨hcourses, hclock, hbatches⟩ :=
    delivered_or_counted {} none 1 [.allocate] 0 {} 1 harriving hopen
  obtain ⟨q, hdelivered, -⟩ := hcourses crowded _ hrun hheld
  have hending := hbatches { capacity := 1 } crowdedScript Ingestion.nanosPerMilli rfl trivial
    (by simp [crowdedScript])
  obtain ⟨course, y, hcourse, -, hsource, -, hfinished, -⟩ :=
    hclock { capacity := 1 } crowdedScript none Ingestion.nanosPerMilli rfl rfl (by decide) hending
  exact ⟨harriving, hopen, hheld, _, q, hrun, hdelivered, by decide, by decide, by decide,
    by decide, course, y, hcourse, hfinished, hsource⟩

end Delivery
end FlowObserver
