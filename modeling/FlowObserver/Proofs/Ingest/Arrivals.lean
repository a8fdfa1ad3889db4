import FlowObserver.Proofs.Ingest.Changes
import FlowObserver.Proofs.Ingest.Channel
import FlowObserver.Proofs.Ingest.Session

/-!
# Which reads a run takes

A run takes the reads of its script in order, and its ending says which was the last: the one that
found the channel closed, that failed once too often, that never comes back, or whose batch was
refused by the consumer; all of them, if the script is at its end; or those before the shutdown. What
a read that is taken brings is all that the loss counter shows.
-/

namespace FlowObserver
namespace Ingestion

namespace ReadResult

/-- After it nothing else is read, whatever the settings are. -/
def isFinal : ReadResult → Bool
  | failed .closed | never => true
  | batch _ | failed (.transient _) => false

/-- A read with this result can be the last one of a run that ends so. -/
inductive Ends : ReadResult → Ending → Prop where
  | closed : Ends (.failed .closed) (.exit .channelClosed)
  | failed (details : String) (failures : Nat) :
    Ends (.failed (.transient details)) (.failed ⟨failures, .transient details⟩)
  | refused (records : List Bytes) : Ends (.batch records) (.exit .handoffClosed)
  | stuck : Ends .never .stuck
  | shutdown {result : ReadResult} (h : result ≠ .failed .closed) : Ends result (.exit .shutdown)

end ReadResult

/-- The reads of a script that a run takes which ends so. -/
inductive Takes : List Read → List Read → Ending → Prop where
  /-- After the last read the channel is closed. -/
  | all : Takes [] [] (.exit .channelClosed)
  | next {r : Read} {rest taken : List Read} {ending : Ending} (hr : r.result.isFinal = false)
    (hrest : Takes rest taken ending) : Takes (r :: rest) (r :: taken) ending
  | last {r : Read} {rest : List Read} {ending : Ending} (hr : r.result.Ends ending) :
    Takes (r :: rest) [r] ending
  | shutdown {rest : List Read} : Takes rest [] (.exit .shutdown)

namespace Takes

variable {script taken : List Read} {ending : Ending}

/-- Up to the end of the channel everything has been read. -/
theorem records_of_closed (h : Takes script taken ending) (hending : ending = .exit .channelClosed) :
    taken.flatMap Read.records =
      (script.takeWhile fun r => !r.result.isFinal).flatMap Read.records := by
  induction h with
  | all => rfl
  | @next r rest taken ending hr _ ih =>
    rw [List.takeWhile_cons, hr, List.flatMap_cons, ih hending]
    rfl
  | @last r rest ending hr =>
    subst hending
    have hclosed : r.result = .failed .closed := by
      generalize r.result = result at hr
      cases hr
      rfl
    simp [hclosed, ReadResult.isFinal, Read.records]
  | shutdown => cases hending

theorem isPrefix (h : Takes script taken ending) : taken <+: script := by
  induction h with
  | all => exact List.prefix_rfl
  | next _ _ ih => exact (List.prefix_cons_inj _).mpr ih
  | last => exact (List.prefix_cons_inj _).mpr List.nil_prefix
  | shutdown => exact List.nil_prefix

/-- A script of batches is read to its end, unless the shutdown or the consumer is in the way. -/
theorem ending_of_batches (h : Takes script taken ending)
    (hbatches : ∀ r ∈ script, ∃ records, r.result = .batch records)
    (hrefused : ending ≠ .exit .handoffClosed) (hshutdown : ending ≠ .exit .shutdown) :
    ending = .exit .channelClosed := by
  induction h with
  | all => rfl
  | next _ _ ih =>
    exact ih (fun r hr => hbatches r (List.mem_cons_of_mem _ hr)) hrefused hshutdown
  | @last r rest ending hr =>
    obtain ⟨records, hresult⟩ := hbatches r List.mem_cons_self
    rw [hresult] at hr
    cases hr with
    | refused => exact absurd rfl hrefused
    | shutdown => exact absurd rfl hshutdown
  | shutdown => exact absurd rfl hshutdown

end Takes

namespace Session

variable {settings : PipelineSettings} {index : Option WorkloadIndex}

/-- A shutdown that has been signalled by now. -/
def ShutDown (s : Session) : Prop := ∃ time, s.shutdownAt = some time ∧ time ≤ s.now

/-- What a session keeps while it only deals with what it has read. -/
structure Steady (s later : Session) : Prop where
  counter : later.counter = s.counter
  shutdownAt : later.shutdownAt = s.shutdownAt

section

variable {s later last : Session}

theorem Steady.refl (s : Session) : Steady s s := ⟨rfl, rfl⟩

theorem Steady.trans (h : Steady s later) (hlater : Steady later last) : Steady s last :=
  ⟨hlater.counter.trans h.counter, hlater.shutdownAt.trans h.shutdownAt⟩

theorem steady_sleepUntil (s : Session) (time : Nat) : Steady s (s.sleepUntil time) := by
  unfold sleepUntil
  split_ifs <;> exact ⟨rfl, rfl⟩

theorem le_now_sleepUntil (s : Session) (time : Nat) : time ≤ (s.sleepUntil time).now := by
  unfold sleepUntil
  split_ifs with hlt
  · exact Nat.le_refl time
  · exact Nat.le_of_not_lt hlt

theorem steady_awaitUntil (s : Session) (interval time : Nat) :
    Steady s (s.awaitUntil interval time).value ∧ time ≤ (s.awaitUntil interval time).value.now := by
  have hslept := s.steady_sleepUntil time
  have hnow := s.le_now_sleepUntil time
  rw [value_awaitUntil]
  split_ifs
  · exact ⟨hslept, hnow⟩
  · exact ⟨⟨hslept.counter, hslept.shutdownAt⟩, hnow⟩

theorem shutdownBy_eq_some_iff {time wake : Nat} :
    s.shutdownBy time = some wake ↔
      ∃ due, s.shutdownAt = some due ∧ due ≤ time ∧ wake = max due s.now := by
  unfold shutdownBy
  cases s.shutdownAt with
  | none => simp
  | some due =>
    dsimp only
    split_ifs with hle
    · simp [hle, eq_comm]
    · simp [hle]

theorem steady_afterOffer (s : Session) (done : Handoff.Offer × Handoff) :
    Steady s (s.afterOffer done).2 := by
  obtain ⟨offer, handoff⟩ := done
  cases offer <;> exact ⟨rfl, rfl⟩

variable (settings index) in
theorem steady_takeBatch (s : Session) (records : List Bytes) :
    let done := (takeBatch settings index s records).value
    Steady s done.2 ∧ (done.1 = some .shutdown → done.2.ShutDown) ∧
      done.1 ≠ some .channelClosed := by
  induction records generalizing s with
  | nil => exact ⟨.refl s, nofun, nofun⟩
  | cons bytes rest ih =>
    rw [value_takeBatch_cons]
    split_ifs with hshutdown
    · obtain ⟨wake, hwake⟩ := Option.isSome_iff_exists.mp hshutdown
      obtain ⟨due, hdue, hle, -⟩ := shutdownBy_eq_some_iff.mp hwake
      exact ⟨.refl s, fun _ => ⟨due, hdue, hle⟩, nofun⟩
    · have htaken : Steady s (s.afterTaking index bytes) := ⟨rfl, rfl⟩
      cases (s.afterTaking index bytes).ingestion.inHand with
      | none =>
        obtain ⟨hrest, hends⟩ := ih (s.afterTaking index bytes)
        exact ⟨htaken.trans hrest, hends⟩
      | some e =>
        dsimp only
        rw [value_handOff]
        generalize (s.afterTaking index bytes).handoff.offer _ _ _ = done
        have hoffered := htaken.trans (steady_afterOffer (s.afterTaking index bytes) done)
        obtain ⟨offer, handoff⟩ := done
        cases offer with
        | closed now => exact ⟨hoffered, nofun, nofun⟩
        | placed now | timedOut now =>
          obtain ⟨hrest, hends⟩ := ih _
          exact ⟨hoffered.trans hrest, hends⟩

/-- What a result that a session has come to leads to. -/
structure Dealt (s : Session) (result : ReadResult) (done : Option Ending × Session) : Prop where
  steady : Steady s done.2
  goesOn : done.1 = none → result.isFinal = false
  ends : ∀ ending, done.1 = some ending → result.Ends ending
  shutDown : done.1 = some (.exit .shutdown) → done.2.ShutDown
  stuck : done.1 = some .stuck → s.shutdownAt = none

theorem dealt_afterDelay {result : ReadResult} (hresult : result.isFinal = false)
    (hsteady : Steady s later) (delay : Duration) : Dealt s result (later.afterDelay delay) := by
  unfold afterDelay
  cases hwake : later.shutdownBy (later.wakeTime delay.nanos) with
  | none =>
    exact ⟨hsteady.trans (steady_sleepUntil _ _), fun _ => hresult, nofun, nofun, nofun⟩
  | some wake =>
    obtain ⟨due, hdue, -, rfl⟩ := shutdownBy_eq_some_iff.mp hwake
    have hslept := hsteady.trans (later.steady_sleepUntil (max due later.now))
    have hnow := later.le_now_sleepUntil (max due later.now)
    refine ⟨⟨hslept.counter, hslept.shutdownAt⟩, nofun, ?_, fun _ => ?_, nofun⟩
    · rintro ending ⟨⟩
      refine .shutdown fun h => ?_
      rw [h] at hresult
      cases hresult
    · exact ⟨due, (later.steady_sleepUntil _).shutdownAt.trans hdue, (le_max_left _ _).trans hnow⟩

variable (settings index) in
theorem dealt_takeResult (s : Session) (result : ReadResult) :
    Dealt s result (s.takeResult settings index result).value := by
  cases result with
  | batch records =>
    have hbatch := steady_takeBatch settings index { s with ingestion := s.ingestion.readSucceeded }
      records
    rw [value_takeResult_batch]
    generalize (takeBatch settings index _ records).value = done at hbatch ⊢
    obtain ⟨exit, later⟩ := done
    obtain ⟨hsteady, hshutdown, hopen⟩ := hbatch
    cases exit with
    | none => exact ⟨⟨hsteady.counter, hsteady.shutdownAt⟩, fun _ => rfl, nofun, nofun, nofun⟩
    | some exit =>
      refine ⟨⟨hsteady.counter, hsteady.shutdownAt⟩, nofun, ?_, ?_, nofun⟩
      · rintro ending ⟨⟩
        cases exit with
        | shutdown => exact .shutdown nofun
        | channelClosed => exact absurd rfl hopen
        | handoffClosed => exact .refused records
      · rintro ⟨⟩
        exact hshutdown rfl
  | failed e =>
    cases e with
    | closed =>
      rw [value_takeResult_closed]
      refine ⟨⟨rfl, rfl⟩, nofun, ?_, nofun, nofun⟩
      rintro ending ⟨⟩
      exact .closed
    | transient details =>
      have hfailed : Steady s (s.afterFailure settings details) := ⟨rfl, rfl⟩
      have hvalue := Ingestion.value_readFailed s.ingestion settings.maxConsecutiveFailures
        (.transient details)
      rw [value_takeResult_transient]
      cases hnext : (s.ingestion.readFailed settings.maxConsecutiveFailures
          (.transient details)).value.1 with
      | error failure =>
        refine ⟨hfailed, nofun, ?_, nofun, nofun⟩
        rintro ending ⟨⟩
        rw [hvalue] at hnext
        dsimp only at hnext
        split_ifs at hnext
        rw [← Except.error.inj hnext]
        exact .failed details _
      | ok delay => exact dealt_afterDelay rfl hfailed delay
  | never =>
    rw [value_takeResult_never]
    cases htime : s.shutdownAt with
    | none =>
      refine ⟨.refl s, nofun, ?_, nofun, fun _ => htime⟩
      rintro ending ⟨⟩
      exact .stuck
    | some time =>
      obtain ⟨hsteady, hnow⟩ :=
        s.steady_awaitUntil settings.lossPollInterval.nanos (max time s.now)
      refine ⟨⟨hsteady.counter, hsteady.shutdownAt⟩, nofun, ?_, fun _ => ?_, nofun⟩
      · rintro ending ⟨⟩
        exact .shutdown nofun
      · exact ⟨time, hsteady.shutdownAt.trans htime, (le_max_left _ _).trans hnow⟩

/-- Whether a read is taken, before any shutdown. -/
def receives (s : Session) (r : Read) : Bool := (s.shutdownBy (s.wakeTime r.delay)).isNone

/-- The reads that a session takes. -/
def takenReads (settings : PipelineSettings) (index : Option WorkloadIndex) (s : Session) :
    List Read → List Read
  | [] => []
  | r :: rest =>
    if s.receives r then
      if (s.read settings index r).value.1.isSome then [r]
      else r :: takenReads settings index (s.next settings index r) rest
    else []

/-- These are the reads that a session took before it came to its end, and no more. -/
structure Took (s : Session) (script taken : List Read) (done : Ending × Session) : Prop where
  takes : Takes script taken done.1
  counter : done.2.counter = (taken.filterMap Read.counter).getLastD s.counter
  /-- There is no shutdown before it is signalled. -/
  due : done.1 = .exit .shutdown →
    (∃ time, s.shutdownAt = some time ∧ time ≤ done.2.now) ∨
      ∃ r ∈ taken, r.signalsShutdown = true
  unsignalled : done.1 = .stuck → s.shutdownAt = none ∧ ∀ r ∈ taken, r.signalsShutdown = false

theorem shutdownAt_arrive (s : Session) (r : Read) :
    (s.arrive r).shutdownAt = s.shutdownAt ∨ r.signalsShutdown = true := by
  unfold arrive
  cases r.signalsShutdown with
  | false => exact .inl rfl
  | true => exact .inr rfl

theorem unsignalled_of_arrive {r : Read} (h : (s.arrive r).shutdownAt = none) :
    s.shutdownAt = none ∧ r.signalsShutdown = false := by
  unfold arrive at h
  dsimp only at h
  split_ifs at h with hsignal
  rw [Bool.and_eq_true, not_and] at hsignal
  refine ⟨h, Bool.eq_false_iff.mpr fun hr => hsignal hr ?_⟩
  rw [shutdownBy, h]
  rfl

variable (settings index) in
theorem read_of_not_receives {r : Read} (hr : s.receives r = false) :
    ∃ last, (s.read settings index r).value = (some (.exit .shutdown), last) ∧ Steady s last ∧
      last.ShutDown := by
  rw [receives, Option.isNone_eq_false_iff] at hr
  obtain ⟨wake, hwake⟩ := Option.isSome_iff_exists.mp hr
  obtain ⟨due, hdue, -, rfl⟩ := shutdownBy_eq_some_iff.mp hwake
  rw [value_read, hwake]
  obtain ⟨hsteady, hnow⟩ := s.steady_awaitUntil settings.lossPollInterval.nanos (max due s.now)
  exact ⟨_, rfl, ⟨hsteady.counter, hsteady.shutdownAt⟩,
    due, hsteady.shutdownAt.trans hdue, (le_max_left _ _).trans hnow⟩

variable (settings index) in
theorem read_of_receives {r : Read} (hr : s.receives r = true) :
    ∃ waited, Steady s waited ∧
      Dealt (waited.arrive r) r.result (s.read settings index r).value := by
  rw [receives, Option.isNone_iff_eq_none] at hr
  rw [value_read, hr]
  exact ⟨_, (s.steady_awaitUntil _ _).1, dealt_takeResult settings index _ _⟩

theorem Took.of_shutDown {script : List Read} (hlast : Steady s last) (hdown : last.ShutDown) :
    s.Took script [] (.exit .shutdown, last) := by
  obtain ⟨time, htime, hnow⟩ := hdown
  exact ⟨.shutdown, hlast.counter, fun _ => .inl ⟨time, hlast.shutdownAt.symm.trans htime, hnow⟩,
    nofun⟩

theorem Took.of_ends {waited : Session} {r : Read} {ending : Ending} (hwaited : Steady s waited)
    (hdealt : Dealt (waited.arrive r) r.result (some ending, last)) (rest : List Read) :
    s.Took (r :: rest) [r] (ending, last) := by
  refine ⟨.last (hdealt.ends _ rfl), ?_, ?_, ?_⟩
  · rw [hdealt.steady.counter, ← hwaited.counter]
    cases hr : r.counter <;> simp [arrive, hr]
  · rintro ⟨⟩
    obtain ⟨time, htime, hnow⟩ := hdealt.shutDown rfl
    rcases waited.shutdownAt_arrive r with harrive | hsignal
    · left
      refine ⟨time, ?_, hnow⟩
      rw [← hwaited.shutdownAt, ← harrive, ← hdealt.steady.shutdownAt, htime]
    · exact .inr ⟨r, List.mem_singleton_self r, hsignal⟩
  · rintro ⟨⟩
    obtain ⟨hnone, hr⟩ := unsignalled_of_arrive (hdealt.stuck rfl)
    exact ⟨hwaited.shutdownAt ▸ hnone, List.forall_mem_singleton.mpr hr⟩

theorem Took.cons {waited : Session} {r : Read} {rest taken : List Read}
    {done : Ending × Session} (hwaited : Steady s waited)
    (hdealt : Dealt (waited.arrive r) r.result (none, later)) (hrest : later.Took rest taken done) :
    s.Took (r :: rest) (r :: taken) done := by
  refine ⟨.next (hdealt.goesOn rfl) hrest.takes, ?_, ?_, ?_⟩
  · rw [hrest.counter, hdealt.steady.counter, List.filterMap_cons]
    change (taken.filterMap Read.counter).getLastD (r.counter.getD waited.counter) = _
    rw [hwaited.counter]
    cases r.counter with
    | none => rfl
    | some total => exact List.getLastD_cons.symm
  · intro hshutdown
    rcases hrest.due hshutdown with ⟨time, htime, hnow⟩ | ⟨q, hq, hsignal⟩
    · rcases waited.shutdownAt_arrive r with harrive | hsignal
      · left
        refine ⟨time, ?_, hnow⟩
        rw [← hwaited.shutdownAt, ← harrive, ← hdealt.steady.shutdownAt, htime]
      · exact .inr ⟨r, List.mem_cons_self, hsignal⟩
    · exact .inr ⟨q, List.mem_cons_of_mem _ hq, hsignal⟩
  · intro hstuck
    obtain ⟨hnone, htaken⟩ := hrest.unsignalled hstuck
    obtain ⟨hnone, hr⟩ := unsignalled_of_arrive (hdealt.steady.shutdownAt.symm.trans hnone)
    exact ⟨hwaited.shutdownAt ▸ hnone, List.forall_mem_cons.mpr ⟨hr, htaken⟩⟩

variable (settings index) in
theorem took_reads (s : Session) (script : List Read) :
    s.Took script (takenReads settings index s script) (s.reads settings index script).value := by
  induction script generalizing s with
  | nil =>
    rw [value_reads_nil]
    cases hreceives : s.receives { result := .failed .closed } with
    | false =>
      obtain ⟨last, hvalue, hlast, hdown⟩ := read_of_not_receives settings index hreceives
      rw [hvalue]
      exact .of_shutDown hlast hdown
    | true =>
      obtain ⟨waited, hwaited, hdealt⟩ := read_of_receives settings index hreceives
      generalize (s.read settings index { result := .failed .closed }).value = done at hdealt ⊢
      obtain ⟨ending, last⟩ := done
      cases ending with
      | none => cases hdealt.goesOn rfl
      | some ending =>
        cases hdealt.ends ending rfl with
        | closed => exact ⟨.all, hdealt.steady.counter.trans hwaited.counter, nofun, nofun⟩
        | shutdown h => exact absurd rfl h
  | cons r rest ih =>
    rw [value_reads_cons, takenReads]
    cases hreceives : s.receives r with
    | false =>
      obtain ⟨last, hvalue, hlast, hdown⟩ := read_of_not_receives settings index hreceives
      rw [hvalue]
      exact .of_shutDown hlast hdown
    | true =>
      obtain ⟨waited, hwaited, hdealt⟩ := read_of_receives settings index hreceives
      rw [if_pos rfl, next]
      generalize (s.read settings index r).value = done at hdealt ⊢
      obtain ⟨ending, later⟩ := done
      cases ending with
      | none => exact .cons hwaited hdealt (ih later)
      | some ending => exact .of_ends hwaited hdealt rest

/-- The consumer never leaves, and the channel is not overfull. -/
structure Attended (s : Session) : Prop where
  stays : s.handoff.Stays
  bounded : s.handoff.Bounded

theorem Attended.sleepUntil (hs : s.Attended) (time : Nat) : (s.sleepUntil time).Attended := by
  unfold Session.sleepUntil
  split_ifs
  · exact ⟨hs.stays.during _ _, hs.bounded.during _ _⟩
  · exact hs

theorem Attended.awaitUntil (hs : s.Attended) (interval time : Nat) :
    (s.awaitUntil interval time).value.Attended := by
  have hslept := hs.sleepUntil time
  rw [value_awaitUntil]
  split_ifs
  · exact hslept
  · exact ⟨hslept.stays, hslept.bounded⟩

theorem Attended.afterOffer (hs : s.Attended) {e : FlowEvent} {now deadline : Nat}
    {done : Handoff.Offer × Handoff} (hdone : s.handoff.Outcome e now deadline done) :
    ∃ later, s.afterOffer done = (none, later) ∧ later.Attended := by
  cases hdone with
  | @placed time later after hlapse htry =>
    obtain ⟨-, hroom, -, rfl⟩ := (Handoff.tryPlace_eq_placed_iff _ _ _ _ _).mp htry
    exact ⟨_, rfl, hlapse.stays hs.stays, later.bounded_place e hroom⟩
  | timedOut hlapse => exact ⟨_, rfl, hlapse.stays hs.stays, hlapse.bounded hs.bounded⟩
  | closed hlapse hgone =>
    rw [(hlapse.stays hs.stays).isGone_eq] at hgone
    cases hgone

variable (settings index) in
theorem Attended.takeBatch (hs : s.Attended) (records : List Bytes) :
    let done := (takeBatch settings index s records).value
    done.1 ≠ some .handoffClosed ∧ done.2.Attended := by
  induction records generalizing s with
  | nil => exact ⟨nofun, hs⟩
  | cons bytes rest ih =>
    rw [value_takeBatch_cons]
    split_ifs
    · exact ⟨nofun, hs⟩
    · have htaken : (s.afterTaking index bytes).Attended := ⟨hs.stays, hs.bounded⟩
      cases (s.afterTaking index bytes).ingestion.inHand with
      | none => exact ih htaken
      | some e =>
        dsimp only
        rw [value_handOff]
        obtain ⟨later, hvalue, hlater⟩ := htaken.afterOffer
          (Handoff.outcome_offer htaken.bounded e (s.afterTaking index bytes).now
            ((s.afterTaking index bytes).wakeTime settings.handoffTimeout.nanos))
        rw [hvalue]
        exact ih hlater

variable (settings index) in
theorem Attended.takeResult (hs : s.Attended) (result : ReadResult) :
    let done := (s.takeResult settings index result).value
    done.1 ≠ some (.exit .handoffClosed) ∧ done.2.Attended := by
  cases result with
  | batch records =>
    have hread : Attended { s with ingestion := s.ingestion.readSucceeded } :=
      ⟨hs.stays, hs.bounded⟩
    have hbatch := hread.takeBatch settings index records
    rw [value_takeResult_batch]
    generalize (Session.takeBatch settings index _ records).value = done at hbatch ⊢
    obtain ⟨exit, later⟩ := done
    obtain ⟨hopen, hlater⟩ := hbatch
    cases exit with
    | none => exact ⟨nofun, hlater⟩
    | some exit =>
      refine ⟨?_, hlater.stays, hlater.bounded⟩
      rintro ⟨⟩
      exact hopen rfl
  | failed e =>
    cases e with
    | closed => exact ⟨nofun, hs.stays, hs.bounded⟩
    | transient details =>
      have hfailed : (s.afterFailure settings details).Attended := ⟨hs.stays, hs.bounded⟩
      rw [value_takeResult_transient]
      cases (s.ingestion.readFailed settings.maxConsecutiveFailures
          (.transient details)).value.1 with
      | error failure => exact ⟨nofun, hfailed⟩
      | ok delay =>
        dsimp only
        unfold afterDelay
        split
        · have hslept := hfailed.sleepUntil
          exact ⟨nofun, (hslept _).stays, (hslept _).bounded⟩
        · exact ⟨nofun, hfailed.sleepUntil _⟩
  | never =>
    rw [value_takeResult_never]
    cases s.shutdownAt with
    | none => exact ⟨nofun, hs⟩
    | some time =>
      have hwaited := hs.awaitUntil settings.lossPollInterval.nanos (max time s.now)
      exact ⟨nofun, hwaited.stays, hwaited.bounded⟩

variable (settings index) in
theorem Attended.read (hs : s.Attended) (r : Read) :
    let done := (s.read settings index r).value
    done.1 ≠ some (.exit .handoffClosed) ∧ done.2.Attended := by
  have hwaited := hs.awaitUntil settings.lossPollInterval.nanos
  rw [value_read]
  cases s.shutdownBy (s.wakeTime r.delay) with
  | some time => exact ⟨nofun, (hwaited time).stays, (hwaited time).bounded⟩
  | none =>
    have harrived : ((s.awaitUntil settings.lossPollInterval.nanos
        (s.wakeTime r.delay)).value.arrive r).Attended :=
      ⟨(hwaited _).stays, (hwaited _).bounded⟩
    exact harrived.takeResult settings index r.result

variable (settings index) in
theorem Attended.reads (hs : s.Attended) (script : List Read) :
    (s.reads settings index script).value.1 ≠ .exit .handoffClosed := by
  induction script generalizing s with
  | nil =>
    obtain ⟨hopen, -⟩ := hs.read settings index { result := .failed .closed }
    rw [value_reads_nil]
    generalize (s.read settings index { result := .failed .closed }).value = done at hopen ⊢
    obtain ⟨ending, last⟩ := done
    cases ending with
    | none => exact nofun
    | some ending => exact fun h => hopen (congrArg some h)
  | cons r rest ih =>
    obtain ⟨hopen, hlater⟩ := hs.read settings index r
    rw [value_reads_cons]
    generalize (s.read settings index r).value = done at hopen hlater ⊢
    obtain ⟨ending, later⟩ := done
    cases ending with
    | none => exact ih hlater
    | some ending => exact fun h => hopen (congrArg some h)

end

end Session

/-- A script of batches is read to its end by a consumer that stays, if no shutdown is signalled. -/
theorem ending_of_batches (settings : PipelineSettings) (index : Option WorkloadIndex)
    {handoff : Handoff} (hstays : handoff.Stays) (hbounded : handoff.Bounded) {script : List Read}
    (hbatches : ∀ r ∈ script, r.signalsShutdown = false ∧ ∃ records, r.result = .batch records)
    (tick : Nat) :
    (Ingestion.run settings index handoff script none tick).value.1 = .exit .channelClosed := by
  let start := Session.opening settings handoff none tick
  have htook := start.took_reads settings index script
  refine htook.takes.ending_of_batches (fun r hr => (hbatches r hr).2)
    (Session.Attended.reads settings index ⟨hstays, hbounded⟩ script) fun hshutdown => ?_
  rcases htook.due hshutdown with ⟨time, htime, -⟩ | ⟨r, hr, hsignal⟩
  · cases htime
  · rw [(hbatches r (htook.takes.isPrefix.subset hr)).1] at hsignal
    cases hsignal

end Ingestion
end FlowObserver
