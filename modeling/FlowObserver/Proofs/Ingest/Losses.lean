import FlowObserver.Proofs.Ingest.Arrivals
import FlowObserver.Proofs.Ingest.Offers

/-!
# Lost samples

A poll adds how far the loss counter has risen since it was last read. A poll that fails adds
nothing and forgets nothing. So for a counter that never falls, what was added up is its last
reading, whenever and however often it was polled. A run that ends without an error reads it once
more, and has counted by then all that was lost.
-/

namespace FlowObserver
namespace Ingestion

/-- How far readings rise, each above the one before it, where the first comes after `last`. -/
def rise (last : Nat) : List Nat → Nat
  | [] => 0
  | total :: rest => (total - last) + rise total rest

def readings (polls : List (Except ReadError Nat)) : List Nat := polls.filterMap Except.toOption

theorem rise_concat (last : Nat) (totals : List Nat) (total : Nat) :
    rise last (totals ++ [total]) = rise last totals + (total - totals.getLastD last) := by
  induction totals generalizing last with
  | nil => exact Nat.add_comm _ _
  | cons first rest ih =>
    rw [List.cons_append, rise, rise, ih, List.getLastD_cons, Nat.add_assoc]

/-- Readings that never fall rise from the first to the last. -/
theorem add_rise_eq_getLastD {last : Nat} {totals : List Nat}
    (h : (last :: totals).Pairwise (· ≤ ·)) : last + rise last totals = totals.getLastD last := by
  induction totals generalizing last with
  | nil => rfl
  | cons total rest ih =>
    obtain ⟨hlast, hrest⟩ := List.pairwise_cons.mp h
    have hle : last ≤ total := hlast total List.mem_cons_self
    rw [rise, List.getLastD_cons, ← ih hrest]
    omega

theorem rise_eq_getLastD {totals : List Nat} (h : totals.Pairwise (· ≤ ·)) :
    rise 0 totals = totals.getLastD 0 := by
  rw [← add_rise_eq_getLastD (List.pairwise_cons.mpr ⟨fun _ _ => Nat.zero_le _, h⟩), Nat.zero_add]

variable (x : Ingestion)

theorem value_pollLost (total : Nat) :
    (x.pollLost (.ok total)).value =
      { x with
        stats := { x.stats with lost := x.stats.lost + (total - x.lastReading) }
        lastReading := total } := by
  unfold pollLost
  dsimp only
  split_ifs with hnone
  · rw [hnone]
    rfl
  · rfl

theorem value_pollLost_error (e : ReadError) : (x.pollLost (.error e)).value = x := rfl

/-- What these polls lead to. -/
def pollAll (polls : List (Except ReadError Nat)) : Ingestion :=
  polls.foldl (fun x reading => (x.pollLost reading).value) x

/-- The loss counter plays no part in the difference. -/
structure SameLosses (x y : Ingestion) : Prop where
  lost : y.stats.lost = x.stats.lost
  lastReading : y.lastReading = x.lastReading

theorem sameLosses_takeRecord (index : Option WorkloadIndex) (bytes : Bytes) :
    SameLosses x (x.takeRecord index bytes).value := by
  rw [value_takeRecord]
  exact ⟨rfl, rfl⟩

theorem sameLosses_readFailed (limit : Nat) (e : ReadError) :
    SameLosses x (x.readFailed limit e).value.2 := by
  rw [value_readFailed]
  exact ⟨rfl, rfl⟩

/-- The losses are those that these polls have found. -/
structure Polled (polls : List (Except ReadError Nat)) (x : Ingestion) : Prop where
  lost : x.stats.lost = rise 0 (readings polls)
  lastReading : x.lastReading = (readings polls).getLastD 0

section

variable {x} {y : Ingestion} {polls : List (Except ReadError Nat)}

theorem polled_ofSettings (initial cap : Duration) : Polled [] (.ofSettings initial cap) :=
  ⟨rfl, rfl⟩

theorem SameLosses.polled (h : SameLosses x y) (hx : Polled polls x) : Polled polls y :=
  ⟨h.lost.trans hx.lost, h.lastReading.trans hx.lastReading⟩

theorem readings_concat_ok (polls : List (Except ReadError Nat)) (total : Nat) :
    readings (polls ++ [.ok total]) = readings polls ++ [total] := by
  rw [readings, List.filterMap_append]
  rfl

theorem readings_concat_error (polls : List (Except ReadError Nat)) (e : ReadError) :
    readings (polls ++ [.error e]) = readings polls := by
  rw [readings, List.filterMap_append]
  exact List.append_nil _

theorem Polled.pollLost (hx : Polled polls x) (reading : Except ReadError Nat) :
    Polled (polls ++ [reading]) (x.pollLost reading).value := by
  cases reading with
  | error e =>
    constructor
    · rw [readings_concat_error]
      exact hx.lost
    · rw [readings_concat_error]
      exact hx.lastReading
  | ok total =>
    rw [value_pollLost]
    constructor
    · rw [readings_concat_ok, rise_concat, ← hx.lost, ← hx.lastReading]
    · rw [readings_concat_ok, List.getLastD_concat]

theorem Polled.pollAll (hx : Polled polls x) (later : List (Except ReadError Nat)) :
    Polled (polls ++ later) (x.pollAll later) := by
  induction later generalizing x polls with
  | nil => rwa [List.append_nil]
  | cons reading rest ih =>
    rw [← List.singleton_append, ← List.append_assoc]
    exact ih (hx.pollLost reading)

/-- A counter that never falls has lost as much as it showed last. -/
theorem Polled.lost_eq_last (hx : Polled polls x) (h : (readings polls).Pairwise (· ≤ ·)) :
    x.stats.lost = (readings polls).getLastD 0 :=
  hx.lost.trans (rise_eq_getLastD h)

end

def Step.poll? : Step → Option (Except ReadError Nat)
  | .poll reading | .stop reading => some reading
  | _ => none

def pollsOf (course : List Step) : List (Except ReadError Nat) := course.filterMap Step.poll?

section

variable {settings : PipelineSettings} {course : List Step} {x y : Activity} {s : Step}

theorem pollsOf_concat (course : List Step) (s : Step) :
    pollsOf (course ++ [s]) = pollsOf course ++ s.poll?.toList := by
  rw [pollsOf, List.filterMap_append, List.filterMap_cons]
  cases s.poll? <;> rfl

theorem Move.sameLosses (hmove : Move settings x s y) (hpoll : s.poll? = none) :
    SameLosses x.ingestion y.ingestion := by
  cases hmove with
  | pass | signal | drain | leave | batch | closed | retry | place | expire => exact ⟨rfl, rfl⟩
  | poll | stop => cases hpoll
  | failed details _ hread | fatal details _ hread =>
    have hsame := x.ingestion.sameLosses_readFailed settings.maxConsecutiveFailures
      (.transient details)
    rwa [hread] at hsame
  | discard index | start index => exact x.ingestion.sameLosses_takeRecord index _

theorem Polled.step {seen : List (Except ReadError Nat)} (hx : Polled seen x.ingestion)
    (hmove : Move settings x s y) : Polled (seen ++ s.poll?.toList) y.ingestion := by
  cases hpoll : s.poll? with
  | none =>
    rw [Option.toList_none, List.append_nil]
    exact (hmove.sameLosses hpoll).polled hx
  | some reading =>
    cases hmove with
    | poll reading' | stop reading' =>
      obtain rfl : reading' = reading := Option.some.inj hpoll
      exact hx.pollLost reading'
    | pass | signal | drain | leave | batch | closed | retry | place | expire | failed | fatal
    | discard | start => cases hpoll

theorem Polled.run (hx : Polled [] x.ingestion) (hrun : Run settings x course y) :
    Polled (pollsOf course) y.ingestion := by
  induction hrun with
  | nil => exact hx
  | concat _ hmove ih =>
    rw [pollsOf_concat]
    exact ih.step hmove

theorem exists_last_poll (hrun : Run settings x course y) (hstart : x.stage = .reading)
    {exit : IngestExit} (hstage : y.stage = .ended (.exit exit)) :
    ∃ before reading after, course = before ++ .stop reading :: after ∧ pollsOf after = [] := by
  induction hrun with
  | nil =>
    rw [hstart] at hstage
    cases hstage
  | @concat course y z s _ hmove ih =>
    have hidle : y.stage = .ended (.exit exit) → s.poll? = none →
        ∃ before reading after, course ++ [s] = before ++ .stop reading :: after ∧
          pollsOf after = [] := by
      intro hstage hpoll
      obtain ⟨before, reading, after, rfl, hafter⟩ := ih hstage
      refine ⟨before, reading, after ++ [s], by simp, ?_⟩
      rw [pollsOf_concat, hafter, hpoll]
      rfl
    cases hmove with
    | pass | signal | drain | leave => exact hidle hstage rfl
    | poll reading hreading => cases hreading.symm.trans hstage
    | batch | discard | place | expire => exact absurd hstage (Stage.between_ne_ended _ _)
    | closed | failed | fatal | retry | start => cases hstage
    | stop reading => exact ⟨course, reading, [], rfl, rfl⟩

end

namespace Session

/-- The counter has not fallen since it was last read, and all that it showed then is counted. -/
structure CaughtUp (s : Session) : Prop where
  lost : s.ingestion.stats.lost = s.ingestion.lastReading
  le : s.ingestion.lastReading ≤ s.counter

/-- Neither the counter nor what was read off it is different. -/
structure SameCounter (s t : Session) : Prop where
  losses : SameLosses s.ingestion t.ingestion
  counter : t.counter = s.counter

/-- What a step of a session leads to: a session that has caught up with the same counter, and with
all of it where ingestion has ended without an error. -/
structure Keeps (s : Session) (done : Option Ending × Session) : Prop where
  caughtUp : done.2.CaughtUp
  counter : done.2.counter = s.counter
  exit : ∀ e, done.1 = some (.exit e) → done.2.ingestion.stats.lost = done.2.counter

variable {settings : PipelineSettings} {index : Option WorkloadIndex} {s t u : Session}

theorem SameCounter.refl (s : Session) : SameCounter s s := ⟨⟨rfl, rfl⟩, rfl⟩

theorem SameCounter.trans (hst : SameCounter s t) (htu : SameCounter t u) : SameCounter s u :=
  ⟨⟨htu.losses.lost.trans hst.losses.lost, htu.losses.lastReading.trans hst.losses.lastReading⟩,
    htu.counter.trans hst.counter⟩

theorem SameCounter.caughtUp (hst : SameCounter s t) (hs : s.CaughtUp) : t.CaughtUp := by
  constructor
  · rw [hst.losses.lost, hst.losses.lastReading, hs.lost]
  · rw [hst.losses.lastReading, hst.counter]
    exact hs.le

theorem sameCounter_sleepUntil (s : Session) (time : Nat) : SameCounter s (s.sleepUntil time) := by
  unfold sleepUntil
  split_ifs <;> exact ⟨⟨rfl, rfl⟩, rfl⟩

theorem CaughtUp.lost_pollLost (hs : s.CaughtUp) :
    (s.ingestion.pollLost (.ok s.counter)).value.stats.lost = s.counter := by
  have hle := hs.le
  rw [value_pollLost]
  dsimp only
  rw [hs.lost]
  omega

theorem CaughtUp.afterPoll (hs : s.CaughtUp) : s.afterPoll.CaughtUp := by
  have hread : s.afterPoll.ingestion.lastReading = s.counter := by
    rw [Session.afterPoll, value_pollLost]
  exact ⟨hs.lost_pollLost.trans hread.symm, hread.le⟩

theorem CaughtUp.awaitUntil (hs : s.CaughtUp) (interval time : Nat) :
    (s.awaitUntil interval time).value.CaughtUp ∧
      (s.awaitUntil interval time).value.counter = s.counter := by
  have hslept := s.sameCounter_sleepUntil time
  rw [value_awaitUntil]
  split_ifs
  · exact ⟨hslept.caughtUp hs, hslept.counter⟩
  · exact ⟨(hslept.caughtUp hs).afterPoll, hslept.counter⟩

theorem CaughtUp.afterStop (hs : s.CaughtUp) (e : IngestExit) :
    s.Keeps (some (.exit e), s.afterStop e) := by
  have hpolled := hs.afterPoll
  exact ⟨⟨hpolled.lost, hpolled.le⟩, rfl, fun _ _ => hs.lost_pollLost⟩

theorem sameCounter_afterOffer (s : Session) (done : Handoff.Offer × Handoff) :
    SameCounter s (s.afterOffer done).2 := by
  obtain ⟨offer, handoff⟩ := done
  cases offer <;> exact ⟨⟨rfl, rfl⟩, rfl⟩

theorem sameCounter_takeBatch (settings : PipelineSettings) (index : Option WorkloadIndex)
    (s : Session) (records : List Bytes) :
    SameCounter s (takeBatch settings index s records).value.2 := by
  induction records generalizing s with
  | nil => exact .refl s
  | cons bytes rest ih =>
    have htaken : SameCounter s (s.afterTaking index bytes) :=
      ⟨s.ingestion.sameLosses_takeRecord index bytes, rfl⟩
    rw [value_takeBatch_cons]
    split_ifs
    · exact .refl s
    · cases (s.afterTaking index bytes).ingestion.inHand with
      | none => exact htaken.trans (ih _)
      | some e =>
        dsimp only
        rw [value_handOff]
        generalize hdone : (s.afterTaking index bytes).afterOffer _ = done
        have hoffered : SameCounter s done.2 := by
          rw [← hdone]
          exact htaken.trans (sameCounter_afterOffer _ _)
        obtain ⟨exit, later⟩ := done
        cases exit with
        | none => exact hoffered.trans (ih later)
        | some exit => exact hoffered

theorem SameCounter.keeps (hst : SameCounter s t) {done : Option Ending × Session}
    (ht : t.Keeps done) : s.Keeps done :=
  ⟨ht.caughtUp, ht.counter.trans hst.counter, ht.exit⟩

theorem SameCounter.keeps_none (hst : SameCounter s t) (hs : s.CaughtUp) :
    s.Keeps (none, t) :=
  ⟨hst.caughtUp hs, hst.counter, fun _ h => by cases h⟩

theorem CaughtUp.afterDelay (hs : s.CaughtUp) (delay : Duration) :
    s.Keeps (s.afterDelay delay) := by
  unfold Session.afterDelay
  cases s.shutdownBy (s.wakeTime delay.nanos) with
  | some time =>
    have hslept := s.sameCounter_sleepUntil time
    exact hslept.keeps ((hslept.caughtUp hs).afterStop .shutdown)
  | none => exact (s.sameCounter_sleepUntil _).keeps_none hs

theorem CaughtUp.takeResult (hs : s.CaughtUp) (settings : PipelineSettings)
    (index : Option WorkloadIndex) (result : ReadResult) :
    s.Keeps (s.takeResult settings index result).value := by
  cases result with
  | batch records =>
    have hread : SameCounter s { s with ingestion := s.ingestion.readSucceeded } :=
      ⟨⟨rfl, rfl⟩, rfl⟩
    have hbatch := hread.trans (sameCounter_takeBatch settings index _ records)
    rw [value_takeResult_batch]
    generalize (takeBatch settings index _ records).value = done at hbatch ⊢
    obtain ⟨exit, later⟩ := done
    cases exit with
    | none => exact hbatch.keeps_none hs
    | some e => exact hbatch.keeps ((hbatch.caughtUp hs).afterStop e)
  | failed e =>
    cases e with
    | closed => exact hs.afterStop .channelClosed
    | transient details =>
      have hfailed : SameCounter s (s.afterFailure settings details) :=
        ⟨s.ingestion.sameLosses_readFailed settings.maxConsecutiveFailures _, rfl⟩
      rw [value_takeResult_transient]
      cases (s.ingestion.readFailed settings.maxConsecutiveFailures
          (.transient details)).value.1 with
      | error f => exact ⟨hfailed.caughtUp hs, rfl, fun _ h => by cases h⟩
      | ok delay => exact hfailed.keeps ((hfailed.caughtUp hs).afterDelay delay)
  | never =>
    rw [value_takeResult_never]
    cases s.shutdownAt with
    | none => exact ⟨hs, rfl, fun _ h => by cases h⟩
    | some time =>
      obtain ⟨hwaited, hcounter⟩ := hs.awaitUntil settings.lossPollInterval.nanos (max time s.now)
      obtain ⟨hcaught, hsame, hexit⟩ := hwaited.afterStop .shutdown
      exact ⟨hcaught, hsame.trans hcounter, hexit⟩

/-- A read either comes back with the counter that it brings, or it finds the counter as it was. -/
theorem CaughtUp.read (hs : s.CaughtUp) (settings : PipelineSettings)
    (index : Option WorkloadIndex) {r : Read} (hle : ∀ total ∈ r.counter, s.counter ≤ total) :
    let done := (s.read settings index r).value
    done.2.CaughtUp ∧ (done.1 = none → done.2.counter = r.counter.getD s.counter) ∧
      ∀ e, done.1 = some (.exit e) → done.2.ingestion.stats.lost = done.2.counter := by
  rw [value_read]
  cases s.shutdownBy (s.wakeTime r.delay) with
  | some time =>
    obtain ⟨hwaited, -⟩ := hs.awaitUntil settings.lossPollInterval.nanos time
    obtain ⟨hcaught, -, hexit⟩ := hwaited.afterStop .shutdown
    exact ⟨hcaught, fun h => (by cases h), hexit⟩
  | none =>
    obtain ⟨hwaited, hcounter⟩ :=
      hs.awaitUntil settings.lossPollInterval.nanos (s.wakeTime r.delay)
    dsimp only
    generalize (s.awaitUntil settings.lossPollInterval.nanos (s.wakeTime r.delay)).value = waited
      at hwaited hcounter ⊢
    have harrived : (waited.arrive r).CaughtUp := by
      refine ⟨hwaited.lost, hwaited.le.trans ?_⟩
      change waited.counter ≤ r.counter.getD waited.counter
      cases hr : r.counter with
      | none => exact Nat.le_refl _
      | some total => exact hcounter ▸ hle total hr
    obtain ⟨hcaught, hsame, hexit⟩ := harrived.takeResult settings index r.result
    refine ⟨hcaught, fun _ => ?_, hexit⟩
    rw [hsame, ← hcounter]
    rfl

/-- The counter never falls below what it shows now. -/
def NeverFalls (s : Session) (script : List Read) : Prop :=
  (s.counter :: script.filterMap (·.counter)).Pairwise (· ≤ ·)

theorem NeverFalls.cons {r : Read} {rest : List Read} (h : s.NeverFalls (r :: rest)) :
    (∀ total ∈ r.counter, s.counter ≤ total) ∧
      (r.counter.getD s.counter :: rest.filterMap (·.counter)).Pairwise (· ≤ ·) := by
  unfold NeverFalls at h
  rw [List.filterMap_cons] at h
  cases hr : r.counter with
  | none =>
    rw [hr] at h
    exact ⟨fun _ hmem => (by cases hmem), h⟩
  | some total =>
    rw [hr] at h
    obtain ⟨hfirst, hrest⟩ := List.pairwise_cons.mp h
    refine ⟨fun other hother => ?_, hrest⟩
    cases hother
    exact hfirst total List.mem_cons_self

/-- Reads that end without an error end with all counted that the counter shows. -/
theorem CaughtUp.reads (hs : s.CaughtUp) (settings : PipelineSettings)
    (index : Option WorkloadIndex) {script : List Read} (hscript : s.NeverFalls script)
    {e : IngestExit} (hending : (s.reads settings index script).value.1 = .exit e) :
    (s.reads settings index script).value.2.ingestion.stats.lost =
      (s.reads settings index script).value.2.counter := by
  induction script generalizing s with
  | nil =>
    obtain ⟨-, -, hexit⟩ := hs.read settings index (r := { result := .failed .closed })
      fun _ h => (by cases h)
    rw [value_reads_nil] at hending ⊢
    generalize (s.read settings index { result := .failed .closed }).value = done
      at hexit hending ⊢
    obtain ⟨ending, last⟩ := done
    cases ending with
    | none => cases hending
    | some ending => exact hexit e (congrArg some hending)
  | cons r rest ih =>
    obtain ⟨hle, hrest⟩ := hscript.cons
    obtain ⟨hcaught, hcounter, hexit⟩ := hs.read settings index hle
    rw [value_reads_cons] at hending ⊢
    generalize (s.read settings index r).value = done at hcaught hcounter hexit hending ⊢
    obtain ⟨ending, later⟩ := done
    cases ending with
    | none =>
      have hlater : later.NeverFalls rest := by
        rw [NeverFalls, hcounter rfl]
        exact hrest
      exact ih hcaught hlater hending
    | some ending => exact hexit e (congrArg some hending)

end Session

/-- The polls of any sequence, and of any course of ingestion, add up how far the readings that
succeed rise; polls that fail change nothing. If the counter never falls, that is the last reading,
which fits in 64 bits if the readings do, and where a course ends without an error it is the counter
at that moment, if it can be read then. So it is at the end of each run on the clock, where the
counter shows what the last read brought that was taken. -/
theorem lost_eq_rise (settings : PipelineSettings) (channel : Handoff) :
    (∀ polls e,
      let x := (ofSettings settings.backoffInitial settings.backoffMax).pollAll polls
      x.stats.lost = rise 0 (readings polls) ∧ (x.pollLost (.error e)).value = x ∧
      ((readings polls).Pairwise (· ≤ ·) → x.stats.lost = (readings polls).getLastD 0 ∧
        ((∀ total ∈ readings polls, total < UInt64.size) → x.stats.lost < UInt64.size))) ∧
    (∀ course x, Run settings (.initial settings channel) course x →
      x.ingestion.stats.lost = rise 0 (readings (pollsOf course)) ∧
      ((readings (pollsOf course)).Pairwise (· ≤ ·) →
        x.ingestion.stats.lost = (readings (pollsOf course)).getLastD 0 ∧
        ∀ exit, x.stage = .ended (.exit exit) → ∃ before reading after,
          course = before ++ .stop reading :: after ∧
          ∀ total, reading = .ok total → x.ingestion.stats.lost = total)) ∧
    ∀ index script shutdownAt tick, (script.filterMap Read.counter).Pairwise (· ≤ ·) →
      let done := (Ingestion.run settings index channel script shutdownAt tick).value
      ∃ reads, (Session.opening settings channel shutdownAt tick).Took script reads done ∧
        done.2.counter = (reads.filterMap Read.counter).getLastD 0 ∧
        ∀ exit, done.1 = .exit exit → done.2.ingestion.stats.lost = done.2.counter := by
  have hfresh : Polled [] (ofSettings settings.backoffInitial settings.backoffMax) :=
    polled_ofSettings _ _
  refine ⟨fun polls e => ?_, fun course x hrun => ?_, fun index script shutdownAt tick hrises => ?_⟩
  · have hpolled : Polled polls _ := hfresh.pollAll polls
    refine ⟨hpolled.lost, value_pollLost_error _ e, fun hrises => ?_⟩
    have hlast := hpolled.lost_eq_last hrises
    refine ⟨hlast, fun hfits => ?_⟩
    rw [hlast]
    rcases List.mem_cons.mp (List.getLastD_mem_cons (l := readings polls) (a := 0)) with
      hnone | hmem
    · rw [hnone]
      decide
    · exact hfits _ hmem
  · have hpolled : Polled (pollsOf course) x.ingestion := Polled.run hfresh hrun
    refine ⟨hpolled.lost, fun hrises => ⟨hpolled.lost_eq_last hrises, fun exit hstage => ?_⟩⟩
    obtain ⟨before, reading, after, rfl, hafter⟩ := exists_last_poll hrun rfl hstage
    refine ⟨before, reading, after, rfl, fun total htotal => ?_⟩
    have hpolls : pollsOf (before ++ .stop reading :: after) = pollsOf before ++ [.ok total] := by
      rw [pollsOf, List.filterMap_append, List.filterMap_cons, htotal]
      change pollsOf before ++ .ok total :: pollsOf after = _
      rw [hafter]
    rw [hpolled.lost_eq_last hrises, hpolls, readings_concat_ok, List.getLastD_concat]
  · have hcaught : (Session.opening settings channel shutdownAt tick).CaughtUp :=
      ⟨rfl, Nat.le_refl _⟩
    have htook := (Session.opening settings channel shutdownAt tick).took_reads settings index script
    refine ⟨_, htook, htook.counter, fun exit hexit => ?_⟩
    exact hcaught.reads settings index
      (List.pairwise_cons.mpr ⟨fun _ _ => Nat.zero_le _, hrises⟩) hexit

/-- A poll that fails, the end of a batch in time, and the shutdown. -/
def leaky : List Step :=
  [.poll (.ok 3), .read (.ok []), .poll (.error (.transient "EIO")), .poll (.ok 3), .signal,
    .stop (.ok 7)]

/-- The counter rises while ingestion waits for its second read. -/
def leakyScript : List Read :=
  [{ counter := some 2, result := .batch [] },
    { delay := 5000000000, counter := some 9, result := .failed (.transient "EAGAIN") }]

theorem lost_eq_rise_leaky :
    (∃ x, Run {} (.initial {} { capacity := 1 }) leaky x ∧
      (readings (pollsOf leaky)).Pairwise (· ≤ ·) ∧ x.stage = .ended (.exit .shutdown) ∧
      x.ingestion.stats.lost = 7 ∧ ∃ before reading after,
        leaky = before ++ .stop reading :: after ∧
        ∀ total, reading = .ok total → x.ingestion.stats.lost = total) ∧
    (leakyScript.filterMap Read.counter).Pairwise (· ≤ ·) ∧
    let done := (Ingestion.run {} none { capacity := 1 } leakyScript none).value
    done.1 = .exit .channelClosed ∧ done.2.ingestion.stats.lost = 9 := by
  have hrun : Run {} (.initial {} { capacity := 1 }) leaky _ :=
    (((((Run.nil.concat (.poll (.ok 3) rfl)).concat (.batch [] rfl)).concat
      (.poll (.error (.transient "EIO")) rfl)).concat (.poll (.ok 3) rfl)).concat .signal).concat
      (.stop (.ok 7) (.reading rfl rfl))
  have hrises : (readings (pollsOf leaky)).Pairwise (· ≤ ·) := by decide
  have hscript : (leakyScript.filterMap Read.counter).Pairwise (· ≤ ·) := by decide
  have hending : (Ingestion.run {} none { capacity := 1 } leakyScript none).value.1 =
      .exit .channelClosed := by decide
  have hcounter : (Ingestion.run {} none { capacity := 1 } leakyScript none).value.2.counter = 9 := by
    decide
  obtain ⟨-, hcourses, hclock⟩ := lost_eq_rise {} { capacity := 1 }
  obtain ⟨hlast, hstop⟩ := (hcourses leaky _ hrun).2 hrises
  obtain ⟨reads, -, -, hlost⟩ := hclock none leakyScript none nanosPerMilli hscript
  exact ⟨⟨_, hrun, hrises, rfl, hlast, hstop .shutdown rfl⟩, hscript, hending,
    (hlost _ hending).trans hcounter⟩

end Ingestion
end FlowObserver
