import FlowObserver.Proofs.Ingest.Arrivals
import FlowObserver.Proofs.Ingest.Course

/-!
# A run on the clock is a course of steps

A session waits, and while it waits the consumer has its turns. Each wait is a course of turns and
of time that passes, and each thing that a session does is a step. The course takes every event from
the channel at the very time at which the session has it taken.
-/

namespace FlowObserver
namespace Handoff

/-- Two channels that differ in nothing but what their consumers are about to do. -/
structure Alike (h g : Handoff) : Prop where
  capacity : h.capacity = g.capacity
  queue : h.queue = g.queue
  taken : h.taken = g.taken
  gone : h.isGone = g.isGone

theorem Alike.refl (h : Handoff) : Alike h h := ⟨rfl, rfl, rfl, rfl⟩

variable {h g : Handoff}

theorem Alike.isFull_eq (hhg : Alike h g) : h.isFull = g.isFull := by
  rw [isFull, isFull, hhg.capacity, hhg.queue]

theorem Alike.placed_eq (hhg : Alike h g) : h.placed = g.placed := by
  rw [placed, placed, hhg.taken, hhg.queue]

theorem Alike.place (hhg : Alike h g) (e : FlowEvent) : Alike (h.place e) (g.place e) :=
  ⟨hhg.capacity, congrArg (· ++ [e]) hhg.queue, hhg.taken, hhg.gone⟩

theorem Alike.woken (hhg : Alike h g) (now : Nat) : Alike h (g.woken now) := by
  unfold Handoff.woken
  split
  · rename_i left hconsumer
    split_ifs
    · exact hhg
    · refine ⟨hhg.capacity, hhg.queue, hhg.taken, hhg.gone.trans ?_⟩
      rw [isGone, hconsumer]
      rfl
  · exact hhg

theorem Timely.woken {now : Nat} (hh : h.Timely now) : (h.woken now).Timely now := by
  unfold Handoff.woken
  split
  · split_ifs
    · exact hh
    · rintro wake left ⟨⟩
      exact Nat.le_refl now
  · exact hh

end Handoff

namespace Ingestion

variable {settings : PipelineSettings} {index : Option WorkloadIndex}

/-- A course leads there that reads these records and takes them with the same workloads. -/
def Reaches (settings : PipelineSettings) (index : Option WorkloadIndex) (x : Activity)
    (records : List Bytes) (y : Activity) : Prop :=
  ∃ course, Run settings x course y ∧ source course = records ∧
    ∀ known ∈ indices course, known = index

section

variable {x y z : Activity} {records later : List Bytes}

theorem Reaches.refl (x : Activity) : Reaches settings index x [] x :=
  ⟨[], .nil, rfl, fun _ h => absurd h List.not_mem_nil⟩

theorem Reaches.trans (hxy : Reaches settings index x records y)
    (hyz : Reaches settings index y later z) : Reaches settings index x (records ++ later) z := by
  obtain ⟨first, hfirst, rfl, hknown⟩ := hxy
  obtain ⟨second, hsecond, rfl, hknown'⟩ := hyz
  refine ⟨first ++ second, hfirst.append hsecond, List.flatMap_append, ?_⟩
  rw [indices, List.filterMap_append, List.forall_mem_append]
  exact ⟨hknown, hknown'⟩

theorem Reaches.move {s : Step} (hmove : Move settings x s y)
    (hindex : ∀ known ∈ s.index?, known = index) : Reaches settings index x s.batch y := by
  refine ⟨[s], .single hmove, List.flatMap_singleton _ _, ?_⟩
  intro known hknown
  obtain ⟨s', hs', hknown⟩ := List.mem_filterMap.mp hknown
  rw [List.mem_singleton.mp hs'] at hknown
  exact hindex known hknown

theorem Reaches.step {s : Step} (hmove : Move settings x s y) (hbatch : s.batch = [])
    (hindex : s.index? = none) : Reaches settings index x [] y := by
  rw [← hbatch]
  refine Reaches.move hmove fun known hknown => ?_
  rw [hindex] at hknown
  cases hknown

theorem Reaches.then (hxy : Reaches settings index x records y)
    (hyz : Reaches settings index y [] z) : Reaches settings index x records z := by
  rw [← List.append_nil records]
  exact hxy.trans hyz

end

section

variable (x : Activity)

theorem reaches_later {time : Nat} (hle : x.now ≤ time) :
    Reaches settings index x [] { x with now := time } := by
  obtain ⟨nanos, rfl⟩ := Nat.exists_eq_add_of_le hle
  exact .step (.pass nanos) rfl rfl

theorem exists_reaches_advance {h : Handoff} (halike : x.channel.Alike h)
    (htimely : h.Timely x.now) {time : Nat} (hle : x.now ≤ time) :
    ∃ now channel, Reaches settings index x [] { x with now, channel } ∧ now ≤ time ∧
      channel.Alike (Handoff.advance time h) := by
  fun_induction Handoff.advance time h generalizing x with
  | case1 => exact ⟨x.now, x.channel, .refl x, hle, halike⟩
  | case2 h wake hwake hconsumer =>
    have hpass : Reaches settings index x [] { x with now := wake } :=
      reaches_later x (htimely wake _ hconsumer)
    refine ⟨wake, _, hpass.then (.step .leave rfl rfl), Nat.le_of_not_lt hwake, ?_⟩
    exact ⟨halike.capacity, halike.queue, halike.taken, rfl⟩
  | case3 h wake left hconsumer hwake hleft hq =>
    refine ⟨x.now, x.channel, .refl x, hle, halike.capacity, halike.queue, halike.taken, ?_⟩
    rw [halike.gone, Handoff.isGone, hconsumer]
    rfl
  | case4 h wake left hconsumer hwake hleft e rest hq ih =>
    -- time passes up to `wake` before the event is taken, so that both take it at the same time
    have hpass : Reaches settings index x [] { x with now := wake } :=
      reaches_later x (htimely wake _ hconsumer)
    have hdrain := hpass.then (.step (.drain (halike.queue.trans hq)) rfl rfl)
    have hnext : ∀ time left', Consumer.asleep (wake + h.pause h.taken.length) (left.map (· - 1)) =
        .asleep time left' → wake ≤ time := by
      rintro time left' ⟨⟩
      exact Nat.le_add_right _ _
    obtain ⟨now, channel, hreaches, hnow, halike'⟩ := ih
      { x with
        now := wake
        channel := { x.channel with queue := rest, taken := x.channel.taken ++ [(wake, e)] } }
      ⟨halike.capacity, rfl, congrArg (· ++ [(wake, e)]) halike.taken, by
        change x.channel.isGone = _
        rw [halike.gone, Handoff.isGone, hconsumer]
        rfl⟩ hnext (Nat.le_of_not_lt hwake)
    exact ⟨now, channel, hdrain.then hreaches, hnow, halike'⟩
  | case5 h hconsumer => exact ⟨x.now, x.channel, .refl x, hle, halike⟩

theorem exists_reaches_during {h : Handoff} (halike : x.channel.Alike h)
    (htimely : h.Timely x.now) {time : Nat} (hle : x.now ≤ time) :
    ∃ channel, Reaches settings index x [] { x with now := time, channel } ∧
      channel.Alike (h.during x.now time) := by
  obtain ⟨now, channel, hreaches, hnow, halike⟩ :=
    exists_reaches_advance x (halike.woken x.now) htimely.woken hle
  rw [← Handoff.during_eq] at halike
  exact ⟨channel, hreaches.then (reaches_later _ hnow), halike⟩

theorem exists_reaches_lapse {h later : Handoff} (halike : x.channel.Alike h)
    (htimely : h.Timely x.now) {time : Nat} (hlapse : h.Lapse x.now time later) :
    ∃ channel, Reaches settings index x [] { x with now := time, channel } ∧
      channel.Alike later := by
  induction hlapse with
  | refl => exact ⟨x.channel, .refl x, halike⟩
  | wait hlapse hle ih =>
    obtain ⟨channel, hreaches, halike⟩ := ih
    obtain ⟨channel', hreaches', halike'⟩ :=
      exists_reaches_during { x with now := _, channel } halike (hlapse.timely htimely) hle
    exact ⟨channel', hreaches.then hreaches', halike'⟩

end

/-- An activity that stands where the session stands. -/
structure Mirrors (s : Session) (x : Activity) : Prop where
  now : x.now = s.now
  ingestion : x.ingestion = s.ingestion
  alike : x.channel.Alike s.handoff
  timely : s.handoff.Timely s.now
  bounded : s.handoff.Bounded
  tick_pos : 0 < s.tick

variable {s : Session} {x : Activity}

theorem Mirrors.le_wakeTime (hs : Mirrors s x) (nanos : Nat) :
    s.now + nanos ≤ s.wakeTime nanos := by
  have hpos := hs.tick_pos
  have hdiv := Nat.div_add_mod (s.now + nanos + s.tick - 1) s.tick
  have hmod := Nat.mod_lt (s.now + nanos + s.tick - 1) hpos
  rw [Session.wakeTime, Nat.mul_comm]
  omega

variable (settings index) in
theorem Mirrors.sleepUntil (hs : Mirrors s x) (time : Nat) :
    ∃ now channel, Reaches settings index x [] { x with now, channel } ∧
      Mirrors (s.sleepUntil time) { x with now, channel } := by
  unfold Session.sleepUntil
  split_ifs with hlt
  · have htimely : s.handoff.Timely x.now := hs.now ▸ hs.timely
    obtain ⟨channel, hreaches, halike⟩ :=
      exists_reaches_during x hs.alike htimely (hs.now.trans_le hlt.le)
    rw [hs.now] at halike
    exact ⟨time, channel, hreaches, rfl, hs.ingestion, halike,
      (Handoff.rests_during _ _).timely, hs.bounded.during _ _, hs.tick_pos⟩
  · exact ⟨x.now, x.channel, .refl x, hs⟩

variable (settings index) in
theorem Mirrors.awaitUntil (hs : Mirrors s x) (hstage : x.stage = .reading) (interval time : Nat) :
    ∃ y, Reaches settings index x [] y ∧ Mirrors (s.awaitUntil interval time).value y ∧
      y.stage = .reading ∧ y.signalled = x.signalled := by
  obtain ⟨now, channel, hreaches, hs'⟩ := hs.sleepUntil settings index time
  rw [Session.value_awaitUntil]
  split_ifs with hpolled
  · exact ⟨_, hreaches, hs', hstage, rfl⟩
  · refine ⟨_, hreaches.then (.step (.poll (.ok (s.sleepUntil time).counter) hstage) rfl rfl), ?_,
      hstage, rfl⟩
    refine ⟨hs'.now, ?_, hs'.alike, hs'.timely, hs'.bounded, hs'.tick_pos⟩
    dsimp only
    rw [hs'.ingestion]
    rfl

/-- Where a batch leads: to a stage without the shutdown, or to where an end is due. -/
def Leads (settings : PipelineSettings) (index : Option WorkloadIndex) (x : Activity)
    (stage : Stage) : Option IngestExit × Session → Prop
  | (none, s) => ∃ y, Reaches settings index x [] y ∧ Mirrors s y ∧ y.stage = stage ∧
      y.signalled = false
  | (some exit, s) => ∃ y, Reaches settings index x [] y ∧ Mirrors s y ∧ Due y exit

theorem Leads.after {y : Activity} {stage : Stage} {done : Option IngestExit × Session}
    (hxy : Reaches settings index x [] y) (hdone : Leads settings index y stage done) :
    Leads settings index x stage done := by
  obtain ⟨exit, s⟩ := done
  cases exit with
  | none =>
    obtain ⟨z, hyz, hz⟩ := hdone
    exact ⟨z, hxy.then hyz, hz⟩
  | some exit =>
    obtain ⟨z, hyz, hz⟩ := hdone
    exact ⟨z, hxy.then hyz, hz⟩

theorem Mirrors.afterOffer (hs : Mirrors s x) (hsignal : x.signalled = false) {since : Nat}
    {rest : List Bytes} (hstage : x.stage = .offering since rest) {e : FlowEvent}
    (hhand : s.ingestion.inHand = some e) {deadline : Nat}
    (hdeadline : since + settings.handoffTimeout.nanos ≤ deadline)
    {done : Handoff.Offer × Handoff} (hdone : s.handoff.Outcome e s.now deadline done) :
    Leads settings index x (.between rest) (s.afterOffer done) := by
  have htimely : s.handoff.Timely x.now := hs.now ▸ hs.timely
  rw [← hs.now] at hdone
  rw [← hs.ingestion] at hhand
  cases hdone with
  | @placed time later after hlapse htry =>
    obtain ⟨channel, hreaches, halike⟩ := exists_reaches_lapse x hs.alike htimely hlapse
    obtain ⟨hopen, hroom, -, rfl⟩ := (Handoff.tryPlace_eq_placed_iff _ _ _ _ _).mp htry
    have hplace : channel.tryPlace e time = some (.placed time, channel.place e) :=
      (Handoff.tryPlace_eq_placed_iff _ _ _ _ _).mpr
        ⟨halike.gone.trans hopen, halike.isFull_eq.trans hroom, rfl, rfl⟩
    refine ⟨_, hreaches.then (.step (.place hstage hhand hplace) rfl rfl), ?_, rfl, hsignal⟩
    refine ⟨rfl, ?_, halike.place e, hlapse.timely htimely, later.bounded_place e hroom,
      hs.tick_pos⟩
    exact congrArg (fun x : Ingestion => x.handedOff.value) hs.ingestion
  | @timedOut time later hlapse htry hlate =>
    obtain ⟨channel, hreaches, halike⟩ := exists_reaches_lapse x hs.alike htimely hlapse
    obtain ⟨hopen, hfull⟩ := (Handoff.tryPlace_eq_none_iff _ _ _).mp htry
    have hplace : channel.tryPlace e time = none :=
      (Handoff.tryPlace_eq_none_iff _ _ _).mpr
        ⟨halike.gone.trans hopen, halike.isFull_eq.trans hfull⟩
    refine ⟨_, hreaches.then (.step (.expire hstage hhand hplace (hdeadline.trans hlate)) rfl rfl),
      ?_, rfl, hsignal⟩
    refine ⟨rfl, ?_, halike, hlapse.timely htimely, hlapse.bounded hs.bounded, hs.tick_pos⟩
    exact congrArg (fun x : Ingestion => x.handoffTimedOut.value) hs.ingestion
  | @closed time later hlapse hgone =>
    obtain ⟨channel, hreaches, halike⟩ := exists_reaches_lapse x hs.alike htimely hlapse
    refine ⟨_, hreaches, ?_, .offering hstage (halike.gone.trans hgone)⟩
    exact ⟨rfl, hs.ingestion, halike, hlapse.timely htimely, hlapse.bounded hs.bounded,
      hs.tick_pos⟩

theorem Mirrors.takeBatch (hs : Mirrors s x) (hsignal : x.signalled = false)
    {records : List Bytes} (hstage : x.stage = .between records) :
    Leads settings index x .reading (Session.takeBatch settings index s records).value := by
  induction records generalizing s x with
  | nil => exact ⟨x, .refl x, hs, hstage, hsignal⟩
  | cons bytes rest ih =>
    rw [Session.value_takeBatch_cons]
    split_ifs with hshutdown
    · refine ⟨_, .step .signal rfl rfl, ?_, .taking hstage rfl⟩
      exact ⟨hs.now, hs.ingestion, hs.alike, hs.timely, hs.bounded, hs.tick_pos⟩
    · have htaking : ∀ stage, Mirrors (s.afterTaking index bytes)
          { x with ingestion := (x.ingestion.takeRecord index bytes).value, stage } :=
        fun stage => ⟨hs.now, congrArg (fun x => (takeRecord x index bytes).value) hs.ingestion,
          hs.alike, hs.timely, hs.bounded, hs.tick_pos⟩
      have hinHand : (x.ingestion.takeRecord index bytes).value.inHand =
          (s.afterTaking index bytes).ingestion.inHand :=
        congrArg Ingestion.inHand (htaking .reading).ingestion
      cases hhand : (s.afterTaking index bytes).ingestion.inHand with
      | none =>
        have hmove : Move settings x (.take index) _ :=
          .discard index hstage hsignal (hinHand.trans hhand)
        exact (ih (htaking (.between rest)) hsignal rfl).after (.move hmove (by simp [Step.index?]))
      | some e =>
        have hmove : Move settings x (.take index) _ :=
          .start index hstage hsignal (hinHand.trans hhand)
        have hoffering := htaking (.offering x.now rest)
        have hdeadline : x.now + settings.handoffTimeout.nanos ≤
            (s.afterTaking index bytes).wakeTime settings.handoffTimeout.nanos := by
          rw [hs.now]
          exact hoffering.le_wakeTime _
        have htake : Reaches settings index x [] _ := .move hmove (by simp [Step.index?])
        have hleads := (hoffering.afterOffer hsignal rfl hhand hdeadline
          (Handoff.outcome_offer hoffering.bounded e _ _)).after htake
        dsimp only
        rw [Session.value_handOff]
        generalize (s.afterTaking index bytes).afterOffer _ = done at hleads ⊢
        obtain ⟨exit, later⟩ := done
        cases exit with
        | none =>
          obtain ⟨y, hxy, hlater, hstage, hsignal⟩ := hleads
          exact (ih hlater hsignal hstage).after hxy
        | some exit => exact hleads

/-- Where reads of these records lead: to the next read or to the end. -/
def Continues (settings : PipelineSettings) (index : Option WorkloadIndex) (x : Activity)
    (records : List Bytes) : Option Ending × Session → Prop
  | (none, s) => ∃ y, Reaches settings index x records y ∧ Mirrors s y ∧ y.stage = .reading ∧
      y.signalled = false
  | (some ending, s) => ∃ y, Reaches settings index x records y ∧ Mirrors s y ∧
      (y.stage = .ended ending ∨ ending = .stuck ∧ y.stage = .reading)

theorem Continues.after {y : Activity} {records later : List Bytes}
    {done : Option Ending × Session} (hxy : Reaches settings index x records y)
    (hdone : Continues settings index y later done) :
    Continues settings index x (records ++ later) done := by
  obtain ⟨ending, s⟩ := done
  cases ending with
  | none =>
    obtain ⟨z, hyz, hz⟩ := hdone
    exact ⟨z, hxy.trans hyz, hz⟩
  | some ending =>
    obtain ⟨z, hyz, hz⟩ := hdone
    exact ⟨z, hxy.trans hyz, hz⟩

theorem Mirrors.stop (hs : Mirrors s x) {exit : IngestExit} (hdue : Due x exit) :
    Continues settings index x [] (some (.exit exit), s.afterStop exit) := by
  refine ⟨_, .step (.stop (.ok s.counter) hdue) rfl rfl, ?_, .inl rfl⟩
  refine ⟨hs.now, ?_, hs.alike, hs.timely, hs.bounded, hs.tick_pos⟩
  exact congrArg (fun x : Ingestion => (x.stopped (.ok s.counter) exit).value) hs.ingestion

theorem Mirrors.signal (hs : Mirrors s x) : Mirrors s { x with signalled := true } :=
  ⟨hs.now, hs.ingestion, hs.alike, hs.timely, hs.bounded, hs.tick_pos⟩

theorem Mirrors.afterDelay (hs : Mirrors s x) (hsignal : x.signalled = false) {delay : Duration}
    (hstage : x.stage = .retrying (s.now + delay.nanos)) :
    Continues settings index x [] (s.afterDelay delay) := by
  unfold Session.afterDelay
  cases s.shutdownBy (s.wakeTime delay.nanos) with
  | some time =>
    obtain ⟨now, channel, hreaches, hs'⟩ := hs.sleepUntil settings index time
    exact Continues.after (hreaches.then (.step .signal rfl rfl))
      (hs'.signal.stop (.retrying hstage rfl))
  | none =>
    obtain ⟨now, channel, hreaches, hs'⟩ :=
      hs.sleepUntil settings index (s.wakeTime delay.nanos)
    have hwake : s.now + delay.nanos ≤ now :=
      ((hs.le_wakeTime _).trans (s.le_now_sleepUntil _)).trans_eq hs'.now.symm
    exact ⟨_, hreaches.then (.step (.retry hstage hwake) rfl rfl),
      ⟨hs'.now, hs'.ingestion, hs'.alike, hs'.timely, hs'.bounded, hs'.tick_pos⟩, rfl, hsignal⟩

theorem Mirrors.takeResult_batch (hs : Mirrors s x) (hstage : x.stage = .reading)
    (hsignal : x.signalled = false) (records : List Bytes) :
    Continues settings index x records (s.takeResult settings index (.batch records)).value := by
  have hread : Reaches settings index x records
      { x with ingestion := x.ingestion.readSucceeded, stage := .between records } :=
    .move (.batch records hstage) (by simp [Step.index?])
  have hs' : Mirrors { s with ingestion := s.ingestion.readSucceeded }
      { x with ingestion := x.ingestion.readSucceeded, stage := .between records } :=
    ⟨hs.now, congrArg readSucceeded hs.ingestion, hs.alike, hs.timely, hs.bounded, hs.tick_pos⟩
  have hleads : Leads settings index _ .reading _ := hs'.takeBatch hsignal rfl
  rw [Session.value_takeResult_batch]
  generalize (Session.takeBatch settings index _ records).value = done at hleads ⊢
  obtain ⟨exit, later⟩ := done
  rw [← List.append_nil records]
  cases exit with
  | none =>
    obtain ⟨y, hxy, hlater, hstage, hsignal⟩ := hleads
    exact ⟨y, hread.trans hxy, hlater, hstage, hsignal⟩
  | some exit =>
    obtain ⟨y, hxy, hlater, hdue⟩ := hleads
    exact Continues.after (hread.then hxy) (hlater.stop hdue)

theorem Mirrors.takeResult_failed (hs : Mirrors s x) (hstage : x.stage = .reading)
    (hsignal : x.signalled = false) (e : ReadError) :
    Continues settings index x [] (s.takeResult settings index (.failed e)).value := by
  cases e with
  | closed =>
    rw [Session.value_takeResult_closed]
    have hclosed : Reaches settings index x [] { x with stage := .closing } :=
      .step (.closed hstage) rfl rfl
    have hs' : Mirrors s { x with stage := .closing } :=
      ⟨hs.now, hs.ingestion, hs.alike, hs.timely, hs.bounded, hs.tick_pos⟩
    exact Continues.after hclosed (hs'.stop (.closing rfl))
  | transient details =>
    rw [Session.value_takeResult_transient]
    rw [← hs.ingestion]
    have hs' : ∀ stage, Mirrors (s.afterFailure settings details)
        { x with
          ingestion :=
            (x.ingestion.readFailed settings.maxConsecutiveFailures (.transient details)).value.2
          stage } := by
      intro stage
      refine ⟨hs.now, ?_, hs.alike, hs.timely, hs.bounded, hs.tick_pos⟩
      rw [hs.ingestion]
      rfl
    cases hnext : (x.ingestion.readFailed settings.maxConsecutiveFailures
        (.transient details)).value.1 with
    | error f =>
      have hread : Move settings x (.read (.error (.transient details))) _ :=
        .fatal details hstage (Prod.ext hnext rfl)
      exact ⟨_, .step hread rfl rfl, hs' (.ended (.failed f)), .inl rfl⟩
    | ok delay =>
      have hread : Move settings x (.read (.error (.transient details))) _ :=
        .failed details hstage (Prod.ext hnext rfl)
      exact Continues.after (.step hread rfl rfl)
        ((hs' (.retrying (x.now + delay.nanos))).afterDelay hsignal
          (congrArg (fun now => Stage.retrying (now + delay.nanos)) hs.now))

theorem Mirrors.takeResult_never (hs : Mirrors s x) (hstage : x.stage = .reading) :
    Continues settings index x [] (s.takeResult settings index .never).value := by
  rw [Session.value_takeResult_never]
  cases s.shutdownAt with
  | none => exact ⟨x, .refl x, hs, .inr ⟨rfl, hstage⟩⟩
  | some time =>
    obtain ⟨y, hxy, hs', hstage', -⟩ := hs.awaitUntil settings index hstage
      settings.lossPollInterval.nanos (max time s.now)
    exact Continues.after (hxy.then (.step .signal rfl rfl))
      (hs'.signal.stop (.reading hstage' rfl))

theorem Mirrors.takeResult (hs : Mirrors s x) (hstage : x.stage = .reading)
    (hsignal : x.signalled = false) (r : Read) :
    Continues settings index x r.records (s.takeResult settings index r.result).value := by
  unfold Read.records
  cases r.result with
  | batch records => exact hs.takeResult_batch hstage hsignal records
  | failed e => exact hs.takeResult_failed hstage hsignal e
  | never => exact hs.takeResult_never hstage

theorem Mirrors.read (hs : Mirrors s x) (hstage : x.stage = .reading)
    (hsignal : x.signalled = false) (r : Read) :
    Continues settings index x (if s.receives r then r.records else [])
      (s.read settings index r).value := by
  rw [Session.value_read, Session.receives]
  cases s.shutdownBy (s.wakeTime r.delay) with
  | some time =>
    obtain ⟨y, hxy, hs', hstage', -⟩ := hs.awaitUntil settings index hstage
      settings.lossPollInterval.nanos time
    exact Continues.after (hxy.then (.step .signal rfl rfl))
      (hs'.signal.stop (.reading hstage' rfl))
  | none =>
    obtain ⟨y, hxy, hs', hstage', hsignal'⟩ := hs.awaitUntil settings index hstage
      settings.lossPollInterval.nanos (s.wakeTime r.delay)
    have harrive : Mirrors ((s.awaitUntil settings.lossPollInterval.nanos
        (s.wakeTime r.delay)).value.arrive r) y :=
      ⟨hs'.now, hs'.ingestion, hs'.alike, hs'.timely, hs'.bounded, hs'.tick_pos⟩
    exact Continues.after hxy (harrive.takeResult hstage' (hsignal'.trans hsignal) r)

variable (settings index) in
theorem Mirrors.reads (hs : Mirrors s x) (hstage : x.stage = .reading)
    (hsignal : x.signalled = false) (script : List Read) :
    ∃ y, Reaches settings index x ((s.takenReads settings index script).flatMap Read.records) y ∧
      Mirrors (s.reads settings index script).value.2 y ∧
      (y.stage = .ended (s.reads settings index script).value.1 ∨
        (s.reads settings index script).value.1 = .stuck ∧ y.stage = .reading) := by
  induction script generalizing s x with
  | nil =>
    have hread : Continues settings index x _ _ :=
      hs.read hstage hsignal { result := .failed .closed }
    rw [show Read.records { result := .failed .closed } = [] from rfl, ite_self] at hread
    rw [Session.value_reads_nil]
    generalize (s.read settings index { result := .failed .closed }).value = done at hread ⊢
    obtain ⟨ending, later⟩ := done
    cases ending with
    | none =>
      obtain ⟨y, hxy, hlater, hstage, -⟩ := hread
      exact ⟨y, hxy, hlater, .inr ⟨rfl, hstage⟩⟩
    | some ending => exact hread
  | cons r rest ih =>
    have hread : Continues settings index x _ _ := hs.read hstage hsignal r
    rw [Session.value_reads_cons, Session.takenReads]
    cases hreceives : s.receives r with
    | false =>
      obtain ⟨last, hvalue, -⟩ := Session.read_of_not_receives settings index hreceives
      rw [hreceives, hvalue] at hread
      rw [hvalue]
      exact hread
    | true =>
      rw [hreceives, if_pos rfl] at hread
      rw [if_pos rfl, Session.next]
      generalize (s.read settings index r).value = done at hread ⊢
      obtain ⟨ending, later⟩ := done
      cases ending with
      | none =>
        obtain ⟨y, hxy, hlater, hstage, hsignal⟩ := hread
        obtain ⟨z, hyz, hz⟩ := ih hlater hstage hsignal
        exact ⟨z, hxy.trans hyz, hz⟩
      | some ending =>
        rw [Option.isSome_some, if_pos rfl, List.flatMap_singleton]
        exact hread

/-- Every run on the clock, whatever the reads, the consumer and the time of the shutdown are, is a
course of steps: it reads the records of those of the script's reads that it takes, and leaves the
same counts, the same channel and the same ending behind at the same time. -/
theorem exists_course_of_run (settings : PipelineSettings) (index : Option WorkloadIndex)
    {handoff : Handoff} (hfresh : handoff.placed = []) (script : List Read)
    (shutdownAt : Option Nat) {tick : Nat} (htick : 0 < tick) :
    let done := (Ingestion.run settings index handoff script shutdownAt tick).value
    ∃ reads, (Session.opening settings handoff shutdownAt tick).Took script reads done ∧
      ∃ course x, Run settings (.initial settings handoff) course x ∧
        source course = reads.flatMap Read.records ∧
        (∀ known ∈ indices course, known = index) ∧
        x.now = done.2.now ∧ x.ingestion = done.2.ingestion ∧
        x.channel.placed = done.2.handoff.placed ∧
        (x.stage = .ended done.1 ∨ done.1 = .stuck ∧ x.stage = .reading) := by
  have hqueue : handoff.queue = [] := (List.append_eq_nil_iff.mp hfresh).2
  have hstart : Mirrors (.opening settings handoff shutdownAt tick)
      (.initial settings handoff) := by
    refine ⟨rfl, rfl, .refl handoff, fun _ _ _ => Nat.zero_le _, ?_, htick⟩
    change handoff.queue.length ≤ handoff.capacity
    rw [hqueue]
    exact Nat.zero_le _
  obtain ⟨x, ⟨course, hrun, hsource, hindices⟩, hlater, hends⟩ :=
    hstart.reads settings index rfl rfl script
  exact ⟨_, Session.took_reads settings index _ script, course, x, hrun, hsource, hindices,
    hlater.now, hlater.ingestion, hlater.alike.placed_eq, hends⟩

end Ingestion
end FlowObserver
