import FlowObserver.Proofs.Ingest.Clock
import FlowObserver.Proofs.Ingest.Offers

/-!
# What becomes of every record

Every record that is taken is too short, malformed, handed off, given up, or the one in hand. The
events on the channel are those that got their place, in the order of the source. An event is given
up only after the channel was full all the time that it was offered, and it stays in hand only when
the channel is closed.
-/

namespace FlowObserver
namespace Ingestion

section

variable {course : List Step} {s : Step}

theorem zip_indices_append {first : List Bytes} (h : (indices course).length = first.length)
    (later : List Bytes) :
    (indices course).zip (first ++ later) = (indices course).zip first := by
  have hzip : (indices course ++ []).zip (first ++ later) =
      (indices course).zip first ++ [].zip later := List.zip_append h
  rwa [List.append_nil, List.zip_nil_left, List.append_nil] at hzip

theorem length_indices_eq (hle : (indices course).length ≤ (source course).length) :
    (indices course).length = ((source course).take (indices course).length).length := by
  rw [List.length_take, Nat.min_eq_left hle]

/-- A taking takes the first record of the source that was not taken before. -/
theorem taken_concat_take {index : Option WorkloadIndex} {bytes : Bytes} {rest : List Bytes}
    (hrest : (source course).drop (indices course).length = bytes :: rest) :
    taken (course ++ [.take index]) = taken course ++ [(index, bytes)] := by
  have hlt : (indices course).length < (source course).length := by
    rw [← Nat.not_le, ← List.drop_eq_nil_iff, hrest]
    exact List.cons_ne_nil _ _
  obtain ⟨first, hlength, hsource⟩ : ∃ first : List Bytes,
      (indices course).length = first.length ∧ source course = first ++ bytes :: rest := by
    refine ⟨(source course).take (indices course).length, length_indices_eq hlt.le, ?_⟩
    rw [← hrest, List.take_append_drop]
  rw [taken, taken, indices_concat, source_concat, hsource, zip_indices_append hlength]
  simp only [Step.batch, Step.index?, Option.toList_some, List.append_nil]
  rw [List.zip_append hlength]
  rfl

theorem taken_concat (hle : (indices course).length ≤ (source course).length)
    (hindex : s.index? = none) : taken (course ++ [s]) = taken course := by
  have hlength := length_indices_eq hle
  rw [taken, taken, indices_concat, source_concat, hindex, Option.toList_none, List.append_nil]
  rw [← List.take_append_drop (indices course).length (source course), List.append_assoc]
  rw [zip_indices_append hlength, zip_indices_append hlength]

theorem map_taken (hle : (indices course).length ≤ (source course).length) :
    (taken course).map (·.2) = (source course).take (indices course).length := by
  have hlength := length_indices_eq hle
  have htaken : taken course =
      (indices course).zip ((source course).take (indices course).length) := by
    rw [← zip_indices_append hlength ((source course).drop (indices course).length),
      List.take_append_drop]
    rfl
  rw [htaken]
  exact List.map_snd_zip hlength.ge

end

section

variable {handled : List FlowEvent} {fates : List Bool}

theorem placedOf_append (h : handled.length = fates.length) (later : List FlowEvent) :
    placedOf (handled ++ later) fates = placedOf handled fates := by
  have hzip : (handled ++ later).zip (fates ++ []) = handled.zip fates ++ later.zip [] :=
    List.zip_append h
  rw [List.append_nil, List.zip_nil_right, List.append_nil] at hzip
  rw [placedOf, hzip, placedOf]

theorem placedOf_concat (h : handled.length = fates.length) (e : FlowEvent) (placed : Bool) :
    placedOf (handled ++ [e]) (fates ++ [placed]) =
      placedOf handled fates ++ if placed then [e] else [] := by
  rw [placedOf, List.zip_append h, List.filter_append, List.map_append]
  cases placed <;> rfl

theorem length_placedOf (h : handled.length = fates.length) :
    (placedOf handled fates).length = fates.count true := by
  have hfates : (handled.zip fates).map (·.2) = fates := List.map_snd_zip h.ge
  calc (placedOf handled fates).length
      = (handled.zip fates).countP (·.2) := by
        rw [placedOf, List.length_map, List.countP_eq_length_filter]
    _ = ((handled.zip fates).map (·.2)).countP id := by
        rw [List.countP_map]
        rfl
    _ = fates.count true := by
        rw [hfates, List.count]
        congr 1
        funext b
        cases b <;> rfl

theorem placedOf_sublist (h : handled.length = fates.length) :
    (placedOf handled fates).Sublist handled := by
  have hzip : (handled.zip fates).map (·.1) = handled := List.map_fst_zip h.le
  have hsub := (List.filter_sublist (p := (·.2)) (l := handled.zip fates)).map (·.1)
  rwa [hzip] at hsub

end

/-- What a course tells of its records is what is counted, placed and in hand after it. -/
structure Accounts (course : List Step) (x : Activity) : Prop where
  indices_le : (indices course).length ≤ (source course).length
  rest : x.stage.isEnded = false → (source course).drop (indices course).length = x.stage.rest
  processed : Processed (taken course) x.ingestion
  inHand : x.ingestion.inHand.isSome = x.stage.hasEvent
  handedOff : x.ingestion.stats.handedOff = (fates course).count true
  decided : ∃ handled, eventsOf (taken course) = handled ++ x.ingestion.inHand.toList ∧
    handled.length = (fates course).length ∧ x.channel.placed = placedOf handled (fates course)

theorem accounts_initial (settings : PipelineSettings) {channel : Handoff}
    (hfresh : channel.placed = []) : Accounts [] (.initial settings channel) where
  indices_le := Nat.le_refl _
  rest _ := rfl
  processed := ⟨rfl, rfl, rfl, rfl⟩
  inHand := rfl
  handedOff := rfl
  decided := ⟨[], rfl, rfl, hfresh⟩

section

variable {course : List Step} {x y : Activity} {s : Step}

theorem Accounts.keep (hx : Accounts course x) (hindex : s.index? = none) (hfate : s.fate? = none)
    (hsame : SameRecords x.ingestion y.ingestion)
    (hplaced : y.channel.placed = x.channel.placed)
    (hevent : y.stage.hasEvent = x.stage.hasEvent)
    (hrest : y.stage.isEnded = false →
      (source course ++ s.batch).drop (indices course).length = y.stage.rest) :
    Accounts (course ++ [s]) y := by
  have hindices : indices (course ++ [s]) = indices course := by
    rw [indices_concat, hindex, Option.toList_none, List.append_nil]
  have hfates : fates (course ++ [s]) = fates course := by
    rw [fates_concat, hfate, Option.toList_none, List.append_nil]
  have htaken : taken (course ++ [s]) = taken course := taken_concat hx.indices_le hindex
  constructor
  · rw [hindices, source_concat, List.length_append]
    exact Nat.le_add_right_of_le hx.indices_le
  · rw [hindices, source_concat]
    exact hrest
  · rw [htaken]
    exact hsame.processed hx.processed
  · rw [hsame.inHand, hevent]
    exact hx.inHand
  · obtain ⟨lost, hstats⟩ := hsame.stats
    rw [hfates, hstats]
    exact hx.handedOff
  · rw [htaken, hfates, hsame.inHand, hplaced]
    exact hx.decided

theorem Accounts.idle (hx : Accounts course x) (hbatch : s.batch = []) (hindex : s.index? = none)
    (hfate : s.fate? = none) (hsame : SameRecords x.ingestion y.ingestion)
    (hplaced : y.channel.placed = x.channel.placed)
    (hevent : y.stage.hasEvent = x.stage.hasEvent)
    (hrest : y.stage.isEnded = false → x.stage.isEnded = false ∧ y.stage.rest = x.stage.rest) :
    Accounts (course ++ [s]) y := by
  refine hx.keep hindex hfate hsame hplaced hevent fun hended => ?_
  obtain ⟨hx', hrest⟩ := hrest hended
  rw [hbatch, List.append_nil, hx.rest hx', hrest]

theorem Accounts.take (hx : Accounts course x) {index : Option WorkloadIndex} {bytes : Bytes}
    {rest : List Bytes} (hstage : x.stage = .taking (bytes :: rest))
    (hingestion : y.ingestion = (x.ingestion.takeRecord index bytes).value)
    (hchannel : y.channel = x.channel)
    (hevent : y.stage.hasEvent = y.ingestion.inHand.isSome) (hrest : y.stage.rest = rest) :
    Accounts (course ++ [.take index]) y := by
  have hdrop : (source course).drop (indices course).length = bytes :: rest := by
    rw [hx.rest (by rw [hstage]; rfl), hstage]
    rfl
  have hlt : (indices course).length < (source course).length := by
    rw [← Nat.not_le, ← List.drop_eq_nil_iff, hdrop]
    exact List.cons_ne_nil _ _
  have hsource : source (course ++ [.take index]) = source course := by
    rw [source_concat]
    exact List.append_nil _
  have hindices : indices (course ++ [.take index]) = indices course ++ [index] :=
    indices_concat _ _
  have hfates : fates (course ++ [.take index]) = fates course := by
    rw [fates_concat]
    exact List.append_nil _
  have htaken : taken (course ++ [.take index]) = taken course ++ [(index, bytes)] :=
    taken_concat_take hdrop
  have hnone : x.ingestion.inHand = none := by
    rw [← Option.not_isSome_iff_eq_none, hx.inHand, hstage]
    exact Bool.false_ne_true
  have hprocessed := hx.processed.takeRecord hnone index bytes
  rw [← hingestion] at hprocessed
  rw [value_takeRecord, hnone, Option.or_none] at hingestion
  obtain ⟨handled, hevents, hlength, hplaced⟩ := hx.decided
  rw [hnone, Option.toList_none, List.append_nil] at hevents
  constructor
  · rw [hsource, hindices, List.length_append]
    exact hlt
  · intro _
    rw [hsource, hindices, List.length_append, hrest, List.length_singleton, ← List.drop_drop,
      hdrop]
    rfl
  · rwa [htaken]
  · exact hevent.symm
  · rw [hfates, hingestion]
    exact hx.handedOff
  · refine ⟨handled, ?_, ?_, ?_⟩
    · rw [htaken, eventsOf_concat, hevents, hingestion]
    · rw [hfates, hlength]
    · rw [hfates, hchannel, hplaced]

/-- The event in hand gets its place, or it is given up. -/
theorem Accounts.decide (hx : Accounts course x) {placed : Bool} (hbatch : s.batch = [])
    (hindex : s.index? = none) (hfate : s.fate? = some placed) {e : FlowEvent}
    (hhand : x.ingestion.inHand = some e)
    (hingestion : y.ingestion =
      if placed then x.ingestion.handedOff.value else x.ingestion.handoffTimedOut.value)
    (hplaced : y.channel.placed = x.channel.placed ++ if placed then [e] else [])
    (hevent : y.stage.hasEvent = false) (hended : x.stage.isEnded = false)
    (hrest : y.stage.rest = x.stage.rest) : Accounts (course ++ [s]) y := by
  have hsource : source (course ++ [s]) = source course := by
    rw [source_concat, hbatch, List.append_nil]
  have hindices : indices (course ++ [s]) = indices course := by
    rw [indices_concat, hindex, Option.toList_none, List.append_nil]
  have hfates : fates (course ++ [s]) = fates course ++ [placed] := by
    rw [fates_concat, hfate, Option.toList_some]
  have htaken : taken (course ++ [s]) = taken course := taken_concat hx.indices_le hindex
  have hsome : x.ingestion.inHand.isSome = true := by
    rw [hhand]
    rfl
  have hnone : y.ingestion.inHand = none := by
    rw [hingestion]
    split_ifs <;> rfl
  obtain ⟨handled, hevents, hlength, hchannel⟩ := hx.decided
  rw [hhand, Option.toList_some] at hevents
  constructor
  · rw [hsource, hindices]
    exact hx.indices_le
  · intro _
    rw [hsource, hindices, hrest]
    exact hx.rest hended
  · rw [htaken, hingestion]
    split_ifs
    · exact hx.processed.handedOff hsome
    · exact hx.processed.handoffTimedOut hsome
  · rw [hnone, hevent]
    rfl
  · rw [hfates, List.count_append, ← hx.handedOff, hingestion]
    cases placed <;> rfl
  · refine ⟨handled ++ [e], ?_, ?_, ?_⟩
    · rw [htaken, hevents, hnone, Option.toList_none, List.append_nil]
    · rw [hfates, List.length_append, List.length_append, hlength]
      rfl
    · rw [hfates, hplaced, hchannel, placedOf_concat hlength]

end

variable {settings : PipelineSettings} {course : List Step} {x y : Activity} {s : Step}

theorem Accounts.step (hx : Accounts course x) (hmove : Move settings x s y) :
    Accounts (course ++ [s]) y := by
  cases hmove with
  | pass | signal | leave => exact hx.idle rfl rfl rfl (.refl _) rfl rfl fun h => ⟨h, rfl⟩
  | drain hqueue =>
    refine hx.idle rfl rfl rfl (.refl _) ?_ rfl fun h => ⟨h, rfl⟩
    simp [Handoff.placed, hqueue]
  | poll reading hstage =>
    exact hx.idle rfl rfl rfl (sameRecords_pollLost _ _) rfl rfl fun h => ⟨h, rfl⟩
  | batch records hstage =>
    refine hx.keep rfl rfl ⟨⟨_, rfl⟩, rfl⟩ rfl ?_ fun _ => ?_
    · rw [hstage, Stage.hasEvent_between]
      rfl
    · -- a read comes only after all that was read before has been taken
      have hread : (source course).drop (indices course).length = [] := by
        rw [hx.rest (by rw [hstage]; rfl), hstage]
        rfl
      rw [List.drop_append_of_le_length hx.indices_le, hread, Stage.rest_between]
      rfl
  | closed hstage =>
    exact hx.idle rfl rfl rfl (.refl _) rfl (by rw [hstage]; rfl)
      fun _ => by rw [hstage]; exact ⟨rfl, rfl⟩
  | failed details hstage hread =>
    have hsame := x.ingestion.sameRecords_readFailed settings.maxConsecutiveFailures
      (.transient details)
    rw [hread] at hsame
    exact hx.idle rfl rfl rfl hsame rfl (by rw [hstage]; rfl)
      fun _ => by rw [hstage]; exact ⟨rfl, rfl⟩
  | fatal details hstage hread =>
    have hsame := x.ingestion.sameRecords_readFailed settings.maxConsecutiveFailures
      (.transient details)
    rw [hread] at hsame
    exact hx.idle rfl rfl rfl hsame rfl (by rw [hstage]; rfl) fun h => absurd h Bool.noConfusion
  | retry hstage hwake =>
    exact hx.idle rfl rfl rfl (.refl _) rfl (by rw [hstage]; rfl)
      fun _ => by rw [hstage]; exact ⟨rfl, rfl⟩
  | discard index hstage hsignal hhand =>
    refine hx.take hstage rfl rfl ?_ (Stage.rest_between _)
    rw [hhand, Stage.hasEvent_between]
    rfl
  | start index hstage hsignal hhand =>
    refine hx.take hstage rfl rfl ?_ rfl
    rw [hhand]
    rfl
  | place hstage hhand hplace =>
    obtain ⟨-, -, -, rfl⟩ := (Handoff.tryPlace_eq_placed_iff _ _ _ _ _).mp hplace
    exact hx.decide rfl rfl rfl hhand (if_pos rfl).symm (x.channel.placed_place _)
      (Stage.hasEvent_between _) (by rw [hstage]; rfl)
      (by rw [hstage]; exact Stage.rest_between _)
  | expire hstage hhand hplace hlate =>
    exact hx.decide rfl rfl rfl hhand (if_neg Bool.false_ne_true).symm (List.append_nil _).symm
      (Stage.hasEvent_between _) (by rw [hstage]; rfl)
      (by rw [hstage]; exact Stage.rest_between _)
  | @stop reading exit hdue =>
    refine hx.idle rfl rfl rfl (sameRecords_stopped _ reading exit) rfl ?_
      fun h => absurd h Bool.noConfusion
    cases hdue with
    | reading hstage | retrying hstage | taking hstage | closing hstage | offering hstage =>
      rw [hstage]
      rfl

theorem Accounts.run (hx : Accounts [] x) (hrun : Run settings x course y) :
    Accounts course y := by
  induction hrun with
  | nil => exact hx
  | concat _ hmove ih => exact ih.step hmove

/-- What becomes of the records that are taken in a course, up to any moment of it. -/
structure Accounted (course : List Step) (x : Activity) : Prop where
  balanced : x.ingestion.stats.records = x.ingestion.stats.truncated + x.ingestion.stats.malformed +
    x.ingestion.stats.handedOff + x.ingestion.stats.handoffDropped +
    if x.ingestion.inHand.isSome then 1 else 0
  /-- At the end an event is in hand exactly if the channel was found closed. -/
  inHand_iff : ∀ ending, x.stage = .ended ending →
    (x.ingestion.inHand.isSome = true ↔ ending = .exit .handoffClosed)
  gone : x.stage = .ended (.exit .handoffClosed) → x.channel.isGone = true
  /-- Records are taken in the order of the source, each once, and none is counted twice. -/
  taken_prefix : (taken course).map (·.2) <+: source course
  processed : Processed (taken course) x.ingestion
  /-- All events but the one in hand have been decided on, in order. -/
  decided : (eventsOf (taken course)).length =
    (fates course).length + if x.ingestion.inHand.isSome then 1 else 0
  placed : x.channel.placed = placedOf (eventsOf (taken course)) (fates course)
  ordered : x.channel.placed.Sublist (eventsOf (taken course))
  handedOff : x.channel.placed.length = x.ingestion.stats.handedOff

theorem Accounts.accounted {start : Activity} (hx : Accounts course x)
    (hrun : Run settings start course x) (hstart : start.stage = .reading) :
    Accounted course x := by
  obtain ⟨handled, hevents, hlength, hplaced⟩ := hx.decided
  have hhand : x.ingestion.inHand.toList.length = if x.ingestion.inHand.isSome then 1 else 0 := by
    cases x.ingestion.inHand <;> rfl
  constructor
  · rw [← hhand]
    exact hx.processed.balanced
  · intro ending hending
    rw [hx.inHand, hending]
    exact decide_eq_true_iff
  · exact gone_of_handoffClosed hrun hstart
  · rw [map_taken hx.indices_le]
    exact List.take_prefix _ _
  · exact hx.processed
  · rw [hevents, List.length_append, hlength, hhand]
  · rw [hplaced, hevents, placedOf_append hlength]
  · rw [hplaced, hevents]
    exact (placedOf_sublist hlength).trans (List.sublist_append_left _ _)
  · rw [hplaced, length_placedOf hlength, hx.handedOff]

/-- Whatever is read, known, taken from the channel and signalled at whatever time: every record is
accounted for at every moment, an event is given up only after its channel was open and full for the
whole time that it was offered, and each run on the clock is one of these courses: its source is what
the reads bring that it takes. -/
theorem records_accounted_for (settings : PipelineSettings) {channel : Handoff}
    (hfresh : channel.placed = []) :
    (∀ course x, Run settings (.initial settings channel) course x → Accounted course x) ∧
    (∀ course y z, Run settings (.initial settings channel) course y → Move settings y .expire z →
      ∃ before index waiting x, course = before ++ .take index :: waiting ∧
        Run settings (.initial settings channel) (before ++ [.take index]) x ∧
        x.now + settings.handoffTimeout.nanos ≤ y.now ∧
        ∀ first later w, waiting = first ++ later → Run settings x first w →
          Run settings w later y →
          w.ingestion.inHand = x.ingestion.inHand ∧ w.channel.isGone = false ∧
            w.channel.isFull = true) ∧
    ∀ index script shutdownAt tick, 0 < tick →
      let done := (Ingestion.run settings index channel script shutdownAt tick).value
      ∃ reads, (Session.opening settings channel shutdownAt tick).Took script reads done ∧
        ∃ course x, Run settings (.initial settings channel) course x ∧
          source course = reads.flatMap Read.records ∧
          (∀ known ∈ indices course, known = index) ∧
          x.now = done.2.now ∧ x.ingestion = done.2.ingestion ∧
          x.channel.placed = done.2.handoff.placed ∧
          (x.stage = .ended done.1 ∨ done.1 = .stuck ∧ x.stage = .reading) := by
  refine ⟨?_, ?_, ?_⟩
  · intro course x hrun
    exact ((accounts_initial settings hfresh).run hrun).accounted hrun rfl
  · intro course y z hrun hmove
    exact full_until_expired hrun rfl hmove
  · intro index script shutdownAt tick htick
    exact exists_course_of_run settings index hfresh script shutdownAt htick

def forwardedRecord : Bytes :=
  [10, 0, 0, 1, 10, 0, 0, 2, 80, 0, 81, 0, 6, 1, 0, 0, 0, 0, 0, 0, 0, 0, 0, 0]

/-- Two events for one place, a record that is cut off, and the end of the event channel. -/
def squeeze : List Step :=
  [.read (.ok [forwardedRecord, forwardedRecord, [10, 0, 0, 1]]), .take none, .place, .take none,
    .pass 1000000000, .expire, .take none, .read (.error .closed), .stop (.ok 0)]

theorem records_accounted_for_squeeze :
    ({ capacity := 1 } : Handoff).placed = [] ∧
      ∃ x, Run {} (.initial {} { capacity := 1 }) squeeze x ∧ Accounted squeeze x ∧
        x.ingestion.stats = { records := 3, truncated := 1, handedOff := 1, handoffDropped := 1 } ∧
        x.stage = .ended (.exit .channelClosed) := by
  have hfresh : ({ capacity := 1 } : Handoff).placed = [] := rfl
  have hread : Run {} (.initial {} { capacity := 1 }) _ _ :=
    Run.nil.concat (.batch [forwardedRecord, forwardedRecord, [10, 0, 0, 1]] rfl)
  have hplaced := (hread.concat (.start none rfl rfl rfl)).concat (.place rfl rfl rfl)
  have hpassed := (hplaced.concat (.start none rfl rfl rfl)).concat (.pass 1000000000)
  have hexpired := hpassed.concat (.expire rfl rfl rfl (by decide))
  have hdiscarded := hexpired.concat (.discard none rfl rfl rfl)
  have hrun := (hdiscarded.concat (.closed rfl)).concat (.stop (.ok 0) (.closing rfl))
  exact ⟨hfresh, _, hrun, (records_accounted_for {} hfresh).1 squeeze _ hrun, rfl, rfl⟩

end Ingestion
end FlowObserver
