import FlowObserver.Proofs.Hub.Accounting
import FlowObserver.Proofs.Ingest.Accounting

/-!
# From the records to the subscribers

Ingestion hands its events over to a task that publishes them one by one on a hub, and that ends all
subscriptions once ingestion has ended and nothing is left on the channel. Ingestion, this task and
the users of the hub take their steps in any order. The workloads that are known do not change, and
no shutdown is signalled.

What ingestion does in a course of all three is a course of its own, and so is what befalls the hub.
Between them the events keep their order: what was taken from the channel is what was published, and
at most one event more.
-/

namespace FlowObserver

namespace Ingestion

/-- No shutdown is signalled, the channel keeps its receiver, and records are joined with these
workloads. -/
def Step.IsCalm (index : Option WorkloadIndex) : Step → Prop
  | .signal | .leave => False
  | .take known => known = index
  | _ => True

theorem Stage.isEnded_between (records : List Bytes) : (between records).isEnded = false := by
  cases records <;> rfl

/-- Ingestion goes on until it has taken all records and has nothing in hand. -/
structure Undisturbed (course : List Step) (x : Activity) : Prop where
  signalled : x.signalled = false
  isGone : x.channel.isGone = false
  exhausted : x.stage.isEnded = true →
    (source course).length ≤ (indices course).length ∧ x.stage.hasEvent = false

variable {settings : PipelineSettings} {index : Option WorkloadIndex} {course : List Step}
  {x y : Activity} {s : Step}

theorem Undisturbed.keep (hx : Undisturbed course x) (hsignalled : y.signalled = x.signalled)
    (hgone : y.channel.isGone = x.channel.isGone) (hended : y.stage.isEnded = false) :
    Undisturbed (course ++ [s]) y where
  signalled := hsignalled.trans hx.signalled
  isGone := hgone.trans hx.isGone
  exhausted h := absurd (hended.symm.trans h) Bool.false_ne_true

/-- Nothing is left of the records where the end comes after the last batch. -/
theorem Accounts.length_source_le (hx : Accounts course x) (hended : x.stage.isEnded = false)
    (hrest : x.stage.rest = []) : (source course).length ≤ (indices course).length := by
  rw [← List.drop_eq_nil_iff, hx.rest hended, hrest]

theorem Undisturbed.step (hx : Undisturbed course x) (hcounts : Accounts course x)
    (hmove : Move settings x s y) (hs : s.IsCalm index) : Undisturbed (course ++ [s]) y := by
  cases hmove with
  | signal | leave => exact hs.elim
  | pass | drain =>
    refine ⟨hx.signalled, hx.isGone, fun hended => ?_⟩
    rw [source_concat, indices_concat]
    simpa [Step.batch, Step.index?] using hx.exhausted hended
  | poll reading hstage => exact hx.keep rfl rfl (by rw [hstage]; rfl)
  | batch | discard | expire => exact hx.keep rfl rfl (Stage.isEnded_between _)
  | closed | failed | retry | start => exact hx.keep rfl rfl rfl
  | place hstage hhand hplace =>
    obtain ⟨-, -, -, rfl⟩ := (Handoff.tryPlace_eq_placed_iff _ _ _ _ _).mp hplace
    exact hx.keep rfl rfl (Stage.isEnded_between _)
  | fatal details hstage hread =>
    refine ⟨hx.signalled, hx.isGone, fun _ => ⟨?_, rfl⟩⟩
    rw [source_concat, indices_concat]
    simpa [Step.batch, Step.index?] using
      hcounts.length_source_le (by rw [hstage]; rfl) (by rw [hstage]; rfl)
  | stop reading hdue =>
    have hsignalled := hx.signalled
    have hgone := hx.isGone
    cases hdue with
    | reading hstage hsignal | retrying hstage hsignal | taking hstage hsignal =>
      rw [hsignal] at hsignalled
      cases hsignalled
    | offering hstage hleft =>
      rw [hleft] at hgone
      cases hgone
    | closing hstage =>
      refine ⟨hsignalled, hgone, fun _ => ⟨?_, rfl⟩⟩
      rw [source_concat, indices_concat]
      simpa [Step.batch, Step.index?] using
        hcounts.length_source_le (by rw [hstage]; rfl) (by rw [hstage]; rfl)

theorem Undisturbed.run {start : Activity} (hstart : Undisturbed [] start)
    (hcounts : Accounts [] start) (hrun : Run settings start course x)
    (hcourse : ∀ s ∈ course, s.IsCalm index) : Undisturbed course x := by
  induction hrun with
  | nil => exact hstart
  | concat hrun hmove ih =>
    rw [List.forall_mem_append, List.forall_mem_singleton] at hcourse
    exact (ih hcourse.1).step (hcounts.run hrun) hmove hcourse.2

theorem Move.taken_eq (hmove : Move settings x s y) (hs : s ≠ .drain) :
    y.channel.taken = x.channel.taken := by
  cases hmove with
  | drain => exact absurd rfl hs
  | place hstage hhand hplace =>
    obtain ⟨-, -, -, rfl⟩ := (Handoff.tryPlace_eq_placed_iff _ _ _ _ _).mp hplace
    rfl
  | _ => rfl

theorem Move.of_ended (hmove : Move settings x s y) (hended : x.stage.isEnded = true) :
    y.stage = x.stage ∧ (s ≠ .drain → y.channel.queue = x.channel.queue) := by
  cases hmove with
  | pass | signal | leave => exact ⟨rfl, fun _ => rfl⟩
  | drain => exact ⟨rfl, fun hs => absurd rfl hs⟩
  | stop reading hdue =>
    cases hdue with
    | reading hstage | retrying hstage | taking hstage | closing hstage | offering hstage =>
      rw [hstage] at hended
      cases hended
  | poll reading hstage | batch records hstage | closed hstage | failed details hstage
  | fatal details hstage | retry hstage | discard index hstage | start index hstage
  | place hstage | expire hstage =>
    rw [hstage] at hended
    cases hended

/-- Where the known workloads do not change, the events are those of the records. -/
theorem eventsOf_taken (hle : (indices course).length ≤ (source course).length)
    (hcourse : ∀ s ∈ course, s.IsCalm index) :
    eventsOf (taken course) =
      ((source course).take (indices course).length).filterMap (eventOf index) := by
  rw [← map_taken hle, List.filterMap_map, eventsOf]
  refine List.filterMap_congr fun record hrecord => ?_
  obtain ⟨hknown, -⟩ := List.of_mem_zip hrecord
  obtain ⟨s, hs, hindex⟩ := List.mem_filterMap.mp hknown
  have hcalm := hcourse s hs
  cases s with
  | take known =>
    obtain rfl : known = index := hcalm
    rw [← Option.some.inj hindex]
    rfl
  | _ => cases hindex

end Ingestion

/-- Ingestion, the task that publishes, and the hub. -/
structure Delivery where
  ingest : Ingestion.Activity
  hub : Hub.Activity
  /-- What was taken from the channel and is not published yet. -/
  carried : Option FlowEvent := none
  finished : Bool := false

namespace Delivery

inductive Step where
  | ingest (s : Ingestion.Step)
  | take
  | publish (e : FlowEvent)
  | finish
  /-- A user of the hub subscribes, receives or leaves. -/
  | use (s : Hub.Step)

namespace Step

def ingestStep? : Step → Option Ingestion.Step
  | ingest s => some s
  | take => some .drain
  | publish _ | finish | use _ => none

def hubStep? : Step → Option Hub.Step
  | publish e => some (.offer e)
  | finish => some .closeAll
  | use s => some s
  | ingest _ | take => none

def published? : Step → Option FlowEvent
  | publish e => some e
  | ingest _ | take | finish | use _ => none

/-- Steps of the publishing task. -/
def isPublishing : Step → Bool
  | take | publish _ | finish => true
  | ingest _ | use _ => false

end Step

/-- What a step makes of the delivery that it is taken in. -/
inductive Move (settings : PipelineSettings) (index : Option WorkloadIndex) (d : Delivery) :
    Step → Delivery → Prop where
  | ingest {s : Ingestion.Step} {y : Ingestion.Activity}
    (hmove : Ingestion.Move settings d.ingest s y) (hs : s.IsCalm index) (hown : s ≠ .drain) :
    Move settings index d (.ingest s) { d with ingest := y }
  | take {e : FlowEvent} {queue : List FlowEvent} {y : Ingestion.Activity}
    (hidle : d.carried = none) (hopen : d.finished = false)
    (hqueue : d.ingest.channel.queue = e :: queue)
    (hmove : Ingestion.Move settings d.ingest .drain y) :
    Move settings index d .take { d with ingest := y, carried := some e }
  | publish {e : FlowEvent} (hcarried : d.carried = some e) :
    Move settings index d (.publish e) { d with hub := d.hub.step (.offer e), carried := none }
  | finish (hidle : d.carried = none) (hopen : d.finished = false)
    (hqueue : d.ingest.channel.queue = []) (hended : d.ingest.stage.isEnded = true) :
    Move settings index d .finish { d with hub := d.hub.step .closeAll, finished := true }
  | use {s : Hub.Step} (hpublished : s.published? = none) (hopen : s ≠ .closeAll) :
    Move settings index d (.use s) { d with hub := d.hub.step s }

/-- The course of steps leads from `d` to the last delivery. -/
inductive Run (settings : PipelineSettings) (index : Option WorkloadIndex) (d : Delivery) :
    List Step → Delivery → Prop where
  | nil : Run settings index d [] d
  | concat {course : List Step} {x y : Delivery} {s : Step} (hrun : Run settings index d course x)
    (hmove : Move settings index x s y) : Run settings index d (course ++ [s]) y

theorem Run.append {settings : PipelineSettings} {index : Option WorkloadIndex}
    {d x y : Delivery} {course later : List Step} (hrun : Run settings index d course x)
    (hlater : Run settings index x later y) : Run settings index d (course ++ later) y := by
  induction hlater with
  | nil => rwa [List.append_nil]
  | concat _ hmove ih =>
    rw [← List.append_assoc]
    exact ih.concat hmove

def initial (settings : PipelineSettings) (capacity : Nat) (hub : Hub.Activity) : Delivery where
  ingest := .initial settings { capacity }
  hub

def ingestCourse (course : List Step) : List Ingestion.Step := course.filterMap Step.ingestStep?

def hubCourse (course : List Step) : List Hub.Step := course.filterMap Step.hubStep?

def published (course : List Step) : List FlowEvent := course.filterMap Step.published?

theorem filterMap_concat {α β : Type} (f : α → Option β) (xs : List α) (x : α) :
    (xs ++ [x]).filterMap f = xs.filterMap f ++ (f x).toList := by
  rw [List.filterMap_append, List.filterMap_cons]
  cases f x <;> rfl

variable {settings : PipelineSettings} {index : Option WorkloadIndex} {course : List Step}
  {d x y : Delivery} {s : Step}

theorem Run.ingest (hrun : Run settings index d course x) :
    Ingestion.Run settings d.ingest (ingestCourse course) x.ingest ∧
      ∀ s ∈ ingestCourse course, s.IsCalm index := by
  induction hrun with
  | nil => exact ⟨.nil, fun s hs => absurd hs List.not_mem_nil⟩
  | concat _ hmove ih =>
    rw [ingestCourse, filterMap_concat]
    cases hmove with
    | ingest hmove hs hown =>
      refine ⟨ih.1.concat hmove, List.forall_mem_append.mpr ⟨ih.2, ?_⟩⟩
      exact List.forall_mem_singleton.mpr hs
    | take hidle hopen hqueue hmove =>
      refine ⟨ih.1.concat hmove, List.forall_mem_append.mpr ⟨ih.2, ?_⟩⟩
      exact List.forall_mem_singleton.mpr trivial
    | publish | finish | use =>
      rw [Step.ingestStep?, Option.toList_none, List.append_nil]
      exact ih

theorem Move.hub_eq (hmove : Move settings index x s y) :
    y.hub = x.hub.run s.hubStep?.toList := by
  cases hmove <;> rfl

theorem Run.hub_eq (hrun : Run settings index d course x) :
    x.hub = d.hub.run (hubCourse course) := by
  induction hrun with
  | nil => rfl
  | concat _ hmove ih =>
    rw [hubCourse, filterMap_concat, Hub.Activity.run_append, hmove.hub_eq, ih]
    rfl

/-- What was taken from the channel is published in the same order, and nothing else is; after the
last event the subscriptions are ended. -/
structure Carries (course : List Step) (x : Delivery) : Prop where
  taken : x.ingest.channel.taken.map (·.2) = published course ++ x.carried.toList
  finished : x.finished = true → x.carried = none ∧ x.ingest.channel.queue = [] ∧
    x.ingest.stage.isEnded = true
  closeAll_iff : .closeAll ∈ hubCourse course ↔ x.finished = true
  meant : ∀ filter, Hub.meant filter (hubCourse course) =
    (published course).filter filter.accepts

theorem carries_initial (settings : PipelineSettings) (capacity : Nat) (hub : Hub.Activity) :
    Carries [] (.initial settings capacity hub) where
  taken := rfl
  finished h := absurd h Bool.false_ne_true
  closeAll_iff := iff_of_false List.not_mem_nil Bool.false_ne_true
  meant _ := rfl

theorem meant_concat_of_none {filter : FlowFilter} {steps : List Hub.Step} {s : Hub.Step}
    (hs : s.published? = none) : Hub.meant filter (steps ++ [s]) = Hub.meant filter steps := by
  rw [Hub.meant_concat, hs]
  split_ifs
  · rfl
  · exact List.append_nil _

theorem Carries.step (hx : Carries course x) (hmove : Move settings index x s y) :
    Carries (course ++ [s]) y := by
  have hpublished : published (course ++ [s]) = published course ++ s.published?.toList :=
    filterMap_concat _ _ _
  have hhub : hubCourse (course ++ [s]) = hubCourse course ++ s.hubStep?.toList :=
    filterMap_concat _ _ _
  obtain ⟨htaken, hfinished, hcloseAll, hmeant⟩ := hx
  cases hmove with
  | ingest hmove hs hown =>
    rw [Step.published?, Option.toList_none, List.append_nil] at hpublished
    rw [Step.hubStep?, Option.toList_none, List.append_nil] at hhub
    refine ⟨?_, fun h => ?_, by rw [hhub, hcloseAll], by rw [hhub, hpublished]; exact hmeant⟩
    · rw [hpublished, hmove.taken_eq hown, htaken]
    · obtain ⟨hcarried, hqueue, hended⟩ := hfinished h
      obtain ⟨hstage, hsame⟩ := hmove.of_ended hended
      exact ⟨hcarried, (hsame hown).trans hqueue, (congrArg _ hstage).trans hended⟩
  | take hidle hopen hqueue hmove =>
    rw [Step.published?, Option.toList_none, List.append_nil] at hpublished
    rw [Step.hubStep?, Option.toList_none, List.append_nil] at hhub
    refine ⟨?_, fun h => ?_, by rw [hhub, hcloseAll], by rw [hhub, hpublished]; exact hmeant⟩
    · cases hmove with
      | drain hqueue' =>
        obtain ⟨rfl, -⟩ := List.cons.inj (hqueue.symm.trans hqueue')
        rw [hidle, Option.toList_none, List.append_nil] at htaken
        rw [hpublished, List.map_append, htaken]
        rfl
    · exact absurd (hopen.symm.trans h) Bool.false_ne_true
  | @publish e hcarried =>
    have hopen : ¬x.finished = true := by
      intro h
      rw [(hfinished h).1] at hcarried
      cases hcarried
    refine ⟨?_, fun h => absurd h hopen, ?_, fun filter => ?_⟩
    · rw [hpublished, htaken, hcarried]
      exact (List.append_nil _).symm
    · rw [hhub, ← hcloseAll]
      simp [Step.hubStep?]
    · rw [hhub, hpublished, List.filter_append, ← hmeant, Step.hubStep?, Option.toList_some,
        Hub.meant_concat, if_neg (mt hcloseAll.mp hopen)]
      rfl
  | finish hidle hopen hqueue hended =>
    rw [Step.published?, Option.toList_none, List.append_nil] at hpublished
    refine ⟨by rw [hpublished, htaken], fun _ => ⟨hidle, hqueue, hended⟩, ?_, fun filter => ?_⟩
    · rw [hhub]
      simp [Step.hubStep?]
    · rw [hhub, hpublished, Step.hubStep?, Option.toList_some, meant_concat_of_none rfl, hmeant]
  | use hnone hopen =>
    rw [Step.published?, Option.toList_none, List.append_nil] at hpublished
    rw [Step.hubStep?, Option.toList_some] at hhub
    refine ⟨by rw [hpublished, htaken], hfinished, ?_, fun filter => ?_⟩
    · rw [hhub, ← hcloseAll, List.mem_append, List.mem_singleton]
      exact or_iff_left (Ne.symm hopen)
    · rw [hhub, hpublished, meant_concat_of_none hnone, hmeant]

theorem Carries.run (hd : Carries [] d) (hrun : Run settings index d course x) :
    Carries course x := by
  induction hrun with
  | nil => exact hd
  | concat _ hmove ih => exact ih.step hmove

/-- How many steps the publishing task has to take if ingestion has ended. -/
def left (d : Delivery) : Nat :=
  2 * d.ingest.channel.queue.length + d.carried.toList.length + if d.finished then 0 else 1

theorem Move.left_eq (hmove : Move settings index x s y)
    (hended : x.ingest.stage.isEnded = true) :
    y.ingest.stage.isEnded = true ∧ y.left + (if s.isPublishing then 1 else 0) = x.left := by
  cases hmove with
  | ingest hmove hs hown =>
    obtain ⟨hstage, hqueue⟩ := hmove.of_ended hended
    refine ⟨(congrArg _ hstage).trans hended, ?_⟩
    simp only [left, hqueue hown]
    rfl
  | take hidle hopen hqueue hmove =>
    cases hmove with
    | drain hqueue' =>
      refine ⟨hended, ?_⟩
      simp only [left, hidle, hopen, hqueue', Step.isPublishing, List.length_cons, if_true,
        Option.toList_none, Option.toList_some, List.length_nil]
      omega
  | publish hcarried =>
    refine ⟨hended, ?_⟩
    simp only [left, hcarried, Step.isPublishing, List.length_cons, if_true, Option.toList_none,
      Option.toList_some, List.length_nil]
    omega
  | finish hidle hopen hqueue =>
    refine ⟨hended, ?_⟩
    simp [left, hidle, hopen, hqueue, Step.isPublishing]
  | use => exact ⟨hended, rfl⟩

theorem Run.left_eq (hrun : Run settings index x course y)
    (hended : x.ingest.stage.isEnded = true) :
    y.ingest.stage.isEnded = true ∧ y.left + course.countP Step.isPublishing = x.left := by
  induction hrun with
  | nil => exact ⟨hended, rfl⟩
  | concat _ hmove ih =>
    obtain ⟨hended', hleft⟩ := ih
    obtain ⟨hlast, hleft'⟩ := hmove.left_eq hended'
    refine ⟨hlast, ?_⟩
    rw [List.countP_append, List.countP_singleton, ← hleft, ← hleft']
    omega

theorem Carries.left_eq_zero_iff (hx : Carries course x) : x.left = 0 ↔ x.finished = true := by
  unfold left
  constructor
  · intro h
    by_contra hopen
    rw [if_neg hopen] at h
    omega
  · intro h
    obtain ⟨hcarried, hqueue, -⟩ := hx.finished h
    simp [h, hcarried, hqueue]

/-- Once ingestion has ended, the publishing task is never stuck. -/
theorem exists_publishing (settings : PipelineSettings) (index : Option WorkloadIndex)
    (hended : x.ingest.stage.isEnded = true) (hopen : x.finished = false) :
    ∃ s y, s.isPublishing = true ∧ Move settings index x s y := by
  cases hcarried : x.carried with
  | some e => exact ⟨_, _, rfl, .publish hcarried⟩
  | none =>
    cases hqueue : x.ingest.channel.queue with
    | nil => exact ⟨_, _, rfl, .finish hcarried hopen hqueue hended⟩
    | cons e queue => exact ⟨_, _, rfl, .take hcarried hopen hqueue (.drain hqueue)⟩

end Delivery
end FlowObserver
