import FlowObserver.Hub.Told
import FlowObserver.Proofs.Delivery.Course

/-!
# Runs on the clock as deliveries

Where ingestion runs on the clock until its event channel is closed, and what it placed is published
afterwards, all of this is a course of ingestion, the publishing task and the hub: the signals and
leavings in it make no difference to ingestion and can be left out, and what is queued at the end can
be taken one by one.
-/

namespace FlowObserver
namespace Ingestion

/-- The same activity with no shutdown signalled and a receiver that does nothing of its own. -/
def Activity.calmed (x : Activity) : Activity :=
  { x with
    signalled := false
    channel := { x.channel with consumer := .idle, pause := fun _ => 0 } }

theorem calmed_initial (settings : PipelineSettings) {handoff : Handoff}
    (hfresh : handoff.placed = []) :
    (Activity.initial settings handoff).calmed =
      .initial settings { capacity := handoff.capacity } := by
  obtain ⟨htaken, hqueue⟩ := List.append_eq_nil_iff.mp hfresh
  unfold Activity.calmed Activity.initial
  dsimp only
  rw [List.map_eq_nil_iff.mp htaken, hqueue]

/-- Ends that only a shutdown or a receiver that leaves can bring about. -/
def Ending.isDisturbed : Ending → Prop
  | .exit .shutdown | .exit .handoffClosed => True
  | _ => False

variable {settings : PipelineSettings} {index : Option WorkloadIndex} {course : List Step}
  {x y : Activity} {s : Step}

theorem Step.isCalm_iff : s.IsCalm index ↔
    s ≠ .signal ∧ s ≠ .leave ∧ ∀ known, s.index? = some known → known = index := by
  cases s <;> simp [Step.IsCalm, Step.index?]

/-- A step is possible without any disturbance, or it is one and changes nothing else. -/
theorem Move.calmed (hmove : Move settings x s y)
    (hend : ∀ ending, y.stage = .ended ending → ¬ending.isDisturbed) :
    (s ≠ .signal ∧ s ≠ .leave ∧ Move settings x.calmed s y.calmed) ∨
      ((s = .signal ∨ s = .leave) ∧ y.calmed = x.calmed) := by
  cases hmove with
  | signal => exact .inr ⟨.inl rfl, rfl⟩
  | leave => exact .inr ⟨.inr rfl, rfl⟩
  | pass nanos => exact .inl ⟨nofun, nofun, .pass nanos⟩
  | drain hqueue => exact .inl ⟨nofun, nofun, .drain hqueue⟩
  | poll reading hstage => exact .inl ⟨nofun, nofun, .poll reading hstage⟩
  | batch records hstage => exact .inl ⟨nofun, nofun, .batch records hstage⟩
  | closed hstage => exact .inl ⟨nofun, nofun, .closed hstage⟩
  | failed details hstage hread => exact .inl ⟨nofun, nofun, .failed details hstage hread⟩
  | fatal details hstage hread => exact .inl ⟨nofun, nofun, .fatal details hstage hread⟩
  | retry hstage hwake => exact .inl ⟨nofun, nofun, .retry hstage hwake⟩
  | discard index hstage hsignal hhand =>
    exact .inl ⟨nofun, nofun, .discard index hstage rfl hhand⟩
  | start index hstage hsignal hhand => exact .inl ⟨nofun, nofun, .start index hstage rfl hhand⟩
  | place hstage hhand hplace =>
    obtain ⟨-, hroom, -, rfl⟩ := (Handoff.tryPlace_eq_placed_iff _ _ _ _ _).mp hplace
    refine .inl ⟨nofun, nofun, .place hstage hhand ?_⟩
    exact (Handoff.tryPlace_eq_placed_iff _ _ _ _ _).mpr ⟨rfl, hroom, rfl, rfl⟩
  | expire hstage hhand hplace hlate =>
    obtain ⟨-, hfull⟩ := (Handoff.tryPlace_eq_none_iff _ _ _).mp hplace
    refine .inl ⟨nofun, nofun, .expire hstage hhand ?_ hlate⟩
    exact (Handoff.tryPlace_eq_none_iff _ _ _).mpr ⟨rfl, hfull⟩
  | @stop reading exit hdue =>
    have hexit : ¬(Ending.exit exit).isDisturbed := hend _ rfl
    cases hdue with
    | closing hstage => exact .inl ⟨nofun, nofun, .stop reading (.closing hstage)⟩
    | reading | retrying | taking | offering => exact absurd trivial hexit

theorem Run.calmed {start : Activity} (hrun : Run settings start course x)
    (hend : ∀ ending, x.stage = .ended ending → ¬ending.isDisturbed)
    (hindex : ∀ known ∈ indices course, known = index) :
    ∃ calm, Run settings start.calmed calm x.calmed ∧ (∀ s ∈ calm, s.IsCalm index) ∧
      source calm = source course := by
  induction hrun with
  | nil => exact ⟨[], .nil, fun s hs => absurd hs List.not_mem_nil, rfl⟩
  | @concat course x y s hrun hmove ih =>
    rw [indices_concat, List.forall_mem_append] at hindex
    have hbefore : ∀ ending, x.stage = .ended ending → ¬ending.isDisturbed := by
      intro ending hstage
      refine hend ending ?_
      rw [(hmove.of_ended (by rw [hstage]; rfl)).1, hstage]
    obtain ⟨calm, hcalm, hsteps, hsource⟩ := ih hbefore hindex.1
    rw [source_concat]
    rcases hmove.calmed hend with ⟨hsignal, hleave, hmove⟩ | ⟨hs, hsame⟩
    · refine ⟨calm ++ [s], hcalm.concat hmove, ?_, by rw [source_concat, hsource]⟩
      rw [List.forall_mem_append, List.forall_mem_singleton, Step.isCalm_iff]
      refine ⟨hsteps, hsignal, hleave, fun known hknown => hindex.2 known ?_⟩
      rw [hknown]
      exact List.mem_singleton_self known
    · rw [hsame]
      refine ⟨calm, hcalm, hsteps, ?_⟩
      rcases hs with rfl | rfl <;> exact hsource.trans (List.append_nil _).symm

theorem exists_drained (settings : PipelineSettings) (x : Activity) :
    ∃ course y, Run settings x course y ∧ (∀ s ∈ course, s = .drain) ∧ y.stage = x.stage ∧
      y.ingestion = x.ingestion ∧ y.channel.queue = [] ∧ y.channel.placed = x.channel.placed := by
  cases hqueue : x.channel.queue with
  | nil => exact ⟨[], x, .nil, fun s hs => absurd hs List.not_mem_nil, rfl, rfl, hqueue, rfl⟩
  | cons e queue =>
    obtain ⟨course, y, hrun, hcourse, hstage, hingestion, hempty, hplaced⟩ := exists_drained settings
      { x with channel := { x.channel with queue, taken := x.channel.taken ++ [(x.now, e)] } }
    refine ⟨.drain :: course, y, (Run.single (.drain hqueue)).append hrun,
      List.forall_mem_cons.mpr ⟨rfl, hcourse⟩, hstage, hingestion, hempty, hplaced.trans ?_⟩
    simp [Handoff.placed, hqueue]
termination_by x.channel.queue.length
decreasing_by simp [hqueue]

end Ingestion

namespace Hub

theorem value_distribute (h : Hub) (events : List FlowEvent) :
    (h.distribute events).value = (events.foldl publish h).closeAll := by
  simp only [distribute, Told.value_bind, Told.value_foldlM, Told.value_pure]
  rfl

theorem Activity.Sound.hub_run_offers {x : Activity} (hx : x.Sound) (events : List FlowEvent) :
    (x.run (events.map .offer)).hub = events.foldl publish x.hub := by
  induction events generalizing x with
  | nil => rfl
  | cons e rest ih =>
    have hpublish : x.hub.publish e = (x.step (.offer e)).hub := by
      rw [publish, hx.orphans_eq_nil e]
      rfl
    rw [List.map_cons, Activity.run_cons, ih (hx.offer e), List.foldl_cons, hpublish]

end Hub

namespace Delivery

variable {settings : PipelineSettings} {index : Option WorkloadIndex}

/-- A course of ingestion in which each event that is taken is published at once. -/
theorem exists_run_of_ingest (start : Delivery) (hidle : start.carried = none)
    (hopen : start.finished = false) {course : List Ingestion.Step} {y : Ingestion.Activity}
    (hrun : Ingestion.Run settings start.ingest course y) (hcalm : ∀ s ∈ course, s.IsCalm index) :
    ∃ whole x, Run settings index start whole x ∧ x.ingest = y ∧ ingestCourse whole = course ∧
      x.carried = none ∧ x.finished = false ∧
      hubCourse whole = (published whole).map .offer := by
  induction hrun with
  | nil => exact ⟨[], start, .nil, rfl, rfl, hidle, hopen, rfl⟩
  | @concat course x y s hrun hmove ih =>
    rw [List.forall_mem_append, List.forall_mem_singleton] at hcalm
    obtain ⟨whole, d, hwhole, rfl, rfl, hcarried, hfinished, hhub⟩ := ih hcalm.1
    by_cases hs : s = .drain
    · subst hs
      cases hmove with
      | @drain e queue hqueue =>
        have htaken := hwhole.concat (.take hcarried hfinished hqueue (.drain hqueue))
        refine ⟨_, _, htaken.concat (.publish rfl), rfl, ?_, rfl, hfinished, ?_⟩
        · simp [ingestCourse, Step.ingestStep?]
        · simp only [hubCourse, published, List.append_assoc, List.filterMap_append,
            List.map_append] at hhub ⊢
          rw [hhub]
          rfl
    · refine ⟨_, _, hwhole.concat (.ingest hmove hcalm.2 hs), rfl, ?_, hcarried, hfinished, ?_⟩
      · simp [ingestCourse, Step.ingestStep?]
      · simp only [hubCourse, published, List.filterMap_append, List.map_append] at hhub ⊢
        rw [hhub]
        rfl

/-- A run on the clock that ends with its event channel, after which all that it placed is
published. It has read everything up to there. -/
theorem exists_course_of_distribute (settings : PipelineSettings) (index : Option WorkloadIndex)
    {handoff : Handoff} (hfresh : handoff.placed = []) {hub : Hub.Activity} (hsound : hub.Sound)
    (script : List Ingestion.Read) (shutdownAt : Option Nat) {tick : Nat} (htick : 0 < tick) :
    let done := (Ingestion.run settings index handoff script shutdownAt tick).value
    done.1 = .exit .channelClosed →
    ∃ course x, Run settings index (initial settings handoff.capacity hub) course x ∧
      Ingestion.source (ingestCourse course) =
        (script.takeWhile fun r => !r.result.isFinal).flatMap Ingestion.Read.records ∧
      x.ingest.ingestion = done.2.ingestion ∧ x.finished = true ∧
      x.hub.hub = (hub.hub.distribute done.2.handoff.placed).value ∧
      hubCourse course = done.2.handoff.placed.map .offer ++ [.closeAll] := by
  intro done hdone
  obtain ⟨reads, htook, course, x, hrun, hsource, hindex, -, hingestion, hplaced, hends⟩ :=
    Ingestion.exists_course_of_run settings index hfresh script shutdownAt htick
  have hstage : x.stage = .ended (.exit .channelClosed) := by
    rcases hends with hstage | ⟨hstuck, -⟩
    · exact hstage.trans (congrArg _ hdone)
    · cases hdone.symm.trans hstuck
  have hend : ∀ ending, x.stage = .ended ending → ¬ending.isDisturbed := by
    intro ending h
    cases hstage.symm.trans h
    exact not_false
  obtain ⟨calm, hcalm, hsteps, hsame⟩ := hrun.calmed hend hindex
  rw [Ingestion.calmed_initial settings hfresh] at hcalm
  obtain ⟨drains, y, hdrains, hall, hstage', hingestion', hempty, hplaced'⟩ :=
    Ingestion.exists_drained settings x.calmed
  have hsteps' : ∀ s ∈ calm ++ drains, s.IsCalm index := by
    rw [List.forall_mem_append]
    refine ⟨hsteps, fun s hs => ?_⟩
    rw [hall s hs]
    trivial
  have hdry : Ingestion.source drains = [] :=
    List.flatMap_eq_nil_iff.mpr fun s hs => by rw [hall s hs]; rfl
  have hsource' : Ingestion.source (calm ++ drains) = Ingestion.source course := by
    rw [Ingestion.source, List.flatMap_append, ← Ingestion.source, ← Ingestion.source, hsame, hdry,
      List.append_nil]
  obtain ⟨whole, d, hwhole, rfl, hcourse, hcarried, hopen, hhub⟩ :=
    exists_run_of_ingest (initial settings handoff.capacity hub) rfl rfl (hcalm.append hdrains) hsteps'
  have hended : d.ingest.stage.isEnded = true := by
    rw [hstage']
    exact congrArg Ingestion.Stage.isEnded hstage
  have hpublished : published whole = done.2.handoff.placed := by
    have htaken := ((carries_initial settings handoff.capacity hub).run hwhole).taken
    rw [hcarried, Option.toList_none, List.append_nil] at htaken
    rw [← htaken, ← hplaced]
    rw [Handoff.placed, hempty, List.append_nil] at hplaced'
    exact hplaced'
  have hlast := hwhole.concat (.finish hcarried hopen hempty hended)
  have hhub' : hubCourse (whole ++ [.finish]) =
      done.2.handoff.placed.map .offer ++ [.closeAll] := by
    rw [← hpublished, ← hhub, hubCourse, filterMap_concat]
    rfl
  have hingest' : ingestCourse (whole ++ [.finish]) = calm ++ drains := by
    rw [ingestCourse, filterMap_concat, ← hcourse]
    exact List.append_nil _
  refine ⟨_, _, hlast, ?_, hingestion'.trans hingestion, rfl, ?_, hhub'⟩
  · rw [hingest', hsource', hsource, htook.takes.records_of_closed hdone]
  · rw [Hub.value_distribute, ← hsound.hub_run_offers, hlast.hub_eq, hhub',
      Hub.Activity.run_append]
    rfl

end Delivery
end FlowObserver
