import FlowObserver.Proofs.Ingest.Channel
import FlowObserver.Proofs.Ingest.Course

/-!
# From the start of an offer to its end

While an event is offered, only the world around ingestion takes steps. They never put anything on
the channel and never open it again. A channel that is open and full at the end of an offer was so
all the time.
-/

namespace FlowObserver
namespace Ingestion

/-- Steps that ingestion has no part in. -/
def Step.isOutside : Step → Bool
  | .pass _ | .signal | .drain | .leave => true
  | _ => false

theorem Stage.between_ne_offering (records : List Bytes) (since : Nat) (rest : List Bytes) :
    between records ≠ offering since rest := by
  cases records <;> exact Stage.noConfusion

theorem Stage.between_ne_ended (records : List Bytes) (ending : Ending) :
    between records ≠ ended ending := by
  cases records <;> exact Stage.noConfusion

variable {settings : PipelineSettings} {course : List Step} {x y : Activity} {s : Step}

/-- What was open and full before a step of the world, if it is so after it. -/
structure Outlasts (x y : Activity) : Prop where
  ingestion : y.ingestion = x.ingestion
  isOpen : y.channel.isGone = false → x.channel.isGone = false
  isFull : y.channel.isFull = true → x.channel.isFull = true

theorem Outlasts.refl (x : Activity) : Outlasts x x := ⟨rfl, id, id⟩

theorem Outlasts.trans {x y z : Activity} (hxy : Outlasts x y) (hyz : Outlasts y z) :
    Outlasts x z :=
  ⟨hyz.ingestion.trans hxy.ingestion, hxy.isOpen ∘ hyz.isOpen, hxy.isFull ∘ hyz.isFull⟩

theorem Move.outlasts (hmove : Move settings x s y) (hs : s.isOutside = true) : Outlasts x y := by
  cases hmove with
  | pass | signal => exact ⟨rfl, id, id⟩
  | drain hqueue =>
    refine ⟨rfl, id, fun hfull => ?_⟩
    rw [Handoff.isFull, decide_eq_true_iff] at hfull ⊢
    rw [hqueue]
    exact Nat.le_succ_of_le hfull
  | leave => exact ⟨rfl, fun hopen => absurd hopen Bool.noConfusion, id⟩
  | _ => cases hs

theorem Run.outlasts (hrun : Run settings x course y) (hcourse : ∀ s ∈ course, s.isOutside = true) :
    Outlasts x y := by
  induction hrun with
  | nil => exact .refl x
  | concat _ hmove ih =>
    rw [List.forall_mem_append] at hcourse
    exact (ih hcourse.1).trans (hmove.outlasts (hcourse.2 _ (List.mem_singleton_self _)))

/-- An offer that is under way started with a taking, and nothing but the world took steps since. -/
theorem exists_taking {start : Activity} (hrun : Run settings start course y)
    (hstart : start.stage = .reading) {since : Nat} {rest : List Bytes}
    (hstage : y.stage = .offering since rest) :
    ∃ before index waiting x, course = before ++ .take index :: waiting ∧
      Run settings start (before ++ [.take index]) x ∧ Run settings x waiting y ∧
      x.now = since ∧ ∀ s ∈ waiting, s.isOutside = true := by
  induction hrun with
  | nil =>
    rw [hstart] at hstage
    cases hstage
  | @concat course x y s hrun hmove ih =>
    -- a step of the world prolongs the wait, a taking begins one, and no other step leads to one
    have hlonger (hx : x.stage = .offering since rest) (hs : s.isOutside = true) :
        ∃ before index waiting z, course ++ [s] = before ++ .take index :: waiting ∧
          Run settings start (before ++ [.take index]) z ∧ Run settings z waiting y ∧
          z.now = since ∧ ∀ s ∈ waiting, s.isOutside = true := by
      obtain ⟨before, index, waiting, z, rfl, hbefore, hwaiting, hnow, houtside⟩ := ih hx
      refine ⟨before, index, waiting ++ [s], z, by simp, hbefore, hwaiting.concat hmove, hnow, ?_⟩
      rw [List.forall_mem_append]
      exact ⟨houtside, List.forall_mem_singleton.mpr hs⟩
    cases hmove with
    | pass | signal | drain | leave => exact hlonger hstage rfl
    | poll reading hreading =>
      cases hreading.symm.trans hstage
    | start index hx hsignal hhand =>
      have hnow : x.now = since := by
        cases hstage
        rfl
      exact ⟨course, index, [], _, rfl, hrun.concat (.start index hx hsignal hhand), .nil, hnow,
        fun s hs => absurd hs List.not_mem_nil⟩
    | batch | discard | place | expire =>
      exact absurd hstage (Stage.between_ne_offering _ _ _)
    | closed | failed | fatal | retry | stop => cases hstage

/-- An event is given up only after it was offered for the whole time that it may be, to a channel
that was open and full at every moment of it. -/
theorem full_until_expired {start : Activity} (hrun : Run settings start course y)
    (hstart : start.stage = .reading) {z : Activity} (hmove : Move settings y .expire z) :
    ∃ before index waiting x, course = before ++ .take index :: waiting ∧
      Run settings start (before ++ [.take index]) x ∧
      x.now + settings.handoffTimeout.nanos ≤ y.now ∧
      ∀ first later w, waiting = first ++ later → Run settings x first w → Run settings w later y →
        w.ingestion.inHand = x.ingestion.inHand ∧ w.channel.isGone = false ∧
          w.channel.isFull = true := by
  cases hmove with
  | expire hstage hhand hplace hlate =>
    obtain ⟨before, index, waiting, x, hcourse, hbefore, hwaiting, rfl, houtside⟩ :=
      exists_taking hrun hstart hstage
    refine ⟨before, index, waiting, x, hcourse, hbefore, hlate, ?_⟩
    rintro first later w rfl hfirst hlater
    rw [List.forall_mem_append] at houtside
    obtain ⟨hopen, hfull⟩ := (Handoff.tryPlace_eq_none_iff _ _ _).mp hplace
    have hxw := hfirst.outlasts houtside.1
    have hwy := hlater.outlasts houtside.2
    exact ⟨congrArg _ hxw.ingestion, hwy.isOpen hopen, hwy.isFull hfull⟩

/-- Ingestion that ends with an event in hand has found the channel closed. -/
theorem gone_of_handoffClosed {start : Activity} (hrun : Run settings start course y)
    (hstart : start.stage = .reading) (hstage : y.stage = .ended (.exit .handoffClosed)) :
    y.channel.isGone = true := by
  induction hrun with
  | nil =>
    rw [hstart] at hstage
    cases hstage
  | concat _ hmove ih =>
    cases hmove with
    | pass | signal | drain => exact ih hstage
    | leave => rfl
    | poll reading hreading => cases hreading.symm.trans hstage
    | batch | discard | place | expire => exact absurd hstage (Stage.between_ne_ended _ _)
    | closed | failed | fatal | retry | start => cases hstage
    | stop reading hdue =>
      cases hstage
      cases hdue with
      | offering hoffering hgone => exact hgone

end Ingestion
end FlowObserver
