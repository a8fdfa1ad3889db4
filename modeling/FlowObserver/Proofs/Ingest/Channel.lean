import FlowObserver.Ingest.Handoff
import Mathlib.Tactic

/-!
# The handover channel while time goes by

After a while the consumer rests: it sleeps beyond that time, or waits for an event and finds none,
or takes nothing at all. An offer succeeds as soon as there is room, so that it is given up only
where the channel is full at its end.
-/

namespace FlowObserver
namespace Handoff

variable (h : Handoff) (e : FlowEvent)

theorem placed_place : (h.place e).placed = h.placed ++ [e] :=
  (List.append_assoc _ _ _).symm

theorem tryPlace_eq_none_iff (now : Nat) :
    h.tryPlace e now = none ↔ h.isGone = false ∧ h.isFull = true := by
  unfold tryPlace
  cases h.isGone <;> cases h.isFull <;> simp

theorem tryPlace_eq_placed_iff (now time : Nat) (after : Handoff) :
    h.tryPlace e now = some (.placed time, after) ↔
      h.isGone = false ∧ h.isFull = false ∧ now = time ∧ h.place e = after := by
  unfold tryPlace
  cases h.isGone <;> cases h.isFull <;> simp

theorem tryPlace_eq_closed_iff (now time : Nat) (after : Handoff) :
    h.tryPlace e now = some (.closed time, after) ↔ h.isGone = true ∧ now = time ∧ h = after := by
  unfold tryPlace
  cases h.isGone <;> cases h.isFull <;> simp

theorem tryPlace_ne_timedOut (now time : Nat) (after : Handoff) :
    h.tryPlace e now ≠ some (.timedOut time, after) := by
  unfold tryPlace
  cases h.isGone <;> cases h.isFull <;> simp

def Bounded (h : Handoff) : Prop := h.queue.length ≤ h.capacity

theorem bounded_place (hroom : h.isFull = false) : (h.place e).Bounded := by
  rw [isFull, decide_eq_false_iff_not, Nat.not_le] at hroom
  rw [Bounded, place, List.length_append]
  exact hroom

/-- The consumer does not sleep past its time. -/
def Timely (now : Nat) (h : Handoff) : Prop :=
  ∀ wake left, h.consumer = .asleep wake left → now ≤ wake

def Rests (time : Nat) (h : Handoff) : Prop :=
  match h.consumer with
  | .asleep wake _ => time < wake
  | .waiting _ => h.queue = []
  | .idle | .gone => True

def Stays (h : Handoff) : Prop :=
  match h.consumer with
  | .asleep _ left | .waiting left => left = none
  | .idle => True
  | .gone => False

/-- A consumer that waits starts when there is something to take. -/
def woken (now : Nat) (h : Handoff) : Handoff :=
  match h.consumer with
  | .waiting left => if h.queue.isEmpty then h else { h with consumer := .asleep now left }
  | _ => h

theorem during_eq (now time : Nat) : h.during now time = advance time (h.woken now) := by
  unfold during woken
  cases hconsumer : h.consumer with
  | waiting left =>
    dsimp only
    split_ifs with hq
    · rw [advance, hconsumer]
    · rfl
  | _ => rfl

theorem capacity_advance (time : Nat) : (advance time h).capacity = h.capacity := by
  fun_induction advance time h with
  | case4 h wake left _ _ _ e rest hq ih => exact ih
  | _ => rfl

theorem length_queue_advance (time : Nat) : (advance time h).queue.length ≤ h.queue.length := by
  fun_induction advance time h with
  | case4 h wake left _ _ _ e rest hq ih =>
    rw [hq]
    exact Nat.le_succ_of_le ih
  | _ => exact Nat.le_refl _

theorem rests_advance (time : Nat) (hwaiting : ∀ left, h.consumer = .waiting left → h.queue = []) :
    Rests time (advance time h) := by
  fun_induction advance time h with
  | case1 h wake left hconsumer hwake =>
    rw [Rests, hconsumer]
    exact hwake
  | case2 => trivial
  | case3 h wake left hconsumer hwake hleft hq => exact hq
  | case4 h wake left hconsumer hwake hleft e rest hq ih =>
    exact ih fun _ hwaits => absurd hwaits Consumer.noConfusion
  | case5 h hconsumer =>
    unfold Rests
    cases hc : h.consumer with
    | asleep wake left => exact absurd hc (hconsumer wake left)
    | waiting left => exact hwaiting left hc
    | idle => trivial
    | gone => trivial

theorem capacity_woken (now : Nat) : (h.woken now).capacity = h.capacity := by
  unfold woken
  split
  · split_ifs <;> rfl
  · rfl

theorem queue_woken (now : Nat) : (h.woken now).queue = h.queue := by
  unfold woken
  split
  · split_ifs <;> rfl
  · rfl

theorem queue_eq_nil_of_woken_waiting {now : Nat} {left : Option Nat}
    (hwaits : (h.woken now).consumer = .waiting left) : (h.woken now).queue = [] := by
  rw [queue_woken]
  unfold woken at hwaits
  cases hconsumer : h.consumer with
  | waiting =>
    rw [hconsumer] at hwaits
    dsimp only at hwaits
    split_ifs at hwaits with hq
    exact List.isEmpty_iff.mp hq
  | _ =>
    rw [hconsumer] at hwaits
    dsimp only at hwaits
    rw [hconsumer] at hwaits
    cases hwaits

variable {h}

theorem capacity_during (now time : Nat) : (h.during now time).capacity = h.capacity := by
  rw [during_eq, capacity_advance, capacity_woken]

theorem Bounded.during (hh : h.Bounded) (now time : Nat) : (h.during now time).Bounded := by
  rw [Bounded, capacity_during, during_eq]
  refine (length_queue_advance _ time).trans ?_
  rw [queue_woken]
  exact hh

theorem Stays.isGone_eq (hh : h.Stays) : h.isGone = false := by
  rw [Stays] at hh
  rw [isGone]
  cases hconsumer : h.consumer with
  | gone =>
    rw [hconsumer] at hh
    exact hh.elim
  | _ => rfl

theorem Stays.advance (hh : h.Stays) (time : Nat) : (advance time h).Stays := by
  fun_induction Handoff.advance time h with
  | case1 => exact hh
  | case2 h wake hwake hconsumer =>
    rw [Stays, hconsumer] at hh
    cases hh
  | case3 h wake left hconsumer hwake hleft hq =>
    rw [Stays, hconsumer] at hh
    exact hh
  | case4 h wake left hconsumer hwake hleft e rest hq ih =>
    rw [Stays, hconsumer] at hh
    exact ih (congrArg (Option.map (· - 1)) hh)
  | case5 => exact hh

theorem Stays.during (hh : h.Stays) (now time : Nat) : (h.during now time).Stays := by
  rw [during_eq]
  refine Stays.advance ?_ time
  unfold woken
  split
  · rename_i left hconsumer
    split_ifs
    · exact hh
    · rw [Stays, hconsumer] at hh
      exact hh
  · exact hh

theorem rests_during (now time : Nat) : (h.during now time).Rests time := by
  rw [during_eq]
  exact rests_advance _ time fun _ => queue_eq_nil_of_woken_waiting h

theorem Rests.timely {time : Nat} (hh : h.Rests time) : h.Timely time := by
  intro wake left hconsumer
  rw [Rests, hconsumer] at hh
  exact Nat.le_of_lt hh

theorem Rests.during_eq {time : Nat} (hh : h.Rests time) (now : Nat) : h.during now time = h := by
  rw [Rests] at hh
  unfold during
  cases hconsumer : h.consumer with
  | asleep wake left =>
    rw [hconsumer] at hh
    dsimp only
    rw [advance, hconsumer]
    exact if_pos hh
  | waiting left =>
    rw [hconsumer] at hh
    dsimp only at hh ⊢
    rw [hh]
    rfl
  | idle =>
    dsimp only
    rw [advance, hconsumer]
  | gone =>
    dsimp only
    rw [advance, hconsumer]

/-- The consumer's doings in waits that follow each other. -/
inductive Lapse (h : Handoff) (now : Nat) : Nat → Handoff → Prop where
  | refl : Lapse h now now h
  | wait {time : Nat} {later : Handoff} (hlapse : Lapse h now time later) {next : Nat}
    (hle : time ≤ next) : Lapse h now next (later.during time next)

section

variable {g : Handoff} {now time : Nat}

theorem Lapse.le (hlapse : h.Lapse now time g) : now ≤ time := by
  induction hlapse with
  | refl => exact Nat.le_refl now
  | wait _ hle ih => exact ih.trans hle

theorem Lapse.bounded (hlapse : h.Lapse now time g) (hh : h.Bounded) : g.Bounded := by
  induction hlapse with
  | refl => exact hh
  | wait _ _ ih => exact ih.during _ _

theorem Lapse.timely (hlapse : h.Lapse now time g) (hh : h.Timely now) : g.Timely time := by
  cases hlapse with
  | refl => exact hh
  | wait _ _ => exact (rests_during _ _).timely

theorem Lapse.stays (hlapse : h.Lapse now time g) (hh : h.Stays) : g.Stays := by
  induction hlapse with
  | refl => exact hh
  | wait _ _ ih => exact ih.during _ _

end

/-- How an offer ends. -/
inductive Outcome (h : Handoff) (e : FlowEvent) (now deadline : Nat) : Offer × Handoff → Prop where
  | placed {time : Nat} {later after : Handoff} (hlapse : h.Lapse now time later)
    (htry : later.tryPlace e time = some (.placed time, after)) :
    Outcome h e now deadline (.placed time, after)
  | timedOut {time : Nat} {later : Handoff} (hlapse : h.Lapse now time later)
    (htry : later.tryPlace e time = none) (hlate : deadline ≤ time) :
    Outcome h e now deadline (.timedOut time, later)
  | closed {time : Nat} {later : Handoff} (hlapse : h.Lapse now time later)
    (hgone : later.isGone = true) : Outcome h e now deadline (.closed time, later)

theorem outcome_of_tryPlace {e : FlowEvent} {now deadline time : Nat} {later : Handoff}
    {done : Offer × Handoff} (hlapse : h.Lapse now time later)
    (htry : later.tryPlace e time = some done) :
    h.Outcome e now deadline done := by
  obtain ⟨offer, after⟩ := done
  cases offer with
  | placed t =>
    obtain ⟨-, -, rfl, -⟩ := (tryPlace_eq_placed_iff _ _ _ _ _).mp htry
    exact .placed hlapse htry
  | timedOut t => exact absurd htry (tryPlace_ne_timedOut _ _ _ _ _)
  | closed t =>
    obtain ⟨hgone, rfl, rfl⟩ := (tryPlace_eq_closed_iff _ _ _ _ _).mp htry
    exact .closed hlapse hgone

/-- A consumer that wakes up makes room, leaves, or finds nothing to take. -/
theorem during_wake (hbounded : h.Bounded) {wake : Nat} {left : Option Nat}
    (hconsumer : h.consumer = .asleep wake left) (now : Nat) :
    (h.during now wake).isGone = true ∨ (h.during now wake).isFull = false ∨
      ∃ left, (h.during now wake).consumer = .waiting left ∧ (h.during now wake).queue = [] := by
  have hduring : h.during now wake = advance wake h := by
    unfold during
    rw [hconsumer]
  rw [hduring]
  fun_cases advance wake h with
  | case1 time left hasleep hlt =>
    cases hconsumer.symm.trans hasleep
    exact absurd hlt (Nat.lt_irrefl _)
  | case2 => exact .inl rfl
  | case3 time left hasleep hlt hleft hq => exact .inr (.inr ⟨left, rfl, hq⟩)
  | case4 time left hasleep hlt hleft e rest hq =>
    refine .inr (.inl ?_)
    have hlength := length_queue_advance { h with
      consumer := .asleep (time + h.pause h.taken.length) (left.map (· - 1))
      queue := rest
      taken := h.taken ++ [(time, e)] } wake
    rw [Bounded, hq, List.length_cons] at hbounded
    rw [isFull, capacity_advance, decide_eq_false_iff_not]
    exact Nat.not_le.mpr (Nat.lt_of_le_of_lt hlength hbounded)
  | case5 hawake => exact absurd hconsumer (hawake wake left)

def wakeBy (now deadline : Nat) (h : Handoff) : Nat :=
  match h.consumer with
  | .asleep time _ => if h.isFull && time ≤ deadline then time else now
  | _ => now

theorem Rests.wakeBy_mem {now deadline : Nat} (hrests : h.Rests now) (hlt : now ≤ deadline) :
    now ≤ h.wakeBy now deadline ∧ h.wakeBy now deadline ≤ deadline := by
  unfold wakeBy
  split
  · rename_i time left hconsumer
    rw [Rests, hconsumer] at hrests
    split_ifs with hwake
    · rw [Bool.and_eq_true, decide_eq_true_iff] at hwake
      exact ⟨Nat.le_of_lt hrests, hwake.2⟩
    · exact ⟨Nat.le_refl _, hlt⟩
  · exact ⟨Nat.le_refl _, hlt⟩

/-- Where there is no room even then, there is none until the deadline. -/
theorem Rests.during_wakeBy {now deadline : Nat} (hrests : h.Rests now) (hbounded : h.Bounded)
    (hopen : (h.during now (h.wakeBy now deadline)).isGone = false)
    (hfull : (h.during now (h.wakeBy now deadline)).isFull = true) :
    (h.during now (h.wakeBy now deadline)).Rests deadline := by
  -- either the consumer wakes in time and still makes no room, or it does not stir at all
  by_cases hwakes : ∃ time left, h.consumer = .asleep time left ∧ h.isFull = true ∧ time ≤ deadline
  · obtain ⟨time, left, hconsumer, hfull', hle⟩ := hwakes
    have hwake : h.wakeBy now deadline = time := by
      rw [wakeBy, hconsumer]
      simp [hfull', hle]
    rw [hwake] at hopen hfull ⊢
    rcases during_wake hbounded hconsumer now with hgone | hroom | ⟨left, hwaits, hq⟩
    · rw [hopen] at hgone
      cases hgone
    · rw [hfull] at hroom
      cases hroom
    · rw [Rests, hwaits]
      exact hq
  · have hwake : h.wakeBy now deadline = now := by
      unfold wakeBy
      split
      · rename_i time left hconsumer
        refine if_neg fun hwake => hwakes ⟨time, left, hconsumer, ?_⟩
        rwa [Bool.and_eq_true, decide_eq_true_iff] at hwake
      · rfl
    rw [hwake, hrests.during_eq] at hfull ⊢
    unfold Rests at hrests ⊢
    cases hconsumer : h.consumer with
    | asleep time left =>
      refine Nat.lt_of_not_le fun hle => hwakes ⟨time, left, hconsumer, hfull, hle⟩
    | _ =>
      rw [hconsumer] at hrests
      exact hrests

/-- An offer that finds no room and has time left tries once more, when the consumer wakes or at
once. -/
theorem offer_of_tryPlace_eq_none {e : FlowEvent} {now deadline : Nat}
    (htry : h.tryPlace e now = none) (hlate : ¬deadline ≤ now) :
    h.offer e now deadline =
      let turned := h.during now now
      let wake := turned.wakeBy now deadline
      match (turned.during now wake).tryPlace e wake with
      | some done => done
      | none => (.timedOut deadline, (turned.during now wake).during wake deadline) := by
  unfold offer
  rw [htry]
  exact if_neg hlate

theorem outcome_offer (hbounded : h.Bounded) (e : FlowEvent) (now deadline : Nat) :
    h.Outcome e now deadline (h.offer e now deadline) := by
  cases htry : h.tryPlace e now with
  | some done =>
    unfold offer
    rw [htry]
    exact outcome_of_tryPlace .refl htry
  | none =>
    by_cases hlate : deadline ≤ now
    · unfold offer
      rw [htry]
      dsimp only
      rw [if_pos hlate]
      exact .timedOut .refl htry hlate
    rw [offer_of_tryPlace_eq_none htry hlate]
    have hturn : h.Lapse now now (h.during now now) := Lapse.refl.wait (Nat.le_refl now)
    have hrests : (h.during now now).Rests now := rests_during now now
    have hbounded : (h.during now now).Bounded := hbounded.during now now
    generalize h.during now now = turned at hturn hrests hbounded ⊢
    obtain ⟨hle, hle'⟩ := hrests.wakeBy_mem (Nat.le_of_not_le hlate)
    dsimp only
    cases hagain : (turned.during now (turned.wakeBy now deadline)).tryPlace e
        (turned.wakeBy now deadline) with
    | some done => exact outcome_of_tryPlace (hturn.wait hle) hagain
    | none =>
      obtain ⟨hopen, hfull⟩ := (tryPlace_eq_none_iff _ _ _).mp hagain
      have hstays := (hrests.during_wakeBy hbounded hopen hfull).during_eq
        (turned.wakeBy now deadline)
      refine .timedOut ((hturn.wait hle).wait hle') ?_ (Nat.le_refl _)
      rw [hstays]
      exact (tryPlace_eq_none_iff _ _ _).mpr ⟨hopen, hfull⟩

end Handoff
end FlowObserver
