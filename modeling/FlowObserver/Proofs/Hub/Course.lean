import FlowObserver.Proofs.Hub.Changes

/-!
# A hub in use by many

Any number of tasks use a hub at once, and their steps interleave. A release, a receive and a close
take one step. A subscriber takes its identifier in one step and registers in another; a publication
offers its event in one step and removes each registration that it found without a queue in one
more. Publications that overlap come in the order in which they reach the queue that is looked at.

In every course of steps a registration has its queue, so that no publication finds anything to
remove, and an identifier that is taken and not registered yet has no queue.
-/

namespace FlowObserver
namespace Hub

inductive Step where
  | allocate
  | register (id : SubscriptionId) (filter : FlowFilter) (capacity : Nat)
  | offer (e : FlowEvent)
  | remove (id : SubscriptionId)
  | receive (id : SubscriptionId)
  | release (id : SubscriptionId)
  | closeAll
  deriving DecidableEq, Repr

/-- A hub, and what is left to do in the calls that are under way. -/
structure Activity where
  hub : Hub := {}
  /-- Identifiers that are taken and not registered yet. -/
  arriving : List SubscriptionId := []
  orphaned : List SubscriptionId := []

namespace Activity

/-- A registration or a removal that no call has come to changes nothing. -/
def step (x : Activity) : Step → Activity
  | .allocate =>
    { x with hub := x.hub.allocate.2, arriving := x.hub.allocate.1 :: x.arriving }
  | .register id filter capacity =>
    if id ∈ x.arriving then
      { x with hub := x.hub.register id filter capacity, arriving := x.arriving.erase id }
    else x
  | .offer e => { x with hub := x.hub.offer e, orphaned := x.hub.orphans e ++ x.orphaned }
  | .remove id =>
    if id ∈ x.orphaned then
      { x with hub := x.hub.unregister id, orphaned := x.orphaned.erase id }
    else x
  | .receive id => { x with hub := (x.hub.receive id).2 }
  | .release id => { x with hub := x.hub.release id }
  | .closeAll => { x with hub := x.hub.closeAll }

def run (x : Activity) (steps : List Step) : Activity := steps.foldl step x

variable (x : Activity)

@[simp] theorem run_nil : x.run [] = x := rfl

@[simp] theorem run_cons (s : Step) (steps : List Step) :
    x.run (s :: steps) = (x.step s).run steps := rfl

theorem run_append (steps later : List Step) :
    x.run (steps ++ later) = (x.run steps).run later :=
  List.foldl_append

theorem run_concat (steps : List Step) (s : Step) :
    x.run (steps ++ [s]) = (x.run steps).step s := by
  rw [run_append, run_cons, run_nil]

/-- A subscription is its two steps. -/
theorem hub_run_subscribe (filter : FlowFilter) (capacity : Nat) :
    (x.run [.allocate, .register x.hub.nextId filter capacity]).hub =
      (x.hub.subscribe filter capacity).2 := by
  simp [step, allocate, subscribe]

theorem hub_run_removals (ids : List SubscriptionId) (h : x.orphaned = ids) :
    (x.run (ids.map .remove)).hub = x.hub.removeAll ids := by
  induction ids generalizing x with
  | nil => rfl
  | cons id rest ih =>
    have hstep : x.step (.remove id) =
        { x with hub := x.hub.unregister id, orphaned := rest } := by
      simp [step, h]
    rw [List.map_cons, run_cons, hstep, ih _ rfl]
    rfl

theorem hub_run_publish (e : FlowEvent) (h : x.orphaned = []) :
    (x.run (.offer e :: (x.hub.orphans e).map .remove)).hub = x.hub.publish e := by
  rw [run_cons]
  apply hub_run_removals
  simp [step, h]

structure Sound : Prop where
  arriving_nodup : x.arriving.Nodup
  arriving_lt : ∀ id ∈ x.arriving, id < x.hub.nextId
  held_lt : ∀ id, x.hub.held.find? id ≠ none → id < x.hub.nextId
  not_held : ∀ id ∈ x.arriving, x.hub.held.find? id = none
  held_of_registered : ∀ id, x.hub.held.find? id = none → x.hub.registered.find? id = none
  orphaned_eq : x.orphaned = []

theorem sound_start : Sound {} where
  arriving_nodup := List.nodup_nil
  arriving_lt := by simp
  held_lt := by simp
  not_held := by simp
  held_of_registered := by simp
  orphaned_eq := rfl

variable {x}

/-- Where every registration has its queue, a publication finds nothing to remove. -/
theorem Sound.orphans_eq_nil (hx : x.Sound) (e : FlowEvent) : x.hub.orphans e = [] := by
  rw [List.eq_nil_iff_forall_not_mem]
  intro id hid
  obtain ⟨hwants, hheld⟩ := (x.hub.mem_orphans_iff id e).mp hid
  rw [x.hub.wants_of_not_registered id e (hx.held_of_registered id hheld)] at hwants
  exact absurd hwants Bool.false_ne_true

theorem Sound.allocate (hx : x.Sound) : (x.step .allocate).Sound := by
  refine ⟨?_, ?_, ?_, ?_, hx.held_of_registered, hx.orphaned_eq⟩
  · refine List.nodup_cons.mpr ⟨fun h => ?_, hx.arriving_nodup⟩
    exact absurd (hx.arriving_lt _ h) (Nat.lt_irrefl _)
  · intro id hid
    rcases List.mem_cons.mp hid with rfl | hid
    · exact Nat.lt_succ_self _
    · exact Nat.lt_succ_of_lt (hx.arriving_lt id hid)
  · intro id hid
    exact Nat.lt_succ_of_lt (hx.held_lt id hid)
  · intro id hid
    rcases List.mem_cons.mp hid with rfl | hid
    · by_contra hheld
      exact absurd (hx.held_lt _ hheld) (Nat.lt_irrefl _)
    · exact hx.not_held id hid

theorem Sound.register (hx : x.Sound) (id : SubscriptionId) (filter : FlowFilter)
    (capacity : Nat) : (x.step (.register id filter capacity)).Sound := by
  rw [Activity.step]
  split_ifs with hid
  · refine ⟨hx.arriving_nodup.erase id, ?_, ?_, ?_, ?_, hx.orphaned_eq⟩
    · intro other hother
      exact hx.arriving_lt other (List.mem_of_mem_erase hother)
    · intro other hother
      dsimp only at hother
      rw [held_register] at hother
      split_ifs at hother with h
      · exact h ▸ hx.arriving_lt id hid
      · exact hx.held_lt other hother
    · intro other hother
      obtain ⟨hne, hother⟩ := hx.arriving_nodup.mem_erase_iff.mp hother
      dsimp only
      rw [held_register, if_neg hne]
      exact hx.not_held other hother
    · intro other hother
      dsimp only at hother ⊢
      rw [held_register] at hother
      split_ifs at hother with h
      rw [registered_register, if_neg fun h' => h h'.1]
      exact hx.held_of_registered other hother
  · exact hx

theorem Sound.offer (hx : x.Sound) (e : FlowEvent) : (x.step (.offer e)).Sound := by
  have hnone : ∀ id, (x.hub.offer e).held.find? id = none ↔ x.hub.held.find? id = none := by
    intro id
    rw [held_offer, Option.map_eq_none_iff]
  refine ⟨hx.arriving_nodup, hx.arriving_lt, ?_, ?_, ?_, ?_⟩
  · intro id hid
    exact hx.held_lt id (mt (hnone id).mpr hid)
  · intro id hid
    exact (hnone id).mpr (hx.not_held id hid)
  · intro id hid
    exact hx.held_of_registered id ((hnone id).mp hid)
  · rw [Activity.step, hx.orphans_eq_nil, hx.orphaned_eq, List.nil_append]

/-- Nothing is ever removed by a publication. -/
theorem Sound.step_remove (hx : x.Sound) (id : SubscriptionId) : x.step (.remove id) = x := by
  rw [Activity.step, hx.orphaned_eq, if_neg List.not_mem_nil]

theorem Sound.receive (hx : x.Sound) (id : SubscriptionId) : (x.step (.receive id)).Sound := by
  have hnone : ∀ other, (x.hub.receive id).2.held.find? other = none ↔
      x.hub.held.find? other = none := by
    intro other
    rw [held_receive]
    split_ifs <;> simp
  refine ⟨hx.arriving_nodup, ?_, ?_, ?_, ?_, hx.orphaned_eq⟩
  · intro other hother
    rw [Activity.step, nextId_receive]
    exact hx.arriving_lt other hother
  · intro other hother
    rw [Activity.step, nextId_receive]
    exact hx.held_lt other (mt (hnone other).mpr hother)
  · intro other hother
    exact (hnone other).mpr (hx.not_held other hother)
  · intro other hother
    rw [Activity.step, registered_receive]
    exact hx.held_of_registered other ((hnone other).mp hother)

theorem Sound.release (hx : x.Sound) (id : SubscriptionId) : (x.step (.release id)).Sound := by
  refine ⟨hx.arriving_nodup, hx.arriving_lt, ?_, ?_, ?_, hx.orphaned_eq⟩
  · intro other hother
    rw [Activity.step, held_release] at hother
    split_ifs at hother with h
    · exact absurd rfl hother
    · exact hx.held_lt other hother
  · intro other hother
    rw [Activity.step, held_release]
    split_ifs
    · rfl
    · exact hx.not_held other hother
  · intro other hother
    rw [Activity.step, held_release] at hother
    rw [Activity.step, registered_release]
    split_ifs at hother ⊢
    · rfl
    · exact hx.held_of_registered other hother

theorem Sound.closeAll (hx : x.Sound) : (x.step .closeAll).Sound :=
  ⟨hx.arriving_nodup, hx.arriving_lt, hx.held_lt, hx.not_held, fun _ _ => rfl, hx.orphaned_eq⟩

theorem Sound.step (hx : x.Sound) (s : Step) : (x.step s).Sound := by
  cases s with
  | allocate => exact hx.allocate
  | register id filter capacity => exact hx.register id filter capacity
  | offer e => exact hx.offer e
  | remove id => rwa [hx.step_remove]
  | receive id => exact hx.receive id
  | release id => exact hx.release id
  | closeAll => exact hx.closeAll

theorem Sound.run (hx : x.Sound) (steps : List Step) : (x.run steps).Sound := by
  induction steps generalizing x with
  | nil => exact hx
  | cons s rest ih => exact ih (hx.step s)

end Activity
end Hub
end FlowObserver
