import FlowObserver.Hub.Basic
import Mathlib.Tactic

/-!
# What an operation does to one subscription

Each operation of the hub in equations for what it changes: the queue that a consumer holds, and the
filter that it is registered with. No equation mentions another subscription.
-/

namespace FlowObserver

def Received.event? : Received → Option FlowEvent
  | event e => some e
  | pending | ended => none

namespace Hub

variable (h : Hub) (id other : SubscriptionId) (e : FlowEvent)

theorem held_register (filter : FlowFilter) (capacity : Nat) :
    (h.register other filter capacity).held.find? id =
      if id = other then some (.ofCapacity capacity) else h.held.find? id :=
  Table.find?_insert _ _ _ _

theorem registered_register (filter : FlowFilter) (capacity : Nat) :
    (h.register other filter capacity).registered.find? id =
      if id = other ∧ h.closed = false then some filter else h.registered.find? id := by
  unfold register
  cases h.closed with
  | true => simp
  | false => simp [Table.find?_insert]

theorem registered_unregister :
    (h.unregister other).registered.find? id =
      if id = other then none else h.registered.find? id :=
  Table.find?_erase _ _ _

theorem held_release :
    (h.release other).held.find? id = if id = other then none else h.held.find? id :=
  Table.find?_erase _ _ _

theorem registered_release :
    (h.release other).registered.find? id = if id = other then none else h.registered.find? id :=
  registered_unregister h id other

theorem wants_of_registered {filter : FlowFilter} (hid : h.registered.find? id = some filter) :
    h.wants id e = filter.accepts e := by
  rw [wants, hid]

theorem wants_of_not_registered (hid : h.registered.find? id = none) : h.wants id e = false := by
  rw [wants, hid]

theorem held_offer :
    (h.offer e).held.find? id =
      (h.held.find? id).map fun q => if h.wants id e then q.offer e else q :=
  Table.find?_mapValues _ _ _

/-- Only a registration whose queue is gone is an orphan. -/
theorem mem_orphans_iff :
    id ∈ h.orphans e ↔ h.wants id e = true ∧ h.held.find? id = none := by
  unfold orphans
  rw [List.mem_filter, Bool.and_eq_true, Bool.not_eq_true', Table.contains,
    Option.isSome_eq_false_iff, Option.isNone_iff_eq_none]
  refine ⟨And.right, fun hid => ⟨?_, hid⟩⟩
  by_contra hkey
  rw [← Table.find?_eq_none_iff] at hkey
  rw [h.wants_of_not_registered id e hkey] at hid
  exact absurd hid.1 Bool.false_ne_true

theorem event?_receive :
    (h.receive id).1.event? = (h.held.find? id).bind fun q => q.pending.head? := by
  unfold receive
  cases h.held.find? id with
  | none => rfl
  | some q =>
    dsimp only [Option.bind_some]
    cases q.pending with
    | nil =>
      dsimp only
      split_ifs <;> rfl
    | cons e rest => rfl

theorem held_receive :
    (h.receive other).2.held.find? id =
      if id = other then (h.held.find? id).map fun q => { q with pending := q.pending.tail }
      else h.held.find? id := by
  unfold receive
  cases hq : h.held.find? other with
  | none =>
    by_cases hid : id = other
    · simp [hid, hq]
    · simp [hid]
  | some q =>
    dsimp only
    cases hp : q.pending with
    | nil =>
      by_cases hid : id = other
      · subst hid
        rw [if_pos rfl, hq, Option.map_some, hp, List.tail_nil, ← hp]
      · rw [if_neg hid]
    | cons e rest =>
      dsimp only
      rw [Table.find?_insert]
      by_cases hid : id = other
      · subst hid
        rw [if_pos rfl, if_pos rfl, hq, Option.map_some, hp, List.tail_cons]
      · rw [if_neg hid, if_neg hid]

@[simp] theorem registered_receive : (h.receive id).2.registered = h.registered := by
  unfold receive
  split
  · rfl
  · split <;> rfl

@[simp] theorem nextId_receive : (h.receive id).2.nextId = h.nextId := by
  unfold receive
  split
  · rfl
  · split <;> rfl

@[simp] theorem closed_receive : (h.receive id).2.closed = h.closed := by
  unfold receive
  split
  · rfl
  · split <;> rfl

end Hub
end FlowObserver
