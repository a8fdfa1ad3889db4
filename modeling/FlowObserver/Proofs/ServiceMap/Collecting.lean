import FlowObserver.Proofs.Hub.Closing
import FlowObserver.Proofs.ServiceMap.Totals
import FlowObserver.Proofs.ServiceMap.Turns

/-!
# Counting what is published

Until the task of the service map has ended, it has received or still has in its queue what was
admitted there, in the order of publication, and the queue has dropped the rest. It ends only on a
closed hub and with nothing left to receive, so that by then all that was admitted is counted and
the number of the others is reported.
-/

namespace FlowObserver

namespace Queue

/-- A queue from which nothing was taken has the first events that it was offered. -/
theorem pending_offer_of_take {q : Queue} {offered : List FlowEvent}
    (hq : q.pending = offered.take q.capacity) (e : FlowEvent) :
    (q.offer e).pending = (offered ++ [e]).take q.capacity := by
  have hlength : q.pending.length = min q.capacity offered.length := by
    rw [hq, List.length_take]
  unfold offer isFull
  split_ifs with hfull
  · rw [decide_eq_true_iff] at hfull
    rw [List.take_append_of_le_length (by omega)]
    exact hq
  · rw [decide_eq_true_iff] at hfull
    have hall : offered.take q.capacity = offered := List.take_of_length_le (by omega)
    have hroom : (offered ++ [e]).length ≤ q.capacity := by
      rw [List.length_append, List.length_singleton]
      omega
    rw [List.take_of_length_le hroom, hq, hall]

end Queue

/-- Nobody registers on a closed hub. -/
theorem Hub.Activity.registered_step_of_closed {x : Activity} (hclosed : x.hub.closed = true)
    {id : SubscriptionId} (hnone : x.hub.registered.find? id = none) (s : Step) :
    (x.step s).hub.registered.find? id = none := by
  cases s with
  | allocate | offer e => exact hnone
  | closeAll => rfl
  | register other filter capacity =>
    rw [step]
    split_ifs
    · rw [registered_register, hclosed]
      simpa using hnone
    · exact hnone
  | remove other =>
    rw [step]
    split_ifs
    · rw [registered_unregister, hnone, ite_self]
    · exact hnone
  | receive other => rw [step, registered_receive, hnone]
  | release other => rw [step, registered_release, hnone, ite_self]

namespace ServiceMap
namespace Collection

/-- The task works on a queue that accounts for what is published. -/
structure Working (x : Collection) (room : Nat) (published received : List FlowEvent)
    (counted : List (FlowEvent × Nat)) (q : Queue) : Prop where
  sound : x.users.Sound
  serves : x.users.Serves x.subscription {} x.users.hub.closed q
  reported : x.reported = none
  capacity : q.capacity = room
  accounts : q.Accounts received published
  received_eq : received = counted.map (·.1) ++ x.carried.toList
  /-- As long as nothing is received, the queue has the first events that were published. -/
  untouched : received = [] → q.pending = published.take q.capacity

/-- The task has ended, and has counted all that was admitted. -/
structure Ended (x : Collection) (room : Nat) (published admitted : List FlowEvent)
    (counted : List (FlowEvent × Nat)) (lost : Nat) : Prop where
  closed : x.users.hub.closed = true
  unregistered : x.users.hub.registered.find? x.subscription = none
  reported : x.reported = some lost
  carried : x.carried = none
  counted_eq : counted.map (·.1) = admitted
  balanced : admitted.length + lost = published.length
  untouched : admitted = [] → published.take room = []

/-- What is admitted is with the task or still in its queue, or all of it is counted. -/
inductive Collects (x : Collection) (room : Nat) (published admitted : List FlowEvent)
    (counted : List (FlowEvent × Nat)) : Prop
  | working (received : List FlowEvent) (q : Queue)
    (h : x.Working room published received counted q)
    (hadmitted : admitted = received ++ q.pending)
  | ended (lost : Nat) (h : x.Ended room published admitted counted lost)

section

variable {x : Collection} {room : Nat} {published received admitted : List FlowEvent}
  {counted : List (FlowEvent × Nat)} {q : Queue} {lost : Nat}

theorem closed_start {users : Hub.Activity} (hopen : users.hub.closed = false)
    (id : SubscriptionId) (capacity : Nat) (settings : ServiceMapSettings) (began : Nat) :
    (start users id capacity settings began).users.hub.closed = false := by
  rw [start, Hub.Activity.closed_step, hopen]
  rfl

theorem working_start {users : Hub.Activity} (hsound : users.Sound) {id : SubscriptionId}
    (hid : id ∈ users.arriving) (hopen : users.hub.closed = false) (capacity : Nat)
    (settings : ServiceMapSettings) (began : Nat) :
    (start users id capacity settings began).Working (max capacity 1) [] [] []
      (.ofCapacity capacity) where
  sound := hsound.step (.register id {} capacity)
  serves := by
    rw [closed_start hopen]
    exact Hub.Activity.serves_register hid hopen {} capacity
  reported := rfl
  capacity := rfl
  accounts := Queue.accounts_ofCapacity capacity
  received_eq := rfl
  untouched _ := List.take_nil.symm

theorem append_publishes (x : Collection) (published : List FlowEvent) (s : Hub.Step) :
    published ++ (x.publishes (.use s)).toList =
      if x.users.hub.closed then published else published ++ s.published?.toList := by
  rw [publishes]
  split_ifs
  · exact List.append_nil _
  · rfl

theorem Working.pending_react (h : x.Working room published received counted q) {s : Hub.Step}
    (hs : s ≠ .receive x.subscription) :
    (Hub.Activity.react x.subscription {} x.users.hub.closed q s).pending =
      q.pending ++ (x.admits (.use s)).toList := by
  cases s with
  | offer e =>
    rw [Hub.Activity.react, admits, h.serves.wants_eq, h.serves.held, Option.any_some, Queue.offer]
    cases (!x.users.hub.closed && ({} : FlowFilter).accepts e) <;> cases q.isFull <;> simp
  | receive other =>
    have hother : other ≠ x.subscription := fun h => hs (h ▸ rfl)
    rw [Hub.Activity.react, if_neg hother]
    exact (List.append_nil _).symm
  | _ => exact (List.append_nil _).symm

theorem Working.use (h : x.Working room published received counted q) {s : Hub.Step}
    (hs : (Step.use s).Spares x.subscription) :
    (x.step (.use s)).Working room (published ++ (x.publishes (.use s)).toList) received counted
      (Hub.Activity.react x.subscription {} x.users.hub.closed q s) := by
  rw [append_publishes]
  refine ⟨h.sound.step s, ?_, h.reported, ?_, ?_, h.received_eq, ?_⟩
  · rw [step, Hub.Activity.closed_step]
    exact h.serves.step h.sound s hs.2
  · exact (Hub.Activity.capacity_react s).trans h.capacity
  · have haccounts := Hub.Activity.accounts_react h.serves h.accounts s
    rw [h.serves.handed_eq, if_neg hs.1, filter_accepts] at haccounts
    simpa using haccounts
  · intro hnone
    have huntouched := h.untouched hnone
    rw [Hub.Activity.capacity_react]
    cases s with
    | offer e =>
      rw [Hub.Activity.react]
      cases x.users.hub.closed with
      | true => exact huntouched
      | false => exact Queue.pending_offer_of_take huntouched e
    | receive other =>
      have hother : other ≠ x.subscription := fun h => hs.1 (h ▸ rfl)
      simpa [Hub.Activity.react, hother, Hub.Step.published?] using huntouched
    | _ => simpa [Hub.Activity.react, Hub.Step.published?] using huntouched

theorem Working.count (h : x.Working room published received counted q) {e : FlowEvent}
    (hcarried : x.carried = some e) :
    ({ x with map := x.map.record e x.now, carried := none } : Collection).Working room published
      received (counted ++ [(e, x.now)]) q := by
  refine ⟨h.sound, h.serves, h.reported, h.capacity, h.accounts, ?_, h.untouched⟩
  rw [h.received_eq, hcarried]
  simp

theorem Working.receive (h : x.Working room published received counted q)
    (hcarried : x.carried = none) {e : FlowEvent} {rest : List FlowEvent}
    (hpending : q.pending = e :: rest) :
    ({ x with users := x.users.step (.receive x.subscription), carried := some e } :
      Collection).Working room published (received ++ [e]) counted { q with pending := rest } := by
  have hserves := h.serves.step h.sound (.receive x.subscription) (by simp)
  have haccounts := h.accounts.receive
  rw [Hub.Activity.react, if_pos rfl, hpending] at hserves
  rw [hpending] at haccounts
  refine ⟨h.sound.step (.receive x.subscription), ?_, h.reported, h.capacity, haccounts, ?_, ?_⟩
  · rw [Hub.Activity.closed_step]
    exact hserves
  · rw [h.received_eq, hcarried]
    simp
  · intro hnone
    simp at hnone

theorem Working.finish (h : x.Working room published received counted q)
    (hcarried : x.carried = none) (hpending : q.pending = []) (hclosed : x.users.hub.closed = true) :
    ({ x with
      users := x.users.step (.release x.subscription)
      reported := some q.dropped } : Collection).Ended room published received counted
      q.dropped := by
  have hbalanced := h.accounts.balanced
  have hreceived := h.received_eq
  rw [hpending, List.length_nil, Nat.add_zero] at hbalanced
  rw [hcarried, Option.toList_none, List.append_nil] at hreceived
  refine ⟨?_, ?_, rfl, hcarried, hreceived.symm, hbalanced, ?_⟩
  · rw [Hub.Activity.closed_step, hclosed]
    rfl
  · rw [Hub.Activity.step, Hub.registered_release, if_pos rfl]
  · intro hnone
    rw [← h.capacity, ← h.untouched hnone, hpending]

theorem Working.turn_cases (h : x.Working room published received counted q) :
    (∃ e, x.carried = some e ∧
      x.turn = { x with map := x.map.record e x.now, carried := none }) ∨
    x.carried = none ∧
      ((∃ e rest, q.pending = e :: rest ∧ x.turn =
          { x with users := x.users.step (.receive x.subscription), carried := some e }) ∨
        q.pending = [] ∧ x.users.hub.closed = false ∧ x.turn = x ∨
        q.pending = [] ∧ x.users.hub.closed = true ∧ x.turn =
          { x with
            users := x.users.step (.release x.subscription)
            reported := some q.dropped }) := by
  refine x.turn_cases.imp_right fun ⟨hcarried, hturn⟩ => ⟨hcarried, ?_⟩
  have hactive : x.reported.isSome = false := by rw [h.reported, Option.isSome_none]
  rw [hactive, h.serves.receive_eq, Hub.dropped?, h.serves.held, Queue.found] at hturn
  cases hp : q.pending with
  | cons e rest => simpa [hp] using hturn
  | nil => cases hclosed : x.users.hub.closed <;> simpa [hp, hclosed] using hturn

theorem Working.turn (h : x.Working room published received counted q) :
    x.turn.Collects room published (received ++ q.pending)
      (counted ++ (x.counts .turn).toList) := by
  rw [counts]
  rcases h.turn_cases with ⟨e, hcarried, hturn⟩ | ⟨hcarried, hturn⟩
  · rw [hturn, hcarried]
    exact .working received q (h.count hcarried) rfl
  · rw [hcarried, Option.map_none, Option.toList_none, List.append_nil]
    rcases hturn with ⟨e, rest, hp, hturn⟩ | ⟨hp, -, hturn⟩ | ⟨hp, hclosed, hturn⟩
    · rw [hturn]
      refine .working (received ++ [e]) { q with pending := rest } (h.receive hcarried hp) ?_
      rw [hp, List.append_assoc]
      rfl
    · rw [hturn]
      exact .working received q h rfl
    · rw [hturn, hp, List.append_nil]
      exact .ended q.dropped (h.finish hcarried hp hclosed)

theorem Ended.step (h : x.Ended room published admitted counted lost) (s : Step) :
    (x.step s).Ended room published admitted counted lost := by
  cases s with
  | wait nanos => exact { h with }
  | turn =>
    have hsame : x.turn = x := by
      rw [turn, h.carried, h.reported]
      rfl
    rwa [Collection.step, hsame]
  | use s =>
    have hclosed : (x.users.step s).hub.closed = true := by
      rw [Hub.Activity.closed_step, h.closed]
      rfl
    have hunregistered := Hub.Activity.registered_step_of_closed h.closed h.unregistered s
    exact ⟨hclosed, hunregistered, h.reported, h.carried, h.counted_eq, h.balanced, h.untouched⟩

theorem Ended.admits_eq_none (h : x.Ended room published admitted counted lost) (s : Step) :
    x.admits s = none := by
  unfold admits
  split
  · rw [x.users.hub.wants_of_not_registered x.subscription _ h.unregistered]
    rfl
  · rfl

theorem Collects.admits_sublist (h : x.Collects room published admitted counted) (s : Step) :
    (x.admits s).toList.Sublist (x.publishes s).toList := by
  cases h with
  | ended lost h =>
    rw [h.admits_eq_none]
    exact List.nil_sublist _
  | working received q h =>
    cases s with
    | use s =>
      cases s with
      | offer e =>
        rw [admits, publishes, h.serves.wants_eq]
        cases x.users.hub.closed with
        | true => exact List.nil_sublist _
        | false =>
          rw [if_neg Bool.false_ne_true]
          split_ifs
          · exact List.Sublist.refl _
          · exact List.nil_sublist _
      | _ => exact List.nil_sublist _
    | wait nanos | turn => exact List.nil_sublist _

theorem Collects.step (h : x.Collects room published admitted counted) {s : Step}
    (hs : s.Spares x.subscription) :
    (x.step s).Collects room (published ++ (x.publishes s).toList)
      (admitted ++ (x.admits s).toList) (counted ++ (x.counts s).toList) := by
  have hunpublished : s.use? = none → published ++ (x.publishes s).toList = published := by
    intro hnone
    rw [publishes, hnone, Option.bind_none, ite_self]
    exact List.append_nil _
  cases h with
  | working received q h hadmitted =>
    subst hadmitted
    cases s with
    | use s =>
      rw [counts, Option.toList_none, List.append_nil]
      refine .working received _ (h.use hs) ?_
      rw [h.pending_react hs.1, List.append_assoc]
    | wait nanos =>
      rw [hunpublished rfl, counts, Option.toList_none, List.append_nil]
      exact .working received q { h with } (List.append_nil _)
    | turn =>
      rw [hunpublished rfl, admits, Option.toList_none, List.append_nil]
      · exact h.turn
      · intro e he
        cases he
  | ended lost h =>
    have hcounts : x.counts s = none := by
      cases s <;> simp [counts, h.carried]
    rw [publishes, h.closed, if_pos rfl, h.admits_eq_none, hcounts]
    simpa using Collects.ended lost (h.step s)

/-- What is admitted before anything is received is what was published first. -/
theorem Collects.admitted_of_untouched (h : x.Collects room published admitted counted)
    (hcounted : counted = []) (hcarried : x.carried = none) : admitted = published.take room := by
  subst hcounted
  cases h with
  | working received q h hadmitted =>
    have hnone : received = [] := by
      rw [h.received_eq, hcarried]
      rfl
    rw [hadmitted, hnone, List.nil_append, h.untouched hnone, h.capacity]
  | ended lost h =>
    have hnone : admitted = [] := h.counted_eq.symm
    rw [h.untouched hnone, hnone]

/-- How many turns are left to the task if nothing more comes into its queue. -/
def left (x : Collection) : Nat :=
  if x.reported.isSome then 0
  else 2 * (x.users.hub.held.find? x.subscription).elim 0 (·.pending.length) +
    x.carried.toList.length + 1

theorem left_eq_zero_iff (x : Collection) : x.left = 0 ↔ x.reported.isSome = true := by
  unfold left
  split_ifs with h <;> simp [h]

theorem Working.left_eq (h : x.Working room published received counted q) :
    x.left = 2 * q.pending.length + x.carried.toList.length + 1 := by
  rw [left, h.reported, h.serves.held]
  rfl

theorem Collects.left_le (h : x.Collects room published admitted counted) :
    x.left ≤ 2 * room + 2 := by
  cases h with
  | working received q h =>
    have hbounded := h.accounts.bounded
    have hcarried : x.carried.toList.length ≤ 1 := by
      cases x.carried <;> simp
    rw [h.left_eq, ← h.capacity]
    omega
  | ended lost h =>
    rw [left, h.reported, Option.isSome_some, if_pos rfl]
    exact Nat.zero_le _

theorem Working.left_turn (h : x.Working room published received counted q)
    (hclosed : x.users.hub.closed = true) : x.turn.left + 1 = x.left := by
  rcases h.turn_cases with ⟨e, hcarried, hturn⟩ | ⟨hcarried, hturn⟩
  · rw [hturn, (h.count hcarried).left_eq, h.left_eq, hcarried]
    rfl
  · rcases hturn with ⟨e, rest, hp, hturn⟩ | ⟨-, hopen, -⟩ | ⟨hp, -, hturn⟩
    · rw [hturn, (h.receive hcarried hp).left_eq, h.left_eq, hcarried, hp]
      simp only [List.length_cons, Option.toList_some, Option.toList_none, List.length_nil]
      omega
    · rw [hclosed] at hopen
      cases hopen
    · rw [hturn, h.left_eq, hcarried, hp]
      rfl

/-- Once the hub is closed, the turns of the task alone bring its end nearer. -/
theorem Collects.left_step (h : x.Collects room published admitted counted)
    (hclosed : x.users.hub.closed = true) {s : Step} (hs : s.Spares x.subscription) :
    (x.step s).left = x.left - if s = .turn then 1 else 0 := by
  cases h with
  | ended lost h =>
    have hzero : ∀ {y : Collection}, y.reported = some lost → y.left = 0 := by
      intro y hy
      rw [left_eq_zero_iff, hy]
      rfl
    rw [hzero h.reported, hzero (h.step s).reported, Nat.zero_sub]
  | working received q h =>
    cases s with
    | use s =>
      have hstep := (h.use hs).left_eq
      rw [hclosed, Hub.Activity.react_closed {} q hs.1] at hstep
      rw [hstep, h.left_eq, if_neg (by simp)]
      rfl
    | wait nanos => rfl
    | turn =>
      rw [if_pos rfl, ← h.left_turn hclosed]
      rfl

end

variable {x : Collection} {room : Nat} {offered found : List FlowEvent}
  {log : List (FlowEvent × Nat)} {course : List Step}

theorem Collects.run (h : x.Collects room offered found log)
    (hcourse : ∀ s ∈ course, s.Spares x.subscription) :
    (x.run course).Collects room (offered ++ gather publishes x course)
      (found ++ x.admitted course) (log ++ x.counted course) := by
  induction course using List.reverseRecOn with
  | nil =>
    rw [admitted, counted, gather, gather, gather, List.append_nil, List.append_nil,
      List.append_nil]
    exact h
  | append_singleton course s ih =>
    rw [List.forall_mem_append, List.forall_mem_singleton] at hcourse
    rw [run_concat, gather_concat, admitted, gather_concat, counted, gather_concat,
      ← List.append_assoc, ← List.append_assoc, ← List.append_assoc]
    exact (ih hcourse.1).step (spares_run hcourse.2 course)

theorem Collects.admitted_sublist (h : x.Collects room offered found log)
    (hcourse : ∀ s ∈ course, s.Spares x.subscription) :
    (x.admitted course).Sublist (gather publishes x course) := by
  induction course using List.reverseRecOn with
  | nil => exact List.Sublist.refl []
  | append_singleton course s ih =>
    rw [List.forall_mem_append] at hcourse
    rw [admitted, gather_concat, gather_concat]
    exact (ih hcourse.1).append ((h.run hcourse.1).admits_sublist s)

theorem Collects.left_run (h : x.Collects room offered found log)
    (hclosed : x.users.hub.closed = true) (hcourse : ∀ s ∈ course, s.Spares x.subscription) :
    (x.run course).left = x.left - course.count .turn := by
  induction course using List.reverseRecOn with
  | nil => rfl
  | append_singleton course s ih =>
    rw [List.forall_mem_append, List.forall_mem_singleton] at hcourse
    have hlast := spares_run hcourse.2 course
    have hend : (x.run course).users.hub.closed = true :=
      (x.closed_run_iff course).mpr (.inl hclosed)
    rw [run_concat, (h.run hcourse.1).left_step hend hlast, ih hcourse.1, List.count_append,
      List.count_singleton, Nat.sub_sub]
    simp only [beq_iff_eq]

/-- How the task has ended: what it counted, what it lost, and what its map shows. -/
structure Settled (x : Collection) (room : Nat) (course : List Step) (lost : Nat) : Prop where
  closed : .closeAll ∈ uses course
  ordered : (x.admitted course).Sublist (published course)
  balanced : (x.admitted course).length + lost = (published course).length
  /-- What was admitted is counted once, in its order. -/
  counted_eq : (x.counted course).map (·.1) = x.admitted course
  map_eq : (x.run course).map =
    { x.map with buckets := x.map.buckets.recordAll (inSeconds (x.counted course)) }
  /-- If everything is published before the task receives anything, the first events are
  admitted. -/
  first : ∀ early late, course = early ++ late → x.counted early = [] →
    (x.run early).carried = none → published early = published course →
      x.admitted course = (published course).take room

theorem Collects.run_open (h : x.Collects room [] [] []) (hopen : x.users.hub.closed = false)
    (hcourse : ∀ s ∈ course, s.Spares x.subscription) :
    (x.run course).Collects room (published course) (x.admitted course) (x.counted course) := by
  have hrun := h.run hcourse
  rwa [gather_publishes hopen, List.nil_append, List.nil_append, List.nil_append] at hrun

theorem Collects.admitted_eq_take (h : x.Collects room [] [] [])
    (hopen : x.users.hub.closed = false) {early late : List Step}
    (hcourse : ∀ s ∈ early ++ late, s.Spares x.subscription) (hcounted : x.counted early = [])
    (hcarried : (x.run early).carried = none)
    (hpublished : published early = published (early ++ late)) :
    x.admitted (early ++ late) = (published (early ++ late)).take room := by
  rw [List.forall_mem_append] at hcourse
  have huntouched := (h.run_open hopen hcourse.1).admitted_of_untouched hcounted hcarried
  have hnone : gather publishes (x.run early) late = [] := by
    rw [← gather_publishes hopen, ← gather_publishes hopen, gather_append] at hpublished
    exact List.append_right_eq_self.mp hpublished.symm
  have hlate : (x.run early).admitted late = [] := by
    have hsub := (h.run hcourse.1).admitted_sublist fun s hs => spares_run (hcourse.2 s hs) early
    rw [hnone] at hsub
    exact List.eq_nil_of_sublist_nil hsub
  rw [← hpublished, ← huntouched, admitted, gather_append]
  exact List.append_right_eq_self.mpr hlate

theorem Collects.settled (h : x.Collects room [] [] []) (hopen : x.users.hub.closed = false)
    (hcourse : ∀ s ∈ course, s.Spares x.subscription) {lost : Nat}
    (hlost : (x.run course).reported = some lost) : x.Settled room course lost := by
  have hordered := h.admitted_sublist hcourse
  rw [gather_publishes hopen] at hordered
  cases h.run_open hopen hcourse with
  | working received q hend =>
    rw [hend.reported] at hlost
    cases hlost
  | ended n hend =>
    obtain rfl : n = lost := Option.some.inj (hend.reported.symm.trans hlost)
    have hclosed : .closeAll ∈ uses course := by
      have h := (x.closed_run_iff course).mp hend.closed
      rwa [hopen, Bool.false_eq_true, false_or] at h
    refine ⟨hclosed, hordered, hend.balanced, hend.counted_eq, x.map_run course, ?_⟩
    rintro early late rfl hcounted hcarried hpublished
    exact h.admitted_eq_take hopen hcourse hcounted hcarried hpublished

/-- The map of a run that is shorter than the retention by a second counts what was admitted, in
every window that covers the run. -/
theorem tallies_run {x : Collection} {settings : ServiceMapSettings}
    (hmap : x.map = .ofSettings settings) (course : List Step)
    (hshort : (x.run course).now - x.now + nanosPerSecond ≤ settings.retention.nanos)
    (window moment : Nat) (hpast : (x.run course).now ≤ moment)
    (hcovers : Recent window moment x.now) :
    Tallies ((x.run course).map.buckets.edges window (secondOf moment))
      ((x.counted course).map (·.1)) := by
  obtain ⟨hnow, hcounted⟩ := x.now_run course
  have hlog : ∀ r ∈ inSeconds (x.counted course),
      secondOf x.now ≤ r.2 ∧ r.2 ≤ secondOf (x.run course).now := by
    rw [inSeconds, List.forall_mem_map]
    intro r hr
    exact ⟨Nat.div_le_div_right (hcounted r hr).1, Nat.div_le_div_right (hcounted r hr).2⟩
  have hflows : (inSeconds (x.counted course)).map (·.1) = (x.counted course).map (·.1) := by
    rw [inSeconds, List.map_map]
    rfl
  rw [map_run, hmap, ← hflows]
  refine Buckets.tallies_of_covers hlog ?_ ?_ (Nat.div_le_div_right hpast)
  · unfold secondOf Duration.seconds nanosPerSecond at *
    omega
  · have hreach := hcovers.1
    omega

/-- Asked for as much as is kept, a query answers for as much, unless that is less than a second. -/
theorem nanos_effectiveWindow_retention {settings : ServiceMapSettings}
    (h : nanosPerSecond ≤ settings.retention.nanos) :
    (effectiveWindow settings (some settings.retention)).nanos = settings.retention.nanos := by
  have hpositive : settings.retention.nanos ≠ 0 := (Nat.lt_of_lt_of_le (by decide) h).ne'
  unfold effectiveWindow
  dsimp only
  rw [if_neg hpositive, Duration.nanos_min, Duration.nanos_max, min_self]
  exact Nat.max_eq_left h

/-- Whatever is published and in whatever order the users of the hub, the clock and the task take
their steps: once the hub is closed, the task comes to its end by a fixed number of turns of its
own, and by then each event that found room in its queue is counted once, and those that did not are
reported. If the run is shorter than the retention by a second, the edges of every window that
covers it add up to the counted events between known workloads; a query for all that is kept is such
a window if the run began with a second. -/
theorem admitted_counted_once (settings : ServiceMapSettings) (capacity : Nat)
    (before : List Hub.Step) (id : SubscriptionId) (began : Nat)
    (harriving : id ∈ (({} : Hub.Activity).run before).arriving) (hopen : .closeAll ∉ before)
    (course : List Step) (hcourse : ∀ s ∈ course, s.Spares id) :
    let x := start (({} : Hub.Activity).run before) id capacity settings began
    let y := x.run course
    let room := max capacity 1
    (.closeAll ∈ uses course → y.left ≤ 2 * room + 2 ∧
      ∀ later, (∀ s ∈ later, s.Spares id) →
        ((x.run (course ++ later)).reported.isSome = true ↔ y.left ≤ later.count .turn)) ∧
    ∀ lost, y.reported = some lost → x.Settled room course lost ∧
      (y.now - began + nanosPerSecond ≤ settings.retention.nanos →
        (∀ window moment, y.now ≤ moment → Recent window moment began →
          Tallies (y.map.buckets.edges window (secondOf moment)) (x.admitted course)) ∧
        (∀ requested moment, y.now ≤ moment →
          Recent (effectiveWindow settings requested).seconds moment began →
          Tallies (y.map.query requested moment).1 (x.admitted course)) ∧
        (nanosPerSecond ∣ began →
          Recent (effectiveWindow settings (some settings.retention)).seconds y.now began)) := by
  intro x y room
  have husers : (({} : Hub.Activity).run before).hub.closed = false :=
    Hub.Activity.closed_run {} before hopen
  have hx : x.Collects room [] [] [] :=
    .working [] _ (working_start (Hub.Activity.sound_start.run before) harriving husers capacity
      settings began) rfl
  have hstart : x.users.hub.closed = false := closed_start husers id capacity settings began
  constructor
  · intro hclose
    have hclosed : y.users.hub.closed = true := (x.closed_run_iff course).mpr (.inr hclose)
    have hy := hx.run hcourse
    refine ⟨hy.left_le, fun later hlater => ?_⟩
    have hspared : ∀ s ∈ later, s.Spares y.subscription :=
      fun s hs => spares_run (hlater s hs) course
    rw [run_append, ← left_eq_zero_iff, hy.left_run hclosed hspared]
    exact Nat.sub_eq_zero_iff_le
  · intro lost hlost
    have hsettled := hx.settled hstart hcourse hlost
    refine ⟨hsettled, fun hshort => ?_⟩
    have htallies : ∀ window moment, y.now ≤ moment → Recent window moment began →
        Tallies (y.map.buckets.edges window (secondOf moment)) (x.admitted course) := by
      intro window moment hpast hcovers
      rw [← hsettled.counted_eq]
      exact tallies_run rfl course hshort window moment hpast hcovers
    refine ⟨htallies, ?_, ?_⟩
    · intro requested moment hpast hcovers
      have hsettings : y.map.settings = settings := by
        rw [hsettled.map_eq]
        rfl
      rw [query, hsettings]
      exact htallies _ moment hpast hcovers
    · rintro ⟨seconds, hbegan⟩
      have hnow : began ≤ y.now := (x.now_run course).1
      have hlength : settings.retention.nanos / nanosPerSecond =
          (effectiveWindow settings (some settings.retention)).seconds := by
        rw [Duration.seconds, nanos_effectiveWindow_retention (by omega)]
      rw [← hlength, Recent]
      unfold secondOf nanosPerSecond at *
      omega

def shopToStore : FlowEvent :=
  { Hub.Activity.packetTo 5432 with
    source := some { name := "shop-1", namespaceName := "default", ownerName := some "shop" }
    destination := some { name := "store-0", namespaceName := "default" } }

/-- Three events for a queue of two, before the task takes its first turn; the second of them is
from nowhere. -/
def burst : List Step :=
  [.use (.offer shopToStore), .use (.offer (Hub.Activity.packetTo 80)), .use (.offer shopToStore),
    .turn, .wait 1500000000, .turn, .use .closeAll, .turn, .turn, .turn]

theorem admitted_counted_once_burst :
    0 ∈ (({} : Hub.Activity).run [.allocate]).arriving ∧ .closeAll ∉ [Hub.Step.allocate] ∧
      (∀ s ∈ burst, s.Spares 0) ∧
      let x := start (({} : Hub.Activity).run [.allocate]) 0 2 {} 0
      let y := x.run burst
      y.reported = some 1 ∧ y.now = 1500000000 ∧
        (x.run (burst ++ [.turn])).reported.isSome = true ∧
        x.admitted burst = [shopToStore, Hub.Activity.packetTo 80] ∧
        Tallies (y.map.buckets.edges 2 (secondOf y.now)) (x.admitted burst) ∧
        Tallies (y.map.query none y.now).1 (x.admitted burst) ∧
        Recent (effectiveWindow {} (some (.ofSeconds 900))).seconds y.now 0 := by
  have harriving : 0 ∈ (({} : Hub.Activity).run [.allocate]).arriving := by decide
  have hopen : .closeAll ∉ [Hub.Step.allocate] := by decide
  have hspares : ∀ s ∈ burst, s.Spares 0 := by decide
  obtain ⟨hending, hend⟩ := admitted_counted_once {} 2 [.allocate] 0 0 harriving hopen burst hspares
  obtain ⟨hsettled, hshows⟩ := hend 1 (by decide)
  obtain ⟨hedges, hquery, hcovers⟩ := hshows (by decide)
  refine ⟨harriving, hopen, hspares, by decide, by decide, ?_, ?_, ?_, ?_, ?_⟩
  · exact ((hending (by decide)).2 [.turn] (by decide)).mpr (by decide)
  · exact hsettled.first (burst.take 3) (burst.drop 3) (by decide) (by decide) (by decide) (by decide)
  · exact hedges 2 _ le_rfl (by decide)
  · exact hquery none _ le_rfl (by decide)
  · exact hcovers (Nat.dvd_zero _)

end Collection
end ServiceMap
end FlowObserver
