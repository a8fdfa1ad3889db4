import FlowObserver.Proofs.Hub.Course

/-!
# What becomes of the events that are meant for a subscription

Of the events that are published while a subscription is registered and that its filter accepts,
each is received, queued or counted as dropped. The first two are in the order of publication, and
an event is dropped only for a full queue. Other subscriptions, and what their consumers do, play no
part in it.
-/

namespace FlowObserver

/-- The queue accounts for the events that were meant for it, given those that were taken out. -/
structure Queue.Accounts (q : Queue) (received meant : List FlowEvent) : Prop where
  ordered : (received ++ q.pending).Sublist meant
  balanced : received.length + q.pending.length + q.dropped = meant.length
  bounded : q.pending.length ≤ q.capacity

namespace Queue

variable {q : Queue} {received meant : List FlowEvent}

theorem accounts_ofCapacity (capacity : Nat) : (ofCapacity capacity).Accounts [] [] where
  ordered := List.Sublist.refl _
  balanced := rfl
  bounded := Nat.zero_le _

theorem capacity_offer (q : Queue) (e : FlowEvent) : (q.offer e).capacity = q.capacity := by
  unfold offer
  split_ifs <;> rfl

theorem offer_eq (q : Queue) (e : FlowEvent) (h : q.pending.length ≤ q.capacity) :
    q.offer e =
      if q.pending.length = q.capacity then { q with dropped := q.dropped + 1 }
      else { q with pending := q.pending ++ [e] } := by
  have hfull : q.isFull = true ↔ q.pending.length = q.capacity := by
    rw [isFull, decide_eq_true_iff]
    omega
  rw [offer]
  exact if_congr hfull rfl rfl

theorem Accounts.offer (hq : q.Accounts received meant) (e : FlowEvent) :
    (q.offer e).Accounts received (meant ++ [e]) := by
  obtain ⟨hordered, hbalanced, hbounded⟩ := hq
  rw [offer_eq q e hbounded]
  split_ifs with hfull
  · refine ⟨?_, ?_, hbounded⟩
    · exact hordered.trans (List.sublist_append_left _ _)
    · rw [List.length_append, List.length_singleton, ← hbalanced]
      exact (Nat.add_assoc _ _ _).symm
  · refine ⟨?_, ?_, ?_⟩
    · rw [← List.append_assoc]
      exact hordered.append (List.Sublist.refl _)
    · simp only [List.length_append, List.length_singleton]
      omega
    · simp only [List.length_append, List.length_singleton]
      omega

theorem Accounts.receive (hq : q.Accounts received meant) :
    ({ q with pending := q.pending.tail } : Queue).Accounts
      (received ++ q.pending.head?.toList) meant := by
  obtain ⟨hordered, hbalanced, hbounded⟩ := hq
  cases hp : q.pending with
  | nil =>
    rw [hp] at hordered hbalanced
    exact ⟨by simpa using hordered, by simpa using hbalanced, Nat.zero_le _⟩
  | cons e rest =>
    rw [hp] at hordered hbalanced hbounded
    simp only [List.length_cons] at hbalanced hbounded
    refine ⟨by simpa using hordered, ?_, ?_⟩
    · simp only [List.head?_cons, Option.toList_some, List.tail_cons, List.length_append,
        List.length_singleton]
      omega
    · exact Nat.le_of_succ_le hbounded

end Queue

namespace Hub

def Step.published? : Step → Option FlowEvent
  | .offer e => some e
  | _ => none

/-- The events that are published before the hub is closed and that the filter accepts. -/
def meant (filter : FlowFilter) (steps : List Step) : List FlowEvent :=
  ((steps.takeWhile (· ≠ .closeAll)).filterMap Step.published?).filter filter.accepts

theorem meant_cons (filter : FlowFilter) (s : Step) (steps : List Step) :
    meant filter (s :: steps) =
      if s = .closeAll then []
      else s.published?.toList.filter filter.accepts ++ meant filter steps := by
  unfold meant
  by_cases hs : s = .closeAll
  · simp [hs]
  · rw [if_neg hs, List.takeWhile_cons_of_pos (by simpa using hs), List.filterMap_cons]
    cases s.published? with
    | none => rfl
    | some e => exact List.filter_append [e] _

theorem meant_concat (filter : FlowFilter) (steps : List Step) (s : Step) :
    meant filter (steps ++ [s]) =
      if .closeAll ∈ steps then meant filter steps
      else meant filter steps ++ s.published?.toList.filter filter.accepts := by
  induction steps with
  | nil =>
    rw [List.nil_append, meant_cons, if_neg List.not_mem_nil]
    split_ifs with hs
    · rw [hs]
      rfl
    · exact List.append_nil _
  | cons first rest ih =>
    rw [List.cons_append, meant_cons, meant_cons, ih]
    by_cases hfirst : first = .closeAll
    · simp [hfirst]
    · have hmem : .closeAll ∈ first :: rest ↔ .closeAll ∈ rest := by
        simp [Ne.symm hfirst]
      rw [if_neg hfirst, if_neg hfirst, if_congr hmem rfl rfl]
      split_ifs
      · rfl
      · exact (List.append_assoc _ _ _).symm

namespace Activity

def handed (x : Activity) (id : SubscriptionId) : Step → Option FlowEvent
  | .receive other => if other = id then (x.hub.receive other).1.event? else none
  | _ => none

def received (x : Activity) (id : SubscriptionId) : List Step → List FlowEvent
  | [] => []
  | s :: rest => (x.handed id s).toList ++ (x.step s).received id rest

variable (x : Activity) (id : SubscriptionId)

theorem received_concat (steps : List Step) (s : Step) :
    x.received id (steps ++ [s]) = x.received id steps ++ ((x.run steps).handed id s).toList := by
  induction steps generalizing x with
  | nil => simp [received]
  | cons first rest ih => simp [received, ih]

theorem closed_run (steps : List Step) (hsteps : .closeAll ∉ steps) :
    (x.run steps).hub.closed = x.hub.closed := by
  induction steps generalizing x with
  | nil => rfl
  | cons s rest ih =>
    rw [List.mem_cons, not_or] at hsteps
    rw [run_cons, ih _ hsteps.2]
    cases s with
    | closeAll => exact absurd rfl hsteps.1
    | receive id => exact closed_receive _ _
    | register id filter capacity =>
      rw [step]
      split_ifs <;> rfl
    | remove id =>
      rw [step]
      split_ifs <;> rfl
    | allocate => rfl
    | offer e => rfl
    | release id => rfl

/-- What a step makes of the queue of a subscription that is held. -/
def react (id : SubscriptionId) (filter : FlowFilter) (closed : Bool) (q : Queue) : Step → Queue
  | .offer e => if !closed && filter.accepts e then q.offer e else q
  | .receive other => if other = id then { q with pending := q.pending.tail } else q
  | _ => q

/-- The consumer holds the queue, and until the hub is closed the filter is registered. -/
structure Serves (id : SubscriptionId) (filter : FlowFilter) (closed : Bool) (q : Queue) :
    Prop where
  held : x.hub.held.find? id = some q
  registered : x.hub.registered.find? id = if closed then none else some filter

variable {x} {id} {filter : FlowFilter} {closed : Bool} {q : Queue}

theorem serves_register (hid : id ∈ x.arriving) (hopen : x.hub.closed = false)
    (filter : FlowFilter) (capacity : Nat) :
    (x.step (.register id filter capacity)).Serves id filter false (.ofCapacity capacity) := by
  rw [step, if_pos hid]
  constructor
  · rw [held_register, if_pos rfl]
  · rw [registered_register, if_pos ⟨rfl, hopen⟩]
    rfl

theorem Serves.wants_eq (h : x.Serves id filter closed q) (e : FlowEvent) :
    x.hub.wants id e = (!closed && filter.accepts e) := by
  cases closed with
  | false => exact x.hub.wants_of_registered id e h.registered
  | true => exact x.hub.wants_of_not_registered id e h.registered

/-- No step of others touches the queue or the filter. -/
theorem Serves.step (hx : x.Sound) (h : x.Serves id filter closed q) (s : Step)
    (hs : s ≠ .release id) :
    (x.step s).Serves id filter (closed || s == .closeAll) (react id filter closed q s) := by
  have hopen : s ≠ .closeAll → (closed || s == .closeAll) = closed := by
    intro hne
    rw [beq_eq_false_iff_ne.mpr hne, Bool.or_false]
  cases s with
  | allocate =>
    rw [hopen (by simp)]
    exact ⟨h.held, h.registered⟩
  | register other f capacity =>
    rw [hopen (by simp), Activity.step]
    split_ifs with hother
    · have hne : id ≠ other := by
        rintro rfl
        have hnone := hx.not_held id hother
        rw [h.held] at hnone
        cases hnone
      constructor
      · rw [held_register, if_neg hne, h.held]
        rfl
      · rw [registered_register, if_neg fun h => hne h.1, h.registered]
    · exact h
  | offer e =>
    rw [hopen (by simp)]
    constructor
    · rw [Activity.step, held_offer, h.held, Option.map_some, h.wants_eq]
      rfl
    · exact h.registered
  | remove other =>
    rw [hopen (by simp), hx.step_remove]
    exact h
  | receive other =>
    rw [hopen (by simp)]
    constructor
    · rw [Activity.step, held_receive, h.held, react]
      by_cases hother : other = id
      · rw [if_pos hother, if_pos hother.symm]
        rfl
      · rw [if_neg hother, if_neg (Ne.symm hother)]
    · rw [Activity.step, registered_receive, h.registered]
  | release other =>
    have hne : id ≠ other := fun hid => hs (hid ▸ rfl)
    rw [hopen (by simp)]
    constructor
    · rw [Activity.step, held_release, if_neg hne, h.held]
      rfl
    · rw [Activity.step, registered_release, if_neg hne, h.registered]
  | closeAll =>
    constructor
    · exact h.held
    · rw [beq_self_eq_true, Bool.or_true]
      rfl

theorem Serves.handed_eq (h : x.Serves id filter closed q) (s : Step) :
    x.handed id s = if s = .receive id then q.pending.head? else none := by
  cases s with
  | receive other =>
    rw [handed]
    by_cases hother : other = id
    · subst hother
      rw [if_pos rfl, if_pos rfl, event?_receive, h.held]
      rfl
    · rw [if_neg hother, if_neg (by simpa using hother)]
  | _ => rfl

theorem capacity_react (s : Step) : (react id filter closed q s).capacity = q.capacity := by
  cases s with
  | offer e =>
    rw [react]
    split_ifs
    · exact q.capacity_offer e
    · rfl
  | receive other =>
    rw [react]
    split_ifs <;> rfl
  | _ => rfl

theorem accounts_react {received meant : List FlowEvent} (h : x.Serves id filter closed q)
    (hq : q.Accounts received meant) (s : Step) :
    (react id filter closed q s).Accounts (received ++ (x.handed id s).toList)
      (if closed then meant else meant ++ s.published?.toList.filter filter.accepts) := by
  rw [h.handed_eq]
  cases s with
  | offer e =>
    have hnone : (if Step.offer e = .receive id then q.pending.head? else none).toList = [] := by
      simp
    rw [react, hnone, List.append_nil]
    cases closed with
    | true => exact hq
    | false =>
      by_cases he : filter.accepts e = true
      · simpa [Step.published?, he] using hq.offer e
      · simpa [Step.published?, he] using hq
  | receive other =>
    rw [react]
    by_cases hother : other = id
    · subst hother
      simpa [Step.published?] using hq.receive
    · simpa [Step.published?, hother] using hq
  | _ => simpa [react, Step.published?] using hq

/-- A subscription is served all along, and accounts for what is meant for it. -/
theorem exists_serves_accounts (hx : x.Sound) (hid : id ∈ x.arriving)
    (hopen : x.hub.closed = false) (filter : FlowFilter) (capacity : Nat) (after : List Step)
    (hheld : .release id ∉ after) :
    ∃ q, ((x.step (.register id filter capacity)).run after).Serves id filter
        (decide (.closeAll ∈ after)) q ∧
      q.capacity = max capacity 1 ∧
      q.Accounts ((x.step (.register id filter capacity)).received id after)
        (meant filter after) := by
  have hy := hx.step (.register id filter capacity)
  have hstart := serves_register hid hopen filter capacity
  generalize x.step (.register id filter capacity) = y at hy hstart ⊢
  induction after using List.reverseRecOn with
  | nil => exact ⟨_, hstart, rfl, Queue.accounts_ofCapacity capacity⟩
  | append_singleton after s ih =>
    rw [List.mem_append, not_or, List.mem_singleton] at hheld
    obtain ⟨q, hserves, hcapacity, haccounts⟩ := ih hheld.1
    refine ⟨react id filter (decide (.closeAll ∈ after)) q s, ?_,
      (capacity_react s).trans hcapacity, ?_⟩
    · rw [run_concat]
      have hclosed : decide (.closeAll ∈ after ++ [s]) =
          (decide (.closeAll ∈ after) || s == .closeAll) := by
        rw [Bool.eq_iff_iff, decide_eq_true_iff, List.mem_append, List.mem_singleton,
          Bool.or_eq_true, decide_eq_true_iff, beq_iff_eq]
        exact or_congr_right eq_comm
      rw [hclosed]
      exact hserves.step (hy.run after) s (Ne.symm hheld.2)
    · rw [received_concat, meant_concat]
      have hstep := accounts_react hserves haccounts s
      simp only [decide_eq_true_eq] at hstep
      exact hstep

/-- As long as a subscription is held, what was received and what is queued is a part of what is
meant for it, in the order of publication and each event at most once, and the rest was dropped. An
event that is meant for it is queued, or it is dropped because the queue was full. -/
theorem subscription_accounts_for_meant (before after : List Step) (id : SubscriptionId)
    (filter : FlowFilter) (capacity : Nat) (harriving : id ∈ (({} : Activity).run before).arriving)
    (hopen : .closeAll ∉ before) (hheld : .release id ∉ after) :
    let x := (({} : Activity).run before).step (.register id filter capacity)
    (∃ q, (x.run after).hub.held.find? id = some q ∧
      (x.received id after ++ q.pending).Sublist (meant filter after) ∧
      (x.received id after).length + q.pending.length + q.dropped =
        (meant filter after).length ∧
      q.pending.length ≤ max capacity 1) ∧
    ∀ earlier e later, after = earlier ++ .offer e :: later → .closeAll ∉ earlier →
      filter.accepts e = true →
      ∃ q, (x.run earlier).hub.held.find? id = some q ∧
        (x.run (earlier ++ [.offer e])).hub.held.find? id =
          some (if q.pending.length = max capacity 1 then { q with dropped := q.dropped + 1 }
            else { q with pending := q.pending ++ [e] }) := by
  intro x
  have hsound : (({} : Activity).run before).Sound := sound_start.run before
  have hclosed : (({} : Activity).run before).hub.closed = false := closed_run {} before hopen
  have hall : ∀ steps, .release id ∉ steps → ∃ q, (x.run steps).Serves id filter
      (decide (.closeAll ∈ steps)) q ∧ q.capacity = max capacity 1 ∧
        q.Accounts (x.received id steps) (meant filter steps) :=
    fun steps => exists_serves_accounts hsound harriving hclosed filter capacity steps
  constructor
  · obtain ⟨q, hserves, hcapacity, hordered, hbalanced, hbounded⟩ := hall after hheld
    exact ⟨q, hserves.held, hordered, hbalanced, hcapacity ▸ hbounded⟩
  · rintro earlier e later rfl hearlier he
    rw [List.mem_append, not_or] at hheld
    obtain ⟨q, hserves, hcapacity, haccounts⟩ := hall earlier hheld.1
    refine ⟨q, hserves.held, ?_⟩
    have hsoundx : (x.run earlier).Sound := (hsound.step _).run earlier
    rw [run_concat, (hserves.step hsoundx (.offer e) (by simp)).held, react, ← hcapacity,
      ← q.offer_eq e haccounts.bounded]
    simp [hearlier, he]

def packetTo (port : UInt16) : FlowEvent :=
  ⟨⟨⟨10, 11, 43210, port, 6⟩, .forwarded, 0, false⟩, none, none⟩

/-- Two subscribers take their identifiers before either registers. -/
def overlap : List Step := [.allocate, .allocate, .register 1 {} 4]

/-- Three events for a queue of one, which is drained only once before the hub is closed. -/
def rush : List Step :=
  [.offer (packetTo 80), .offer (packetTo 81), .receive 0, .release 1, .offer (packetTo 82),
    .closeAll, .offer (packetTo 83)]

theorem subscription_accounts_for_meant_rush :
    0 ∈ (({} : Activity).run overlap).arriving ∧ .closeAll ∉ overlap ∧ .release 0 ∉ rush ∧
      let x := (({} : Activity).run overlap).step (.register 0 {} 0)
      ∃ q, (x.run rush).hub.held.find? 0 = some q ∧
        (x.received 0 rush ++ q.pending).Sublist (meant {} rush) ∧
        (x.received 0 rush).length + q.pending.length + q.dropped = (meant {} rush).length ∧
        q.pending.length ≤ max 0 1 := by
  have harriving : 0 ∈ (({} : Activity).run overlap).arriving := by decide
  have hopen : .closeAll ∉ overlap := by decide
  have hheld : .release 0 ∉ rush := by decide
  exact ⟨harriving, hopen, hheld,
    (subscription_accounts_for_meant overlap rush 0 {} 0 harriving hopen hheld).1⟩

end Activity
end Hub
end FlowObserver
