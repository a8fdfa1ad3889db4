import FlowObserver.Proofs.Hub.Accounting

/-!
# Subscriptions do not reach one another

A hub seen by one subscription: its own operations, what is published, and the close. From these
alone follows what each of its receives finds and how many events it has lost. So two hubs that look
the same to it, with whatever other subscriptions, answer it the same.
-/

namespace FlowObserver

def Queue.found (q : Queue) (closed : Bool) : Received :=
  match q.pending with
  | e :: _ => .event e
  | [] => if closed then .ended else .pending

namespace Hub

/-- A step as a subscription sees it. -/
inductive Concern where
  | registered (filter : FlowFilter) (capacity : Nat)
  | published (e : FlowEvent)
  | asked
  | released
  | closed
  deriving DecidableEq, Repr

def Step.concern? (id : SubscriptionId) : Step → Option Concern
  | .register other filter capacity =>
    if other = id then some (.registered filter capacity) else none
  | .offer e => some (.published e)
  | .receive other => if other = id then some .asked else none
  | .release other => if other = id then some .released else none
  | .closeAll => some .closed
  | .allocate | .remove _ => none

structure Solo where
  closed : Bool := false
  held : Option (FlowFilter × Queue) := none

namespace Solo

def after (s : Solo) : Concern → Solo
  | .registered filter capacity => { s with held := some (filter, .ofCapacity capacity) }
  | .published e =>
    { s with held := s.held.map fun (filter, q) =>
        (filter, if !s.closed && filter.accepts e then q.offer e else q) }
  | .asked =>
    { s with held := s.held.map fun (filter, q) => (filter, { q with pending := q.pending.tail }) }
  | .released => { s with held := none }
  | .closed => { s with closed := true }

def answer? (s : Solo) : Concern → Option Received
  | .asked => some (s.held.elim .ended fun (_, q) => q.found s.closed)
  | _ => none

def answers (s : Solo) : List Concern → List Received
  | [] => []
  | c :: rest => (s.answer? c).toList ++ (s.after c).answers rest

def dropped? (s : Solo) : Option Nat := s.held.map (·.2.dropped)

/-- A step of the hub, as far as it concerns the subscription. -/
def step (s : Solo) (id : SubscriptionId) (t : Step) : Solo := (t.concern? id).elim s s.after

variable (s : Solo) (id : SubscriptionId)

theorem closed_step (t : Step) : (s.step id t).closed = (s.closed || t == .closeAll) := by
  cases t with
  | closeAll => exact (Bool.or_true _).symm
  | register other filter capacity | receive other | release other =>
    rw [step, Step.concern?]
    split_ifs <;> exact (Bool.or_false _).symm
  | allocate | offer e | remove other => exact (Bool.or_false _).symm

theorem held_step_register (filter : FlowFilter) (capacity : Nat) :
    (s.step id (.register id filter capacity)).held = some (filter, .ofCapacity capacity) := by
  rw [step, Step.concern?, if_pos rfl]
  rfl

theorem held_step_release : (s.step id (.release id)).held = none := by
  rw [step, Step.concern?, if_pos rfl]
  rfl

/-- Between its registration and its release a subscription is a queue that reacts. -/
theorem held_step {t : Step} (hregister : ∀ filter capacity, t ≠ .register id filter capacity)
    (hrelease : t ≠ .release id) :
    (s.step id t).held =
      s.held.map fun (filter, q) => (filter, Activity.react id filter s.closed q t) := by
  have hsame : s.held = s.held.map fun (filter, q) => (filter, q) := Option.map_id'.symm
  cases t with
  | allocate | closeAll | remove other => exact hsame
  | offer e => rfl
  | register other filter capacity =>
    have hother : other ≠ id := fun h => hregister filter capacity (h ▸ rfl)
    rw [step, Step.concern?, if_neg hother]
    exact hsame
  | release other =>
    have hother : other ≠ id := fun h => hrelease (h ▸ rfl)
    rw [step, Step.concern?, if_neg hother]
    exact hsame
  | receive other =>
    rw [step, Step.concern?]
    by_cases hother : other = id
    · simp [hother, after, Activity.react]
    · simp [hother, Activity.react]

end Solo

namespace Activity

def answer? (x : Activity) (id : SubscriptionId) : Step → Option Received
  | .receive other => if other = id then some (x.hub.receive id).1 else none
  | _ => none

def answers (x : Activity) (id : SubscriptionId) : List Step → List Received
  | [] => []
  | s :: rest => (x.answer? id s).toList ++ (x.step s).answers id rest

/-- The identifier is registered by its own subscriber alone, which has taken it. -/
def RegistersOwn (x : Activity) (id : SubscriptionId) : List Step → Prop
  | [] => True
  | s :: rest =>
    (∀ filter capacity, s = .register id filter capacity → id ∈ x.arriving) ∧
      (x.step s).RegistersOwn id rest

theorem RegistersOwn.of_append {x : Activity} {id : SubscriptionId} {steps later : List Step}
    (h : x.RegistersOwn id (steps ++ later)) : x.RegistersOwn id steps := by
  induction steps generalizing x with
  | nil => exact trivial
  | cons s rest ih => exact ⟨h.1, ih h.2⟩

/-- The hub holds for the identifier what the subscription has by itself. -/
structure Mirrors (x : Activity) (id : SubscriptionId) (s : Solo) : Prop where
  closed : x.hub.closed = s.closed
  serves : ∀ filter q, s.held = some (filter, q) → x.Serves id filter s.closed q
  absent : s.held = none → x.hub.held.find? id = none

theorem mirrors_start (id : SubscriptionId) : Mirrors {} id {} where
  closed := rfl
  serves _ _ h := nomatch h
  absent _ := rfl

variable {x : Activity} {id : SubscriptionId} {s : Solo}

theorem closed_step (x : Activity) (t : Step) :
    (x.step t).hub.closed = (x.hub.closed || t == .closeAll) := by
  cases t with
  | closeAll => exact (Bool.or_true _).symm
  | receive other =>
    rw [step, closed_receive]
    exact (Bool.or_false _).symm
  | register other filter capacity | remove other =>
    rw [step]
    split_ifs <;> exact (Bool.or_false _).symm
  | allocate | offer e | release other => exact (Bool.or_false _).symm

/-- On a closed hub the queue is held all the same. -/
theorem Sound.serves_register (hx : x.Sound) (hid : id ∈ x.arriving) (filter : FlowFilter)
    (capacity : Nat) :
    (x.step (.register id filter capacity)).Serves id filter x.hub.closed
      (.ofCapacity capacity) := by
  rw [Activity.step, if_pos hid]
  constructor
  · rw [held_register, if_pos rfl]
  · rw [registered_register, hx.held_of_registered id (hx.not_held id hid)]
    cases x.hub.closed <;> simp

theorem held_step_of_absent (hx : x.Sound) (habsent : x.hub.held.find? id = none) {t : Step}
    (ht : ∀ filter capacity, t ≠ .register id filter capacity) :
    (x.step t).hub.held.find? id = none := by
  cases t with
  | allocate | closeAll => exact habsent
  | register other filter capacity =>
    rw [step]
    split_ifs
    · have hne : id ≠ other := by
        rintro rfl
        exact ht filter capacity rfl
      rw [held_register, if_neg hne, habsent]
    · exact habsent
  | offer e => rw [step, held_offer, habsent, Option.map_none]
  | remove other => rwa [hx.step_remove]
  | receive other =>
    rw [step, held_receive, habsent]
    split_ifs <;> rfl
  | release other =>
    rw [step, held_release, habsent]
    split_ifs <;> rfl

/-- One step of a hub is at most one step of the subscription by itself. -/
theorem Mirrors.step (hx : x.Sound) (h : x.Mirrors id s) (t : Step)
    (hown : ∀ filter capacity, t = .register id filter capacity → id ∈ x.arriving) :
    (x.step t).Mirrors id (s.step id t) := by
  have hclosed : (x.step t).hub.closed = (s.step id t).closed := by
    rw [closed_step, h.closed, Solo.closed_step]
  by_cases hregister : ∃ filter capacity, t = .register id filter capacity
  · obtain ⟨filter, capacity, rfl⟩ := hregister
    have hserves := hx.serves_register (hown filter capacity rfl) filter capacity
    have hsame : (x.step (.register id filter capacity)).hub.closed = x.hub.closed := by
      rw [closed_step]
      exact Bool.or_false _
    rw [← hsame, hclosed] at hserves
    refine ⟨hclosed, ?_, ?_⟩
    · intro f q hq
      rw [Solo.held_step_register] at hq
      cases hq
      exact hserves
    · intro hnone
      rw [Solo.held_step_register] at hnone
      cases hnone
  · have hother : ∀ filter capacity, t ≠ .register id filter capacity :=
      fun filter capacity ht => hregister ⟨filter, capacity, ht⟩
    by_cases hrelease : t = .release id
    · subst hrelease
      refine ⟨hclosed, ?_, ?_⟩
      · intro f q hq
        rw [Solo.held_step_release] at hq
        cases hq
      · intro _
        rw [Activity.step, held_release, if_pos rfl]
    · have hheld := s.held_step id hother hrelease
      refine ⟨hclosed, ?_, ?_⟩
      · intro f q hq
        rw [hheld] at hq
        obtain ⟨⟨filter, before⟩, hbefore, hafter⟩ := Option.map_eq_some_iff.mp hq
        cases hafter
        rw [Solo.closed_step]
        exact (h.serves f before hbefore).step hx t hrelease
      · intro hnone
        rw [hheld, Option.map_eq_none_iff] at hnone
        exact held_step_of_absent hx (h.absent hnone) hother

theorem Serves.receive_eq {filter : FlowFilter} {closed : Bool} {q : Queue}
    (h : x.Serves id filter closed q) : (x.hub.receive id).1 = q.found closed := by
  obtain ⟨hheld, hregistered⟩ := h
  obtain ⟨capacity, pending, dropped⟩ := q
  rw [receive, hheld, Table.contains, hregistered, Queue.found]
  cases pending with
  | nil => cases closed <;> rfl
  | cons e rest => rfl

theorem Mirrors.answer?_eq (h : x.Mirrors id s) (t : Step) :
    x.answer? id t = (t.concern? id).bind s.answer? := by
  cases t with
  | receive other =>
    rw [answer?, Step.concern?]
    by_cases hother : other = id
    · subst hother
      rw [if_pos rfl, if_pos rfl]
      cases hs : s.held with
      | none =>
        rw [receive, h.absent hs]
        simp [Solo.answer?, hs]
      | some held =>
        obtain ⟨filter, q⟩ := held
        rw [(h.serves filter q hs).receive_eq]
        simp [Solo.answer?, hs]
    · rw [if_neg hother, if_neg hother]
      rfl
  | register other filter capacity | release other =>
    rw [Step.concern?]
    split_ifs <;> rfl
  | allocate | offer e | remove other | closeAll => rfl

theorem Mirrors.dropped?_eq (h : x.Mirrors id s) : x.hub.dropped? id = s.dropped? := by
  rw [dropped?, Solo.dropped?]
  cases hs : s.held with
  | none => rw [h.absent hs]; rfl
  | some held =>
    obtain ⟨filter, q⟩ := held
    rw [(h.serves filter q hs).held]
    rfl

def concerns (id : SubscriptionId) (steps : List Step) : List Concern :=
  steps.filterMap (Step.concern? id)

/-- What a subscription finds and loses among others is what it does by itself. -/
theorem Mirrors.run (hx : x.Sound) (h : x.Mirrors id s) (steps : List Step)
    (hown : x.RegistersOwn id steps) :
    x.answers id steps = s.answers (concerns id steps) ∧
      (x.run steps).Mirrors id ((concerns id steps).foldl Solo.after s) := by
  induction steps generalizing x s with
  | nil => exact ⟨rfl, h⟩
  | cons t rest ih =>
    obtain ⟨hanswers, hrun⟩ := ih (hx.step t) (h.step hx t hown.1) hown.2
    rw [answers, hanswers, h.answer?_eq t]
    unfold concerns at hrun ⊢
    rw [List.filterMap_cons]
    cases hc : t.concern? id with
    | none =>
      rw [Solo.step, hc] at hrun ⊢
      exact ⟨rfl, hrun⟩
    | some c =>
      rw [Solo.step, hc] at hrun ⊢
      exact ⟨rfl, hrun⟩

/-- Two hubs in which the same concerns a subscription, in the same order, let it find the same at
each receive, and at each moment it has lost as many events in the one as in the other. -/
theorem unaffected_by_others (steps others : List Step) (id other : SubscriptionId)
    (hid : RegistersOwn {} id steps) (hother : RegistersOwn {} other others)
    (hsame : concerns id steps = concerns other others) :
    answers {} id steps = answers {} other others ∧
      ∀ before before', before <+: steps → before' <+: others →
        concerns id before = concerns other before' →
        (run {} before).hub.dropped? id = (run {} before').hub.dropped? other := by
  constructor
  · rw [((mirrors_start id).run sound_start steps hid).1,
      ((mirrors_start other).run sound_start others hother).1, hsame]
  · rintro before before' ⟨rest, rfl⟩ ⟨rest', rfl⟩ hconcerns
    rw [((mirrors_start id).run sound_start before hid.of_append).2.dropped?_eq,
      ((mirrors_start other).run sound_start before' hother.of_append).2.dropped?_eq, hconcerns]

/-- A subscriber with a queue of one, and nobody else. -/
def alone : List Step :=
  [.allocate, .register 0 {} 1, .offer (packetTo 80), .offer (packetTo 81), .receive 0, .closeAll,
    .receive 0]

/-- The same subscriber beside another one, which came first and leaves between two publications. -/
def accompanied : List Step :=
  [.allocate, .allocate, .register 0 {} 2, .register 1 {} 1, .receive 0, .offer (packetTo 80),
    .release 0, .offer (packetTo 81), .receive 1, .closeAll, .receive 1]

theorem unaffected_by_others_accompanied :
    RegistersOwn {} 0 alone ∧ RegistersOwn {} 1 accompanied ∧
      concerns 0 alone = concerns 1 accompanied ∧
      answers {} 0 alone = answers {} 1 accompanied ∧
      (run {} alone).hub.dropped? 0 = (run {} accompanied).hub.dropped? 1 := by
  have halone : RegistersOwn {} 0 alone :=
    ⟨nofun, fun _ _ _ => by decide, nofun, nofun, nofun, nofun, nofun, trivial⟩
  have haccompanied : RegistersOwn {} 1 accompanied :=
    ⟨nofun, nofun, nofun, fun _ _ _ => by decide, nofun, nofun, nofun, nofun, nofun, nofun, nofun,
      trivial⟩
  have hsame : concerns 0 alone = concerns 1 accompanied := by decide
  obtain ⟨hanswers, hdropped⟩ :=
    unaffected_by_others alone accompanied 0 1 halone haccompanied hsame
  exact ⟨halone, haccompanied, hsame, hanswers,
    hdropped _ _ List.prefix_rfl List.prefix_rfl hsame⟩

end Activity
end Hub
end FlowObserver
