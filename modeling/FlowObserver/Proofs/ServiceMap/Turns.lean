import FlowObserver.Proofs.Hub.Isolation
import FlowObserver.Proofs.ServiceMap.Window
import FlowObserver.ServiceMap.Task

/-!
# The service map's task among the users of the hub

The task that feeds the service map takes turns with the users of the hub, while time passes. By one
turn it receives an event, by the next it counts it; when nothing more can come it reports how many
events it lost, and ends. In a course of these steps, what is published, what finds room in the
queue of the task and what is counted are gathered step by step.
-/

namespace FlowObserver

theorem Table.erase_insert {κ ν : Type} [DecidableEq κ] (t : Table κ ν) (k : κ) (v : ν) :
    (t.insert k v).erase k = t.erase k := by
  obtain ⟨entries, hnodup⟩ := t
  have hreplace : (replace entries k v).filter (fun e => decide (e.1 ≠ k)) =
      entries.filter fun e => decide (e.1 ≠ k) := by
    clear hnodup
    induction entries with
    | nil => rfl
    | cons e rest ih =>
      rw [replace] at ih ⊢
      by_cases he : e.1 = k <;> simpa [he] using ih
  unfold insert
  split_ifs
  · simp only [erase, filter, hreplace]
  · simp [erase, filter]

namespace Hub

theorem release_insert (h : Hub) (id : SubscriptionId) (q : Queue) :
    ({ h with held := h.held.insert id q } : Hub).release id = h.release id := by
  simp only [release, unregister, Table.erase_insert]

theorem receive_of_pending {h : Hub} {id : SubscriptionId} (hr : (h.receive id).1 = .pending) :
    h.receive id = (.pending, h) := by
  unfold receive at hr ⊢
  cases hq : h.held.find? id with
  | none => simp [hq] at hr
  | some q =>
    cases hp : q.pending with
    | nil =>
      simp only [hq, hp] at hr ⊢
      rw [hr]
    | cons e rest => simp [hq, hp] at hr

end Hub

namespace ServiceMap

/-- The task, the hub that it shares with others, and the clock. -/
structure Collection where
  users : Hub.Activity
  subscription : SubscriptionId
  map : ServiceMap
  now : Nat
  /-- What was received and is not counted yet. -/
  carried : Option FlowEvent := none
  /-- The number of lost events, once the task has ended and reported it. -/
  reported : Option Nat := none

namespace Collection

inductive Step where
  | use (s : Hub.Step)
  | wait (nanos : Nat)
  | turn
  deriving DecidableEq, Repr

/-- The task asks for the next event. It ends if none can come any more. -/
def receive (x : Collection) : Collection :=
  match (x.users.hub.receive x.subscription).1 with
  | .event e => { x with users := x.users.step (.receive x.subscription), carried := some e }
  | .pending => x
  | .ended =>
    { x with
      users := x.users.step (.release x.subscription)
      reported := some ((x.users.hub.dropped? x.subscription).getD 0) }

def turn (x : Collection) : Collection :=
  match x.carried with
  | some e => { x with map := x.map.record e x.now, carried := none }
  | none => if x.reported.isSome then x else x.receive

theorem turn_of_idle {x : Collection} (hcarried : x.carried = none) (hactive : x.reported = none) :
    x.turn = x.receive := by
  rw [turn, hcarried, hactive]
  rfl

theorem turn_of_carried {x : Collection} {e : FlowEvent} (hcarried : x.carried = some e) :
    x.turn = { x with map := x.map.record e x.now, carried := none } := by
  rw [turn, hcarried]

theorem receive_of_event {x : Collection} {e : FlowEvent}
    (hfound : (x.users.hub.receive x.subscription).1 = .event e) : x.receive =
      { x with users := x.users.step (.receive x.subscription), carried := some e } := by
  rw [receive, hfound]

def step (x : Collection) : Step → Collection
  | .use s => { x with users := x.users.step s }
  | .wait nanos => { x with now := x.now + nanos }
  | .turn => x.turn

def run (x : Collection) (course : List Step) : Collection := course.foldl step x

/-- All that a turn of the task can do. -/
theorem turn_cases (x : Collection) :
    (∃ e, x.carried = some e ∧
      x.turn = { x with map := x.map.record e x.now, carried := none }) ∨
    x.carried = none ∧
      ((∃ e, (x.users.hub.receive x.subscription).1 = .event e ∧ x.turn =
          { x with users := x.users.step (.receive x.subscription), carried := some e }) ∨
        (x.reported.isSome = true ∨ (x.users.hub.receive x.subscription).1 = .pending) ∧
          x.turn = x ∨
        (x.users.hub.receive x.subscription).1 = .ended ∧ x.turn =
          { x with
            users := x.users.step (.release x.subscription)
            reported := some ((x.users.hub.dropped? x.subscription).getD 0) }) := by
  unfold turn receive
  cases x.carried with
  | some e => exact .inl ⟨e, rfl, rfl⟩
  | none =>
    refine .inr ⟨rfl, ?_⟩
    dsimp only
    split_ifs with hended
    · exact .inr (.inl ⟨.inl hended, rfl⟩)
    · cases (x.users.hub.receive x.subscription).1 with
      | event e => exact .inl ⟨e, rfl, rfl⟩
      | pending => exact .inr (.inl ⟨.inr rfl, rfl⟩)
      | ended => exact .inr (.inr ⟨rfl, rfl⟩)

theorem run_append (x : Collection) (course later : List Step) :
    x.run (course ++ later) = (x.run course).run later :=
  List.foldl_append

theorem run_concat (x : Collection) (course : List Step) (s : Step) :
    x.run (course ++ [s]) = (x.run course).step s :=
  x.run_append course [s]

/-- The task registers its subscription, for all events, and starts with an empty map. -/
def start (users : Hub.Activity) (id : SubscriptionId) (capacity : Nat)
    (settings : ServiceMapSettings) (began : Nat) : Collection where
  users := users.step (.register id {} capacity)
  subscription := id
  map := .ofSettings settings
  now := began

namespace Step

def use? : Step → Option Hub.Step
  | use s => some s
  | wait _ | turn => none

/-- Others leave the subscription to the task. -/
def Spares (id : SubscriptionId) : Step → Prop
  | use s => s ≠ .receive id ∧ s ≠ .release id
  | wait _ | turn => True

instance (id : SubscriptionId) : (s : Step) → Decidable (s.Spares id)
  | use _ => inferInstanceAs (Decidable (_ ∧ _))
  | wait _ | turn => inferInstanceAs (Decidable True)

end Step

def uses (course : List Step) : List Hub.Step := course.filterMap Step.use?

/-- The events that are published before the close. -/
def published (course : List Step) : List FlowEvent := Hub.meant {} (uses course)

/-- The event that a step publishes on the open hub. -/
def publishes (x : Collection) (s : Step) : Option FlowEvent :=
  if x.users.hub.closed then none else s.use?.bind Hub.Step.published?

def admits (x : Collection) : Step → Option FlowEvent
  | .use (.offer e) =>
    if x.users.hub.wants x.subscription e &&
      (x.users.hub.held.find? x.subscription).any (!·.isFull) then some e
    else none
  | _ => none

def counts (x : Collection) : Step → Option (FlowEvent × Nat)
  | .turn => x.carried.map fun e => (e, x.now)
  | .use _ | .wait _ => none

/-- What the steps of a course yield, each where it is taken. -/
def gather {α : Type} (yields : Collection → Step → Option α) (x : Collection) :
    List Step → List α
  | [] => []
  | s :: rest => (yields x s).toList ++ gather yields (x.step s) rest

def admitted (x : Collection) (course : List Step) : List FlowEvent := gather admits x course

def counted (x : Collection) (course : List Step) : List (FlowEvent × Nat) :=
  gather counts x course

theorem gather_append {α : Type} (yields : Collection → Step → Option α) (x : Collection)
    (course later : List Step) :
    gather yields x (course ++ later) =
      gather yields x course ++ gather yields (x.run course) later := by
  induction course generalizing x with
  | nil => rfl
  | cons s rest ih =>
    rw [List.cons_append, gather, gather, ih, List.append_assoc]
    rfl

theorem gather_concat {α : Type} (yields : Collection → Step → Option α) (x : Collection)
    (course : List Step) (s : Step) :
    gather yields x (course ++ [s]) =
      gather yields x course ++ (yields (x.run course) s).toList := by
  rw [gather_append, gather, gather, List.append_nil]

theorem closed_step_iff (x : Collection) (s : Step) :
    (x.step s).users.hub.closed = true ↔ x.users.hub.closed = true ∨ s = .use .closeAll := by
  cases s with
  | use t => simp [step, Hub.Activity.closed_step]
  | wait nanos => simp [step]
  | turn =>
    rw [step]
    rcases x.turn_cases with ⟨e, -, h⟩ | ⟨-, ⟨e, -, h⟩ | ⟨-, h⟩ | ⟨-, h⟩⟩ <;>
      simp [h, Hub.Activity.closed_step]

theorem uses_concat (course : List Step) (s : Step) :
    uses (course ++ [s]) = uses course ++ s.use?.toList := by
  unfold uses
  rw [List.filterMap_append, List.filterMap_cons]
  cases s.use? <;> rfl

theorem closed_run_iff (x : Collection) (course : List Step) :
    (x.run course).users.hub.closed = true ↔
      x.users.hub.closed = true ∨ .closeAll ∈ uses course := by
  induction course using List.reverseRecOn with
  | nil => simp [run, uses]
  | append_singleton course s ih =>
    rw [run_concat, closed_step_iff, uses_concat, ih, List.mem_append, or_assoc]
    apply or_congr_right
    apply or_congr_right
    cases s with
    | use t => simpa [Step.use?] using eq_comm
    | wait nanos | turn => simp [Step.use?]

theorem filter_accepts (events : List FlowEvent) :
    events.filter ({} : FlowFilter).accepts = events :=
  List.filter_eq_self.mpr fun _ _ => rfl

/-- On a hub that is open at first, the events before the close are those that are published. -/
theorem gather_publishes {x : Collection} (hopen : x.users.hub.closed = false)
    (course : List Step) : gather publishes x course = published course := by
  induction course using List.reverseRecOn with
  | nil => rfl
  | append_singleton course s ih =>
    have hclosed : (x.run course).users.hub.closed = true ↔ .closeAll ∈ uses course := by
      simp [closed_run_iff, hopen]
    rw [gather_concat, ih, publishes, published, published, uses_concat, if_congr hclosed rfl rfl]
    cases s.use? with
    | none => simp
    | some t =>
      rw [Option.toList_some, Hub.meant_concat, filter_accepts]
      split_ifs
      · exact List.append_nil _
      · rfl

theorem subscription_run (x : Collection) (course : List Step) :
    (x.run course).subscription = x.subscription := by
  induction course using List.reverseRecOn with
  | nil => rfl
  | append_singleton course s ih =>
    rw [run_concat, ← ih]
    cases s with
    | use s | wait nanos => rfl
    | turn =>
      rw [step]
      rcases (x.run course).turn_cases with ⟨e, -, h⟩ | ⟨-, ⟨e, -, h⟩ | ⟨-, h⟩ | ⟨-, h⟩⟩ <;> rw [h]

theorem spares_run {x : Collection} {s : Step} (hs : s.Spares x.subscription)
    (course : List Step) : s.Spares (x.run course).subscription := by
  rwa [subscription_run]

theorem map_run (x : Collection) (course : List Step) :
    (x.run course).map =
      { x.map with buckets := x.map.buckets.recordAll (inSeconds (x.counted course)) } := by
  induction course using List.reverseRecOn with
  | nil => rfl
  | append_singleton course s ih =>
    rw [run_concat, counted, gather_concat]
    cases s with
    | use s | wait nanos => simpa [step, counts, counted] using ih
    | turn =>
      rw [step, counts]
      rcases (x.run course).turn_cases with ⟨e, hcarried, h⟩ | ⟨hcarried, ⟨e, -, h⟩ | ⟨-, h⟩ | ⟨-, h⟩⟩
      · rw [h, hcarried, ih]
        simp [inSeconds, Buckets.recordAll, counted, ServiceMap.record]
      all_goals
        rw [h, hcarried]
        simpa [counted] using ih

theorem le_now_step (x : Collection) (s : Step) : x.now ≤ (x.step s).now := by
  cases s with
  | use s => exact le_rfl
  | wait nanos => exact Nat.le_add_right x.now nanos
  | turn =>
    rw [step]
    rcases x.turn_cases with ⟨e, -, h⟩ | ⟨-, ⟨e, -, h⟩ | ⟨-, h⟩ | ⟨-, h⟩⟩ <;> rw [h]

/-- Events are counted while the clock runs. -/
theorem now_run (x : Collection) (course : List Step) :
    x.now ≤ (x.run course).now ∧
      ∀ r ∈ x.counted course, x.now ≤ r.2 ∧ r.2 ≤ (x.run course).now := by
  induction course using List.reverseRecOn with
  | nil => exact ⟨le_rfl, fun r hr => absurd hr List.not_mem_nil⟩
  | append_singleton course s ih =>
    obtain ⟨hnow, hcounted⟩ := ih
    have hstep := le_now_step (x.run course) s
    rw [run_concat]
    refine ⟨hnow.trans hstep, fun r hr => ?_⟩
    rw [counted, gather_concat, List.mem_append] at hr
    rcases hr with hr | hr
    · exact ⟨(hcounted r hr).1, (hcounted r hr).2.trans hstep⟩
    · have hr : r.2 = (x.run course).now := by
        cases s with
        | use s | wait nanos => exact absurd hr List.not_mem_nil
        | turn =>
          rw [counts, Option.mem_toList, Option.map_eq_some_iff] at hr
          obtain ⟨e, -, rfl⟩ := hr
          rfl
      rw [hr]
      exact ⟨hnow, hstep⟩

/-- The task as it stands between its turns. -/
def collector (x : Collection) : Collector := ⟨x.subscription, x.users.hub, x.map⟩

theorem collector_start (users : Hub.Activity) (capacity : Nat) (settings : ServiceMapSettings)
    (began : Nat) :
    (start (users.step .allocate) users.hub.nextId capacity settings began).collector =
      (Collector.start users.hub (.ofSettings settings) capacity).value := by
  have hsubscribe := Hub.Activity.hub_run_subscribe users {} capacity
  rw [Hub.Activity.run_cons, Hub.Activity.run_cons, Hub.Activity.run_nil] at hsubscribe
  rw [collector, start, hsubscribe]
  rfl

theorem value_stop (c : Collector) :
    c.stop.value = { c with hub := c.hub.release c.subscription } := by
  unfold Collector.stop
  dsimp only
  split_ifs <;> rfl

theorem value_stop_takeAll {c : Collector} {q : Queue}
    (hq : c.hub.held.find? c.subscription = some q) (now : Nat) :
    (c.takeAll now).stop.value =
      { c with
        hub := c.hub.release c.subscription
        map := q.pending.foldl (fun m e => m.record e now) c.map } := by
  rw [value_stop, Collector.takeAll, Hub.drain, hq]
  dsimp only
  rw [Hub.release_insert]

theorem take_of_event {c : Collector} {e : FlowEvent} {hub : Hub}
    (h : c.hub.receive c.subscription = (.event e, hub)) (now : Nat) :
    c.take now = { c with hub, map := c.map.record e now } := by
  rw [Collector.take, h]

theorem take_of_pending {c : Collector} {hub : Hub}
    (h : c.hub.receive c.subscription = (.pending, hub)) (now : Nat) :
    c.take now = { c with hub } := by
  rw [Collector.take, h]

/-- The task tells how many events its queue has lost. -/
theorem mem_signals_stop (c : Collector) :
    Collector.say .info "task.stopped" "service map aggregator stopped"
      [("task.name", Text.quoted "service_map"),
        ("flows.dropped", toString ((c.hub.dropped? c.subscription).getD 0))] ∈ c.stop.signals := by
  unfold Collector.stop
  dsimp only
  split_ifs
  · exact List.mem_append_left _ (List.mem_singleton_self _)
  · exact List.mem_append_right _ (List.mem_append_left _ (List.mem_singleton_self _))

variable {x : Collection}

/-- Two turns of a task with nothing in hand receive once, unless it comes to its end. -/
theorem collector_take (hcarried : x.carried = none) (hactive : x.reported = none)
    (hmore : (x.users.hub.receive x.subscription).1 ≠ .ended) :
    x.turn.turn.collector = x.collector.take x.now := by
  rw [turn_of_idle hcarried hactive]
  rcases hreceive : x.users.hub.receive x.subscription with ⟨found, hub⟩
  cases found with
  | event e =>
    rw [take_of_event hreceive, receive_of_event (by rw [hreceive]), turn_of_carried rfl, collector,
      Hub.Activity.step, hreceive]
    rfl
  | pending =>
    have hsame : hub = x.users.hub := by
      have hpending := Hub.receive_of_pending (congrArg Prod.fst hreceive)
      rw [hreceive] at hpending
      exact congrArg Prod.snd hpending
    have hstay : x.receive = x := by rw [receive, hreceive]
    rw [take_of_pending hreceive, hstay, turn_of_idle hcarried hactive, hstay, hsame]
    rfl
  | ended => exact absurd (congrArg Prod.fst hreceive) hmore

/-- The last turn of the task gives its subscription back, and reports what the task tells. -/
theorem collector_stop (hcarried : x.carried = none) (hactive : x.reported = none)
    (hend : (x.users.hub.receive x.subscription).1 = .ended) :
    x.turn.collector = x.collector.stop.value ∧
      ∃ lost, x.turn.reported = some lost ∧
        Collector.say .info "task.stopped" "service map aggregator stopped"
          [("task.name", Text.quoted "service_map"), ("flows.dropped", toString lost)] ∈
            x.collector.stop.signals := by
  rw [turn_of_idle hcarried hactive, receive, hend, value_stop]
  exact ⟨rfl, _, rfl, mem_signals_stop x.collector⟩

/-- On a hub that is closed and left alone, the turns of the task take everything that is queued and
then end. -/
theorem collector_takeAll {q : Queue} (hheld : x.users.hub.held.find? x.subscription = some q)
    (hclosed : x.users.hub.registered.find? x.subscription = none) (hcarried : x.carried = none)
    (hactive : x.reported = none) :
    (x.run (List.replicate (2 * q.pending.length + 1) .turn)).collector =
      (x.collector.takeAll x.now).stop.value := by
  rw [value_stop_takeAll hheld]
  obtain ⟨capacity, pending, dropped⟩ := q
  induction pending generalizing x with
  | nil =>
    have hend : (x.users.hub.receive x.subscription).1 = .ended := by
      rw [Hub.receive, hheld, Table.contains, hclosed]
      rfl
    exact (collector_stop hcarried hactive hend).1.trans (value_stop x.collector)
  | cons e rest ih =>
    have hfound : (x.users.hub.receive x.subscription).1 = .event e := by
      rw [Hub.receive, hheld]
    let next : Collection :=
      { x with users := x.users.step (.receive x.subscription), map := x.map.record e x.now }
    have hnext : x.turn.turn = next := by
      rw [turn_of_idle hcarried hactive, receive_of_event hfound, turn_of_carried rfl]
      exact congrArg (fun carried => { next with carried }) hcarried.symm
    have hhub : next.users.hub = (x.users.hub.receive x.subscription).2 := rfl
    have hheld' : next.users.hub.held.find? x.subscription = some ⟨capacity, rest, dropped⟩ := by
      rw [hhub, Hub.held_receive, if_pos rfl, hheld]
      rfl
    have hclosed' : next.users.hub.registered.find? x.subscription = none := by
      rw [hhub, Hub.registered_receive, hclosed]
    have hrelease : next.users.hub.release x.subscription =
        x.users.hub.release x.subscription := by
      rw [hhub, Hub.receive, hheld]
      exact Hub.release_insert _ _ _
    have hlater := ih (x := next) hclosed' hcarried hactive hheld'
    have hlength : 2 * (e :: rest).length + 1 = 2 * rest.length + 1 + 1 + 1 := by
      rw [List.length_cons]
      omega
    rw [hlength, List.replicate_succ, List.replicate_succ, run, List.foldl_cons, List.foldl_cons,
      step, step, hnext, ← run, hlater, collector, hrelease]
    rfl

end Collection
end ServiceMap
end FlowObserver
