import FlowObserver.Hub.Signals
import FlowObserver.Proofs.Hub.Isolation
import FlowObserver.Telemetry.Exposition

/-!
# Closing a hub in use

Subscribers come and go while the hub is closed, and what the steps tell is counted some time after
them. However they interleave, the handles that are out have identifiers of their own, they are the
registrations as long as the hub is open, and the number of subscribers that is shown agrees as soon
as everything is counted. Once the hub is closed nobody is registered any more, so that each handle
yields what its queue still holds and then nothing.
-/

namespace FlowObserver

/-- What a signal adds to the number of subscribers that is shown. -/
def Signal.subscribersAdded : Signal → Int
  | .add .subscribers n => n
  | _ => 0

namespace Exposition

theorem find?_subscribers_start : start.find? .subscribers = some 0 := rfl

theorem find?_subscribers_apply {t : Table Metric Int} {shown : Int} {s : Signal}
    (ht : t.find? .subscribers = some shown) (hs : ∀ n, s ≠ .set .subscribers n) :
    (apply t s).find? .subscribers = some (shown + s.subscribersAdded) := by
  cases s with
  | log line => simpa [apply, Signal.subscribersAdded] using ht
  | add m amount =>
    rw [apply, Table.find?_insert]
    by_cases hm : m = .subscribers
    · subst hm
      simp [ht, Signal.subscribersAdded]
    · have hadded : (Signal.add m amount).subscribersAdded = 0 := by
        cases m <;> first | rfl | exact absurd rfl hm
      rw [if_neg (Ne.symm hm), ht, hadded, Int.add_zero]
  | set m value =>
    have hm : m ≠ .subscribers := by
      rintro rfl
      exact hs value rfl
    rw [apply, Table.find?_insert, if_neg (Ne.symm hm), ht]
    exact congrArg some (Int.add_zero _).symm

end Exposition

/-- What a consumer finds, receive by receive, in a queue to which nothing more comes. -/
def Queue.drained (q : Queue) (receives : Nat) : List Received :=
  (List.range receives).map fun k => q.pending[k]?.elim .ended .event

theorem Queue.drained_succ (q : Queue) (receives : Nat) :
    q.drained (receives + 1) =
      q.found true :: ({ q with pending := q.pending.tail } : Queue).drained receives := by
  unfold drained found
  rw [List.range_succ_eq_map]
  cases hp : q.pending with
  | nil => simp [Function.comp_def]
  | cons e rest => simp [Function.comp_def]

theorem Queue.drained_ofCapacity (capacity receives : Nat) :
    (ofCapacity capacity).drained receives = List.replicate receives .ended := by
  simp [drained, ofCapacity]

namespace Hub

variable (h : Hub) (id : SubscriptionId) (e : FlowEvent)

/-- What a registration tells, under the identifier that was taken for it. -/
def registerSignals (filter : FlowFilter) : List Signal :=
  ({ h with nextId := id } : Hub).subscribeSignals filter

def offerSignals : List Signal :=
  .count .published :: (h.losers e).flatMap fun id =>
    [.count .subscriberDropped,
     say .trace "distribution.dropped" "subscriber queue full, dropping event" [idDetail id]]

theorem publishSignals_eq :
    h.publishSignals e = h.offerSignals e ++ (h.orphans e).flatMap h.unregisterSignals := rfl

theorem subscribeSignals_eq (filter : FlowFilter) :
    h.subscribeSignals filter = h.allocate.2.registerSignals h.allocate.1 filter := rfl

def added (signals : List Signal) : Int := (signals.map Signal.subscribersAdded).sum

theorem added_append (signals later : List Signal) :
    added (signals ++ later) = added signals + added later := by
  simp [added]

theorem added_registerSignals (filter : FlowFilter) :
    added (h.registerSignals id filter) = if h.closed then 0 else 1 := by
  rw [registerSignals, subscribeSignals]
  cases h.closed <;> rfl

theorem added_unregisterSignals :
    added (h.unregisterSignals id) = if h.registered.contains id then -1 else 0 := by
  rw [unregisterSignals]
  split_ifs <;> rfl

theorem added_offerSignals : added (h.offerSignals e) = 0 := by
  rw [offerSignals]
  induction h.losers e with
  | nil => rfl
  | cons id rest ih =>
    simpa [added, Signal.subscribersAdded, Signal.count, say, Signal.event] using ih

theorem added_closeAllSignals : added h.closeAllSignals = -(h.subscriberCount : Int) := by
  simp [closeAllSignals, added, Signal.subscribersAdded, say, Signal.event]

namespace Activity

def signals (x : Activity) : Step → List Signal
  | .register id filter _ => if id ∈ x.arriving then x.hub.registerSignals id filter else []
  | .offer e => x.hub.offerSignals e
  | .remove id => if id ∈ x.orphaned then x.hub.unregisterSignals id else []
  | .release id => x.hub.unregisterSignals id
  | .closeAll => x.hub.closeAllSignals
  | .allocate | .receive _ => []

/-- No step sets the number of subscribers outright. -/
theorem set_not_mem_signals (x : Activity) (s : Step) (n : Int) :
    .set .subscribers n ∉ x.signals s := by
  cases s with
  | register id filter capacity =>
    rw [signals, registerSignals, subscribeSignals]
    split_ifs <;> simp [say, Signal.event]
  | offer e => simp [signals, offerSignals, say, Signal.event, Signal.count]
  | remove id =>
    rw [signals, unregisterSignals]
    split_ifs <;> simp [say, Signal.event]
  | release id =>
    rw [signals, unregisterSignals]
    split_ifs <;> simp [say, Signal.event]
  | closeAll => simp [signals, closeAllSignals, say, Signal.event]
  | allocate | receive id => exact List.not_mem_nil

theorem nextId_step (x : Activity) (s : Step) :
    (x.step s).hub.nextId = x.hub.nextId + if s = .allocate then 1 else 0 := by
  cases s with
  | receive id => simp [step]
  | register id | remove id =>
    simp only [reduceCtorEq, if_false, step]
    split_ifs <;> rfl
  | _ => rfl

/-- A registration hands out its identifier, and a release takes it back. -/
def handlesAfter (x : Activity) (handles : List SubscriptionId) : Step → List SubscriptionId
  | .register id _ _ => if id ∈ x.arriving then id :: handles else handles
  | .release id => handles.erase id
  | _ => handles

/-- The handles that are out hold the queues, each its own; as long as the hub is open they are the
registrations. -/
structure HandedOut (x : Activity) (handles : List SubscriptionId) : Prop where
  sound : x.Sound
  nodup : handles.Nodup
  held_iff : ∀ id, x.hub.held.find? id ≠ none ↔ id ∈ handles
  registered_iff : ∀ id, x.hub.registered.find? id ≠ none ↔ x.hub.closed = false ∧ id ∈ handles

theorem handedOut_start : HandedOut {} [] where
  sound := sound_start
  nodup := List.nodup_nil
  held_iff _ := by simp
  registered_iff _ := by simp

variable {x : Activity} {handles : List SubscriptionId}

theorem HandedOut.register (hx : x.HandedOut handles) {id : SubscriptionId}
    (hid : id ∈ x.arriving) (filter : FlowFilter) (capacity : Nat) :
    (x.step (.register id filter capacity)).HandedOut (id :: handles) := by
  have hsound := hx.sound.step (.register id filter capacity)
  have hnew : id ∉ handles := by
    rw [← hx.held_iff, hx.sound.not_held id hid]
    simp
  rw [Activity.step, if_pos hid] at hsound ⊢
  refine ⟨hsound, ?_, ?_, ?_⟩
  · exact List.nodup_cons.mpr ⟨hnew, hx.nodup⟩
  · intro other
    rw [held_register, List.mem_cons, ← hx.held_iff]
    by_cases hother : other = id <;> simp [hother]
  · intro other
    have hclosed : (x.hub.register id filter capacity).closed = x.hub.closed := rfl
    have hiff := hx.registered_iff other
    rw [registered_register, hclosed, List.mem_cons]
    by_cases hother : other = id
    · subst hother
      cases hc : x.hub.closed <;> simp_all
    · simpa [hother] using hiff

theorem HandedOut.release (hx : x.HandedOut handles) (id : SubscriptionId) :
    (x.step (.release id)).HandedOut (handles.erase id) := by
  refine ⟨hx.sound.release id, hx.nodup.erase id, ?_, ?_⟩
  · intro other
    rw [Activity.step, held_release, hx.nodup.mem_erase_iff, ← hx.held_iff]
    by_cases hother : other = id <;> simp [hother]
  · intro other
    have hclosed : (x.hub.release id).closed = x.hub.closed := rfl
    rw [Activity.step, registered_release, hclosed, hx.nodup.mem_erase_iff]
    have hiff := hx.registered_iff other
    by_cases hother : other = id
    · simp [hother]
    · simpa [hother] using hiff

theorem HandedOut.step (hx : x.HandedOut handles) (s : Step) :
    (x.step s).HandedOut (x.handlesAfter handles s) := by
  cases s with
  | register id filter capacity =>
    rw [handlesAfter]
    split_ifs with hid
    · exact hx.register hid filter capacity
    · rwa [Activity.step, if_neg hid]
  | release id => exact hx.release id
  | allocate => exact ⟨hx.sound.allocate, hx.nodup, hx.held_iff, hx.registered_iff⟩
  | closeAll =>
    refine ⟨hx.sound.closeAll, hx.nodup, hx.held_iff, ?_⟩
    intro id
    simp [Activity.step, closeAll]
  | offer e =>
    refine ⟨hx.sound.offer e, hx.nodup, ?_, hx.registered_iff⟩
    intro id
    rw [Activity.step, held_offer, ne_eq, Option.map_eq_none_iff]
    exact hx.held_iff id
  | remove id => rwa [hx.sound.step_remove]
  | receive id =>
    refine ⟨hx.sound.receive id, hx.nodup, ?_, ?_⟩
    · intro other
      rw [Activity.step, held_receive]
      have hiff := hx.held_iff other
      split_ifs <;> simpa [handlesAfter] using hiff
    · intro other
      rw [Activity.step, registered_receive, closed_receive]
      exact hx.registered_iff other

/-- Nor do the handles share a 64-bit number, if no more identifiers are taken than there are. -/
theorem HandedOut.nodup_ofNat (hx : x.HandedOut handles) (hfew : x.hub.nextId ≤ 2 ^ 64) :
    (handles.map UInt64.ofNat).Nodup := by
  have hlt : ∀ id ∈ handles, id < 2 ^ 64 := by
    intro id hid
    exact (hx.sound.held_lt id ((hx.held_iff id).mpr hid)).trans_le hfew
  apply hx.nodup.map_on
  intro a ha b hb hab
  rw [← UInt64.toNat_inj, UInt64.toNat_ofNat_of_lt' (hlt a ha),
    UInt64.toNat_ofNat_of_lt' (hlt b hb)] at hab
  exact hab

/-- As many registrations as handles, until the hub is closed. -/
theorem HandedOut.subscriberCount_eq (hx : x.HandedOut handles) :
    x.hub.subscriberCount = if x.hub.closed then 0 else handles.length := by
  have hkeys : ∀ id, id ∈ x.hub.registered.keys ↔ x.hub.closed = false ∧ id ∈ handles := by
    intro id
    rw [← hx.registered_iff, ne_eq, Table.find?_eq_none_iff, not_not]
  have hsize : x.hub.subscriberCount = x.hub.registered.keys.length := by
    simp [subscriberCount, Table.size, Table.keys]
  rw [hsize]
  split_ifs with hclosed
  · rw [List.length_eq_zero_iff, List.eq_nil_iff_forall_not_mem]
    intro id hid
    rw [hkeys, hclosed] at hid
    exact absurd hid.1 (by simp)
  · have hnodup : x.hub.registered.keys.Nodup := x.hub.registered.nodup
    have hperm : x.hub.registered.keys.Perm handles := by
      rw [List.perm_ext_iff_of_nodup hnodup hx.nodup]
      intro id
      rw [hkeys]
      simp [hclosed]
    exact hperm.length_eq

/-- What a step tells is by how much the number of subscribers changes. -/
theorem HandedOut.subscriberCount_step (hx : x.HandedOut handles) (s : Step) :
    ((x.step s).hub.subscriberCount : Int) = x.hub.subscriberCount + added (x.signals s) := by
  rw [hx.subscriberCount_eq, (hx.step s).subscriberCount_eq, closed_step]
  cases s with
  | register id filter capacity =>
    rw [handlesAfter, signals]
    by_cases hid : id ∈ x.arriving
    · rw [if_pos hid, if_pos hid, added_registerSignals]
      cases x.hub.closed <;> simp
    · rw [if_neg hid, if_neg hid]
      simp [added]
  | release id =>
    have hcontains : x.hub.registered.contains id = true ↔ x.hub.closed = false ∧ id ∈ handles := by
      rw [← hx.registered_iff, Table.contains, Option.isSome_iff_ne_none]
    rw [handlesAfter, signals, added_unregisterSignals, List.length_erase]
    by_cases hid : id ∈ handles
    · have hpos := List.length_pos_of_mem hid
      cases hclosed : x.hub.closed <;> simp [hcontains, hclosed, hid]
      omega
    · simp [hcontains, hid]
  | closeAll =>
    rw [signals, added_closeAllSignals, hx.subscriberCount_eq]
    simp
  | offer e =>
    rw [signals, added_offerSignals]
    simp [handlesAfter]
  | remove id =>
    rw [signals, hx.sound.orphaned_eq]
    simp [handlesAfter, added]
  | allocate | receive id => simp [handlesAfter, signals, added]

/-- Once the hub is closed, all that still happens to a queue is that it is drained. -/
theorem react_closed {id : SubscriptionId} (filter : FlowFilter) (q : Queue) {s : Step}
    (hs : s ≠ .receive id) : react id filter true q s = q := by
  cases s with
  | offer e => rfl
  | receive other =>
    have hother : other ≠ id := fun h => hs (h ▸ rfl)
    rw [react, if_neg hother]
  | _ => rfl

theorem answer?_eq_none {id : SubscriptionId} {s : Step} (hs : s ≠ .receive id) :
    x.answer? id s = none := by
  cases s with
  | receive other =>
    have hother : other ≠ id := fun h => hs (h ▸ rfl)
    rw [answer?, if_neg hother]
  | _ => rfl

theorem Serves.answers_closed (hx : x.Sound) {id : SubscriptionId} {filter : FlowFilter} {q : Queue}
    (h : x.Serves id filter true q) (later : List Step) (hheld : .release id ∉ later) :
    x.answers id later = q.drained (later.count (.receive id)) := by
  induction later generalizing x q with
  | nil => rfl
  | cons s rest ih =>
    rw [List.mem_cons, not_or] at hheld
    have hserves := h.step hx s (Ne.symm hheld.1)
    rw [Bool.true_or] at hserves
    rw [answers, ih (hx.step s) hserves hheld.2]
    by_cases hs : s = .receive id
    · subst hs
      rw [List.count_cons_self, Queue.drained_succ, ← h.receive_eq, answer?, react, if_pos rfl,
        if_pos rfl]
      rfl
    · rw [react_closed filter q hs, answer?_eq_none hs, List.count_cons_of_ne hs]
      rfl

theorem HandedOut.find?_registered_closed (hx : x.HandedOut handles)
    (hclosed : x.hub.closed = true) (id : SubscriptionId) : x.hub.registered.find? id = none := by
  by_contra h
  have hopen := ((hx.registered_iff id).mp h).1
  rw [hclosed] at hopen
  cases hopen

theorem HandedOut.keys_registered_closed (hx : x.HandedOut handles)
    (hclosed : x.hub.closed = true) : x.hub.registered.keys = [] := by
  rw [List.eq_nil_iff_forall_not_mem]
  intro id
  exact (Table.find?_eq_none_iff _ _).mp (hx.find?_registered_closed hclosed id)

/-- A handle yields what is queued for it, and then nothing more comes. -/
theorem HandedOut.answers_closed (hx : x.HandedOut handles) (hclosed : x.hub.closed = true)
    {id : SubscriptionId} (hid : id ∈ handles) :
    ∃ q, x.hub.held.find? id = some q ∧ ∀ later, .release id ∉ later →
      x.answers id later = q.drained (later.count (.receive id)) := by
  obtain ⟨q, hq⟩ := Option.ne_none_iff_exists'.mp ((hx.held_iff id).mpr hid)
  have hserves : x.Serves id {} true q :=
    ⟨hq, by rw [hx.find?_registered_closed hclosed, if_pos rfl]⟩
  exact ⟨q, hq, fun later hheld => hserves.answers_closed hx.sound later hheld⟩

/-- A close takes nothing from the queues. -/
theorem HandedOut.answers_closeAll (hx : x.HandedOut handles) {id : SubscriptionId}
    (hid : id ∈ handles) :
    ∃ q, x.hub.held.find? id = some q ∧ ∀ later, .release id ∉ later →
      x.answers id (.closeAll :: later) = q.drained (later.count (.receive id)) := by
  obtain ⟨q, hq, hanswers⟩ := (hx.step .closeAll).answers_closed rfl hid
  exact ⟨q, hq, hanswers⟩

theorem Sound.answers_register_closed (hx : x.Sound) (hclosed : x.hub.closed = true)
    {id : SubscriptionId} (hid : id ∈ x.arriving) (filter : FlowFilter) (capacity : Nat)
    (later : List Step) (hheld : .release id ∉ later) :
    (x.step (.register id filter capacity)).answers id later =
      List.replicate (later.count (.receive id)) .ended := by
  have hserves := hx.serves_register hid filter capacity
  rw [hclosed] at hserves
  rw [hserves.answers_closed (hx.step _) later hheld, Queue.drained_ofCapacity]

/-- A publication reaches no queue. -/
theorem HandedOut.held_offer_closed (hx : x.HandedOut handles) (hclosed : x.hub.closed = true)
    (e : FlowEvent) (id : SubscriptionId) :
    (x.step (.offer e)).hub.held.find? id = x.hub.held.find? id := by
  have hwants : x.hub.wants id e = false :=
    x.hub.wants_of_not_registered id e (hx.find?_registered_closed hclosed id)
  rw [Activity.step, held_offer, hwants]
  simp

end Activity

/-- A hub in use, its handles, and its measurements, which may lag behind. -/
structure Metered where
  activity : Activity := {}
  handles : List SubscriptionId := []
  untold : List Signal := []
  measured : Table Metric Int := Exposition.start

namespace Metered

inductive Turn where
  | step (s : Step)
  /-- Something that was told is counted. -/
  | measure (signal : Signal)
  deriving DecidableEq, Repr

def turn (x : Metered) : Turn → Metered
  | .step s =>
    { x with
      activity := x.activity.step s
      handles := x.activity.handlesAfter x.handles s
      untold := x.untold ++ x.activity.signals s }
  | .measure signal =>
    if signal ∈ x.untold then
      { x with untold := x.untold.erase signal, measured := Exposition.apply x.measured signal }
    else x

def run (x : Metered) (turns : List Turn) : Metered := turns.foldl turn x

theorem run_append (x : Metered) (turns later : List Turn) :
    x.run (turns ++ later) = (x.run turns).run later :=
  List.foldl_append

theorem run_concat (x : Metered) (turns : List Turn) (t : Turn) :
    x.run (turns ++ [t]) = (x.run turns).turn t :=
  x.run_append turns [t]

theorem run_measure_untold (x : Metered) :
    x.run (x.untold.map .measure) =
      { x with untold := [], measured := x.untold.foldl Exposition.apply x.measured } := by
  obtain ⟨activity, handles, untold, measured⟩ := x
  induction untold generalizing measured with
  | nil => rfl
  | cons signal rest ih =>
    rw [List.map_cons, run, List.foldl_cons, turn, if_pos (List.mem_cons_self), List.erase_cons_head]
    exact ih (Exposition.apply measured signal)

/-- What is shown and what is not counted yet make up the number of subscribers. -/
structure Tallied (x : Metered) : Prop where
  handedOut : x.activity.HandedOut x.handles
  shown : ∃ shown, x.measured.find? .subscribers = some shown ∧
    shown + added x.untold = x.activity.hub.subscriberCount
  unset : ∀ n, .set .subscribers n ∉ x.untold

theorem tallied_start : Tallied {} where
  handedOut := Activity.handedOut_start
  shown := ⟨0, Exposition.find?_subscribers_start, rfl⟩
  unset _ := List.not_mem_nil

variable {x : Metered}

theorem Tallied.turn (hx : x.Tallied) (t : Turn) : (x.turn t).Tallied := by
  obtain ⟨hhanded, ⟨shown, hshown, hsum⟩, hunset⟩ := hx
  cases t with
  | step s =>
    refine ⟨hhanded.step s, ⟨shown, hshown, ?_⟩, ?_⟩
    · rw [Metered.turn, hhanded.subscriberCount_step s, added_append, ← hsum, Int.add_assoc]
    · intro n hn
      rcases List.mem_append.mp hn with hn | hn
      · exact hunset n hn
      · exact x.activity.set_not_mem_signals s n hn
  | measure signal =>
    rw [Metered.turn]
    split_ifs with hsignal
    · have hset : ∀ n, signal ≠ .set .subscribers n := by
        rintro n rfl
        exact hunset n hsignal
      have hperm := ((List.perm_cons_erase hsignal).map Signal.subscribersAdded).sum_eq
      rw [List.map_cons, List.sum_cons] at hperm
      refine ⟨hhanded, ⟨_, Exposition.find?_subscribers_apply hshown hset, ?_⟩, ?_⟩
      · rw [← hsum, added, added, hperm, Int.add_assoc]
      · intro n hn
        exact hunset n (List.mem_of_mem_erase hn)
    · exact ⟨hhanded, ⟨shown, hshown, hsum⟩, hunset⟩

theorem tallied_run (turns : List Turn) : (run {} turns).Tallied := by
  induction turns using List.reverseRecOn with
  | nil => exact tallied_start
  | append_singleton turns t ih =>
    rw [run_concat]
    exact ih.turn t

theorem Tallied.shown_of_untold (hx : x.Tallied) (huntold : x.untold = []) :
    x.measured.find? .subscribers = some (x.activity.hub.subscriberCount : Int) := by
  obtain ⟨shown, hshown, hsum⟩ := hx.shown
  rw [hshown, ← hsum, huntold]
  exact congrArg some (Int.add_zero shown).symm

theorem nextId_run (turns : List Turn) :
    (run {} turns).activity.hub.nextId = turns.count (.step .allocate) := by
  induction turns using List.reverseRecOn with
  | nil => rfl
  | append_singleton turns t ih =>
    rw [run_concat, List.count_append, ← ih]
    cases t with
    | step s =>
      rw [turn, Activity.nextId_step, List.count_singleton]
      simp
    | measure signal =>
      rw [turn]
      split_ifs <;> rfl

theorem closed_run (turns : List Turn) :
    (run {} turns).activity.hub.closed = true ↔ .step .closeAll ∈ turns := by
  induction turns using List.reverseRecOn with
  | nil => simp [run]
  | append_singleton turns t ih =>
    rw [run_concat, List.mem_append, List.mem_singleton, ← ih]
    cases t with
    | step s =>
      rw [turn, Activity.closed_step, Bool.or_eq_true, beq_iff_eq, Turn.step.injEq]
      exact or_congr_right eq_comm
    | measure signal =>
      rw [turn]
      split_ifs <;> simp

/-- In every course of steps the handles that are out have different identifiers, also as 64-bit
numbers if fewer than those are taken; the registrations are as many as these handles as long as
nothing has closed the hub; and where all is counted, that is the number shown. From a close on, a
handle that is out yields what is queued for it then, and after that the end. Once the hub is
closed, nobody is registered and nothing is delivered; each handle yields what is left to it and
then the end, and one that is handed out later is at its end at once. -/
theorem closing_is_final (turns : List Turn) :
    let x := run {} turns
    (turns.count (.step .allocate) < 2 ^ 64 → (x.handles.map UInt64.ofNat).Nodup) ∧
    x.activity.hub.subscriberCount = (if .step .closeAll ∈ turns then 0 else x.handles.length) ∧
    (x.untold = [] →
      x.measured.find? .subscribers = some (x.activity.hub.subscriberCount : Int)) ∧
    (∀ id ∈ x.handles, ∃ q, x.activity.hub.held.find? id = some q ∧
      ∀ later, .release id ∉ later →
        x.activity.answers id (.closeAll :: later) = q.drained (later.count (.receive id))) ∧
    (.step .closeAll ∈ turns →
      x.activity.hub.registered.keys = [] ∧
      (∀ e id, (x.activity.step (.offer e)).hub.held.find? id = x.activity.hub.held.find? id) ∧
      (∀ id ∈ x.handles, ∃ q, x.activity.hub.held.find? id = some q ∧
        ∀ later, .release id ∉ later →
          x.activity.answers id later = q.drained (later.count (.receive id))) ∧
      ∀ id ∈ x.activity.arriving, ∀ filter capacity later, .release id ∉ later →
        (x.activity.step (.register id filter capacity)).answers id later =
          List.replicate (later.count (.receive id)) .ended) := by
  intro x
  have hx : x.Tallied := tallied_run turns
  have hclosed : x.activity.hub.closed = true ↔ .step .closeAll ∈ turns := closed_run turns
  refine ⟨?_, ?_, hx.shown_of_untold, ?_, ?_⟩
  · intro hfew
    apply hx.handedOut.nodup_ofNat
    rw [nextId_run]
    exact hfew.le
  · rw [hx.handedOut.subscriberCount_eq]
    exact if_congr hclosed rfl rfl
  · intro id hid
    exact hx.handedOut.answers_closeAll hid
  · intro hturns
    have hend := hclosed.mpr hturns
    refine ⟨hx.handedOut.keys_registered_closed hend, hx.handedOut.held_offer_closed hend, ?_, ?_⟩
    · intro id hid
      exact hx.handedOut.answers_closed hend hid
    · intro id hid
      exact hx.handedOut.sound.answers_register_closed hend hid

/-- Two subscribers get their handles, and one of them leaves again; a third has its identifier when
the hub is closed. -/
def racing : List Turn :=
  [.step .allocate, .step .allocate, .step (.register 0 {} 4), .step .allocate,
    .step (.register 2 {} 4), .step (.offer (Activity.packetTo 80)), .step (.release 2),
    .step .closeAll]

/-- All that `racing` tells is counted after it. -/
def raced : List Turn := racing ++ (run {} racing).untold.map .measure

theorem closing_is_final_race :
    let x := run {} raced
    raced.count (.step .allocate) < 2 ^ 64 ∧ x.untold = [] ∧ .step .closeAll ∈ raced ∧
      0 ∈ x.handles ∧ 1 ∈ x.activity.arriving ∧
      (x.handles.map UInt64.ofNat).Nodup ∧ x.activity.hub.subscriberCount = 0 ∧
      x.measured.find? .subscribers = some 0 ∧
      (∃ q, x.activity.hub.held.find? 0 = some q ∧
        x.activity.answers 0 [.receive 0, .receive 1, .receive 0] = q.drained 2) ∧
      (x.activity.step (.register 1 {} 4)).answers 1 [.receive 0, .receive 1] = [.ended] := by
  intro x
  have hraced : run {} raced = { run {} racing with
      untold := []
      measured := (run {} racing).untold.foldl Exposition.apply (run {} racing).measured } := by
    rw [← run_measure_untold]
    exact run_append {} racing _
  have hx : x = _ := hraced
  have hfew : raced.count (.step .allocate) < 2 ^ 64 := by
    rw [← nextId_run, hraced]
    decide
  have huntold : x.untold = [] := by rw [hx]
  have hclosed : .step .closeAll ∈ raced := by
    apply List.mem_append_left
    decide
  have hheld : 0 ∈ x.handles := by
    rw [hx]
    decide
  have harriving : 1 ∈ x.activity.arriving := by
    rw [hx]
    decide
  obtain ⟨hnodup, hcount, hshown, -, hend⟩ := closing_is_final raced
  rw [if_pos hclosed] at hcount
  obtain ⟨-, -, hdrained, hended⟩ := hend hclosed
  obtain ⟨q, hq, hanswers⟩ := hdrained 0 hheld
  refine ⟨hfew, huntold, hclosed, hheld, harriving, hnodup hfew, hcount, ?_,
    ⟨q, hq, hanswers [.receive 0, .receive 1, .receive 0] (by decide)⟩,
    hended 1 harriving {} 4 [.receive 0, .receive 1] (by decide)⟩
  rw [hshown huntold, hcount]
  rfl

end Metered
end Hub
end FlowObserver
