import FlowObserver.Proofs.Hub.Closing
import FlowObserver.Service.Basic

/-!
# Streams of flows

A request is refused exactly if the verdict that it names could match no flow, and then nothing has
happened. A stream that is opened is a subscription of the hub and no more: it gives the messages of
the events that the subscription receives, and what was asked for holds of each of them.
-/

namespace FlowObserver

namespace Text

theorem sameUpToCase_comm (a b : String) : sameUpToCase a b = sameUpToCase b a := by
  unfold sameUpToCase
  exact Bool.beq_comm

end Text

theorem FlowFilter.accepts_ofTexts_iff (namespaceName verdict : String) (e : FlowEvent) :
    (ofTexts namespaceName verdict).accepts e = true ↔
      (namespaceName ≠ "" →
        e.sourceNamespace = some namespaceName ∨ e.destinationNamespace = some namespaceName) ∧
      (verdict ≠ "" → Text.sameUpToCase e.verdictLabel verdict = true) := by
  unfold accepts acceptsNamespace acceptsVerdict ofTexts nonempty?
  by_cases hname : namespaceName = "" <;> by_cases hverdict : verdict = "" <;>
    simp [hname, hverdict]

def anonymousEvent (verdict : Verdict) : FlowEvent :=
  ⟨⟨⟨0, 0, 0, 0, 0⟩, verdict, 0, false⟩, none, none⟩

/-- A verdict may be asked for if some flow could have it. -/
theorem isVerdictRequest_iff (verdict : String) :
    isVerdictRequest verdict = true ↔
      verdict = "" ∨ ∃ e, (FlowFilter.ofTexts "" verdict).accepts e = true := by
  unfold isVerdictRequest
  simp only [Bool.or_eq_true, decide_eq_true_eq, FlowFilter.accepts_ofTexts_iff]
  constructor
  · rintro ((rfl | h) | h)
    · exact .inl rfl
    · refine .inr ⟨anonymousEvent .forwarded, by simp, fun _ => ?_⟩
      rwa [Text.sameUpToCase_comm]
    · refine .inr ⟨anonymousEvent .dropped, by simp, fun _ => ?_⟩
      rwa [Text.sameUpToCase_comm]
  · rintro (rfl | ⟨e, -, hverdict⟩)
    · simp
    · by_cases hempty : verdict = ""
      · simp [hempty]
      · have hlabel := hverdict hempty
        rw [Text.sameUpToCase_comm, FlowEvent.verdictLabel] at hlabel
        cases hkind : e.flow.verdict <;> rw [hkind] at hlabel <;> simp [hlabel]

namespace FlowService

variable (s : FlowService) (namespaceName verdict : String)

theorem value_openStream :
    (s.openStream namespaceName verdict).value =
      if isVerdictRequest verdict then
        (.ok s.hub.nextId,
          { s with hub := (s.hub.subscribe (.ofTexts namespaceName verdict) s.capacity).2 })
      else (.error (.unknownVerdict verdict), s) := by
  unfold openStream
  split_ifs <;> rfl

theorem signals_of_refused (h : ¬isVerdictRequest verdict = true) :
    (s.openStream namespaceName verdict).signals = [] := by
  rw [openStream, if_neg h]
  rfl

theorem isRefused_iff :
    (∃ e, (s.openStream namespaceName verdict).value.1 = .error e) ↔
      verdict ≠ "" ∧ ∀ e, (FlowFilter.ofTexts "" verdict).accepts e = false := by
  have hrequest := isVerdictRequest_iff verdict
  rw [value_openStream]
  split_ifs with h
  · rcases hrequest.mp h with hempty | ⟨e, he⟩
    · simp [hempty]
    · simp only [exists_false, false_iff, not_and]
      intro _ hnone
      rw [hnone e] at he
      cases he
  · simp only [Except.error.injEq, exists_eq', true_iff]
    rw [hrequest, not_or, not_exists] at h
    exact ⟨h.1, fun e => Bool.eq_false_iff.mpr (h.2 e)⟩

/-- What a stream gives for what its subscription finds. -/
def StreamItem.ofReceived : Received → StreamItem
  | .event e => .flow (.ofEvent e)
  | .pending => .pending
  | .ended => .ended

theorem next_eq (id : SubscriptionId) :
    s.next id =
      (.ofReceived (s.hub.receive id).1, { s with hub := (s.hub.receive id).2 }) := by
  unfold next
  cases h : s.hub.receive id with
  | mk found hub => cases found <;> rfl

/-- A step of the hub where requests for the next flow of the stream go through the service: what
the stream gives, and what is left behind. -/
def streamStep (s : FlowService) (id : SubscriptionId) (x : Hub.Activity) (t : Hub.Step) :
    List StreamItem × Hub.Activity :=
  if t = .receive id then
    let (item, later) := ({ s with hub := x.hub } : FlowService).next id
    ([item], { x with hub := later.hub })
  else ([], x.step t)

/-- What the stream gives, one request for the next flow after the other, while others use the hub
too. -/
def streamed (s : FlowService) (id : SubscriptionId) (x : Hub.Activity) :
    List Hub.Step → List StreamItem × Hub.Activity
  | [] => ([], x)
  | t :: rest =>
    let (given, later) := s.streamStep id x t
    let (items, last) := s.streamed id later rest
    (given ++ items, last)

/-- A request through the stream does to the hub what the subscription's own receive does. -/
theorem streamStep_eq (id : SubscriptionId) (x : Hub.Activity) (t : Hub.Step) :
    s.streamStep id x t = ((x.answer? id t).toList.map .ofReceived, x.step t) := by
  unfold streamStep
  split_ifs with h
  · subst h
    simp [next_eq, Hub.Activity.answer?, Hub.Activity.step]
  · have hnone : x.answer? id t = none := by
      cases t with
      | receive other =>
        have hother : other ≠ id := fun heq => h (heq ▸ rfl)
        rw [Hub.Activity.answer?, if_neg hother]
      | _ => rfl
    rw [hnone]
    rfl

theorem streamed_eq (id : SubscriptionId) (x : Hub.Activity) (steps : List Hub.Step) :
    s.streamed id x steps = ((x.answers id steps).map .ofReceived, x.run steps) := by
  induction steps generalizing x with
  | nil => rfl
  | cons t rest ih =>
    simp [streamed, streamStep_eq, ih, Hub.Activity.answers]

end FlowService

namespace Hub.Activity

variable {x : Activity} {id : SubscriptionId}

theorem mem_received_of_answers {e : FlowEvent} {steps : List Step}
    (h : .event e ∈ x.answers id steps) : e ∈ x.received id steps := by
  induction steps generalizing x with
  | nil => cases h
  | cons t rest ih =>
    rw [answers, List.mem_append] at h
    rw [received, List.mem_append]
    rcases h with h | h
    · left
      cases t with
      | receive other =>
        rw [answer?] at h
        rw [handed]
        split_ifs at h ⊢ with hother
        · subst hother
          simp only [Option.toList_some, List.mem_singleton] at h
          simp [← h, Received.event?]
        · cases h
      | _ => cases h
    · exact .inr (ih h)

/-- A subscription to an open hub receives only what its filter accepts. -/
theorem Sound.accepts_of_answers (hx : x.Sound) (hid : id ∈ x.arriving) (filter : FlowFilter)
    (capacity : Nat) {after : List Step} (hheld : .release id ∉ after) {e : FlowEvent}
    (he : .event e ∈ (x.step (.register id filter capacity)).answers id after) :
    filter.accepts e = true := by
  cases hclosed : x.hub.closed with
  | true =>
    rw [hx.answers_register_closed hclosed hid filter capacity after hheld] at he
    cases List.eq_of_mem_replicate he
  | false =>
    obtain ⟨q, -, -, haccounts⟩ :=
      exists_serves_accounts hx hid hclosed filter capacity after hheld
    have hmeant := haccounts.ordered.mem (List.mem_append_left _ (mem_received_of_answers he))
    exact (List.mem_filter.mp hmeant).2

/-- The identifier was taken, and its subscriber has registered it. -/
structure Arrived (x : Activity) (id : SubscriptionId) : Prop where
  taken : id < x.hub.nextId
  not_arriving : id ∉ x.arriving

theorem Sound.arrived_register (hx : x.Sound) (hid : id ∈ x.arriving) (filter : FlowFilter)
    (capacity : Nat) : (x.step (.register id filter capacity)).Arrived id := by
  rw [Activity.step, if_pos hid]
  exact ⟨hx.arriving_lt id hid, hx.arriving_nodup.not_mem_erase⟩

theorem Arrived.step (h : x.Arrived id) (t : Step) : (x.step t).Arrived id := by
  constructor
  · rw [nextId_step]
    exact h.taken.trans_le (Nat.le_add_right _ _)
  · intro harriving
    cases t with
    | allocate =>
      rcases List.mem_cons.mp harriving with hnext | hbefore
      · exact absurd h.taken (hnext ▸ Nat.lt_irrefl _)
      · exact h.not_arriving hbefore
    | register other filter capacity =>
      rw [Activity.step] at harriving
      split_ifs at harriving
      · exact h.not_arriving (List.mem_of_mem_erase harriving)
      · exact h.not_arriving harriving
    | remove other =>
      rw [Activity.step] at harriving
      split_ifs at harriving <;> exact h.not_arriving harriving
    | _ => exact h.not_arriving harriving

theorem Arrived.run (h : x.Arrived id) (steps : List Step) : (x.run steps).Arrived id := by
  induction steps generalizing x with
  | nil => exact h
  | cons t rest ih => exact ih (h.step t)

/-- Once it is given back it stays so. -/
theorem Arrived.held_run (hx : x.Sound) (h : x.Arrived id) (hback : x.hub.held.find? id = none)
    (later : List Step) : (x.run later).hub.held.find? id = none := by
  induction later generalizing x with
  | nil => exact hback
  | cons t rest ih =>
    refine ih (hx.step t) (h.step t) ?_
    by_cases hregister : ∃ filter capacity, t = .register id filter capacity
    · obtain ⟨filter, capacity, rfl⟩ := hregister
      rwa [Activity.step, if_neg h.not_arriving]
    · refine held_step_of_absent hx hback ?_
      intro filter capacity ht
      exact hregister ⟨filter, capacity, ht⟩

/-- A release takes queue and registration away for good, and those of no other subscription. -/
theorem Arrived.release (hx : x.Sound) (h : x.Arrived id) :
    (∀ other, other ≠ id →
      (x.step (.release id)).hub.registered.find? other = x.hub.registered.find? other ∧
      (x.step (.release id)).hub.held.find? other = x.hub.held.find? other) ∧
    ∀ later,
      ((x.step (.release id)).run later).hub.registered.find? id = none ∧
      ((x.step (.release id)).run later).hub.held.find? id = none := by
  constructor
  · intro other hother
    rw [Activity.step, registered_release, held_release, if_neg hother, if_neg hother]
    exact ⟨rfl, rfl⟩
  · intro later
    have hsound := hx.release id
    have hback : (x.step (.release id)).hub.held.find? id = none := by
      rw [Activity.step, held_release, if_pos rfl]
    have hheld := (h.step (.release id)).held_run hsound hback later
    exact ⟨(hsound.run later).held_of_registered id hheld, hheld⟩

theorem Sound.subscriberCount_register (hx : x.Sound) (hid : id ∈ x.arriving)
    (filter : FlowFilter) (capacity : Nat) :
    (x.step (.register id filter capacity)).hub.subscriberCount =
      x.hub.subscriberCount + if x.hub.closed then 0 else 1 := by
  have hnew : id ∉ x.hub.registered.keys :=
    (Table.find?_eq_none_iff _ _).mp (hx.held_of_registered id (hx.not_held id hid))
  rw [Activity.step, if_pos hid]
  cases hclosed : x.hub.closed with
  | true => simp [Hub.register, subscriberCount, hclosed]
  | false => simp [Hub.register, subscriberCount, Table.size, Table.insert, hclosed, hnew]

end Hub.Activity

namespace FlowService

/-- For whatever a client asks, and whoever else uses the hub: the request is refused exactly if it
names a verdict that no flow can have, and then nothing has happened. Else one identifier is taken
and, unless the hub is closed, one subscription is registered, beside those that were. Its stream
gives the messages of the events that the subscription receives, one by one and in order, and leaves
the hub as the subscription itself would; each of the events lies in the namespace that was asked for
and has the verdict that was asked for. On a closed hub the stream is at its end. When it is dropped,
the subscription is gone for good, and no other. -/
theorem streams_agree_with_requests (before : List Hub.Step) (capacity : Nat)
    (map : Option ServiceMap) (namespaceName verdict : String) :
    let x := ({} : Hub.Activity).run before
    let s : FlowService := ⟨x.hub, capacity, map⟩
    let filter := FlowFilter.ofTexts namespaceName verdict
    let opened := s.openStream namespaceName verdict
    ((∃ e, opened.value.1 = .error e) ↔
      verdict ≠ "" ∧ ∀ e, (FlowFilter.ofTexts "" verdict).accepts e = false) ∧
    (∀ e, opened.value.1 = .error e → opened.value.2 = s ∧ opened.signals = []) ∧
    ∀ id, opened.value.1 = .ok id →
      let y := x.run [.allocate, .register id filter capacity]
      let served := opened.value.2
      served = ⟨y.hub, capacity, map⟩ ∧
      id = x.hub.nextId ∧ y.hub.nextId = x.hub.nextId + 1 ∧
      y.hub.subscriberCount = x.hub.subscriberCount + (if x.hub.closed then 0 else 1) ∧
      (∀ other, y.hub.registered.find? other =
        if other = id ∧ x.hub.closed = false then some filter
        else x.hub.registered.find? other) ∧
      ∀ after, .release id ∉ after →
        served.streamed id y after =
          ((y.answers id after).map StreamItem.ofReceived, y.run after) ∧
        (∀ e, .event e ∈ y.answers id after →
          (namespaceName ≠ "" →
            e.sourceNamespace = some namespaceName ∨ e.destinationNamespace = some namespaceName) ∧
          (verdict ≠ "" → Text.sameUpToCase e.verdictLabel verdict = true)) ∧
        (x.hub.closed = true → ∀ found ∈ y.answers id after, found = .ended) ∧
        let z := (y.run after).step (.release id)
        (∀ other, other ≠ id →
          z.hub.registered.find? other = (y.run after).hub.registered.find? other) ∧
        ∀ rest, (z.run rest).hub.registered.find? id = none := by
  intro x s filter opened
  have hx : x.Sound := Hub.Activity.sound_start.run before
  have hvalue : opened.value = _ := s.value_openStream namespaceName verdict
  refine ⟨s.isRefused_iff namespaceName verdict, ?_, ?_⟩
  · intro e he
    rw [hvalue] at he ⊢
    split_ifs at he ⊢ with h
    exact ⟨rfl, s.signals_of_refused namespaceName verdict h⟩
  · intro id hok y served
    have hserved : served = opened.value.2 := rfl
    rw [hvalue] at hok hserved
    split_ifs at hok hserved with h
    obtain rfl := Except.ok.inj hok
    have hy : y.hub = (x.hub.subscribe filter capacity).2 := x.hub_run_subscribe filter capacity
    have hx' : (x.step .allocate).Sound := hx.allocate
    have harriving : x.hub.nextId ∈ (x.step .allocate).arriving := List.mem_cons_self
    have hregister : y = (x.step .allocate).step (.register x.hub.nextId filter capacity) := rfl
    refine ⟨?_, rfl, ?_, ?_, ?_, ?_⟩
    · rw [hserved, hy]
    · rw [hy]
      rfl
    · rw [hregister, hx'.subscriberCount_register harriving]
      rfl
    · intro other
      rw [hy]
      exact Hub.registered_register _ other _ filter capacity
    · intro after hheld
      have hz : (y.run after).Sound := (hx.run _).run after
      have harrived : (y.run after).Arrived x.hub.nextId :=
        (hx'.arrived_register harriving filter capacity).run after
      obtain ⟨hothers, hgone⟩ := harrived.release hz
      refine ⟨served.streamed_eq _ y after, ?_, ?_, ?_, ?_⟩
      · intro e he
        rw [← FlowFilter.accepts_ofTexts_iff]
        exact hx'.accepts_of_answers harriving filter capacity hheld he
      · intro hclosed found hfound
        rw [hregister,
          hx'.answers_register_closed hclosed harriving filter capacity after hheld] at hfound
        exact List.eq_of_mem_replicate hfound
      · exact fun other hother => (hothers other hother).1
      · exact fun rest => (hgone rest).1

/-- A packet from a pod in the shop. -/
def fromShop (verdict : Verdict) : FlowEvent :=
  ⟨⟨⟨10, 11, 43210, 80, 6⟩, verdict, 0, false⟩, some { name := "web-1", namespaceName := "shop" }, none⟩

def shopOpening : List Hub.Step := [.allocate, .allocate, .register 0 {} 4]

/-- The stream is asked for the next flow three times. -/
def shopVisit : List Hub.Step :=
  [.offer (fromShop .dropped), .offer (fromShop .forwarded), .receive 0,
    .offer { fromShop .dropped with flow.timestamp := 7 }, .receive 2, .register 1 {} 4, .receive 2,
    .receive 2]

theorem streams_agree_with_requests_shop :
    let x := ({} : Hub.Activity).run shopOpening
    let s : FlowService := ⟨x.hub, 2, none⟩
    let refused := s.openStream "shop" "rejected"
    let granted := s.openStream "shop" "dropped"
    (∃ e, refused.value.1 = .error e) ∧ refused.value.2 = s ∧
      .release 2 ∉ shopVisit ∧ granted.value.1 = .ok 2 ∧
      granted.value.2.hub.subscriberCount = 2 ∧
      (granted.value.2.streamed 2 ⟨granted.value.2.hub, [1], []⟩ shopVisit).1 =
        [.flow (.ofEvent (fromShop .dropped)),
          .flow (.ofEvent { fromShop .dropped with flow.timestamp := 7 }), .pending] := by
  intro x s refused granted
  have hheld : .release 2 ∉ shopVisit := by decide
  obtain ⟨hrefused, hsame, -⟩ := streams_agree_with_requests shopOpening 2 none "shop" "rejected"
  obtain ⟨-, -, hgranted⟩ := streams_agree_with_requests shopOpening 2 none "shop" "dropped"
  have hnone : refused.value.1 = .error (.unknownVerdict "rejected") := rfl
  have hopened : granted.value.1 = .ok 2 := rfl
  obtain ⟨hserved, -, -, hcount, -, hstream⟩ := hgranted 2 hopened
  obtain ⟨hitems, -⟩ := hstream shopVisit hheld
  refine ⟨⟨_, hnone⟩, (hsame _ hnone).1, hheld, hopened, ?_, ?_⟩
  · exact (congrArg (fun later : FlowService => later.hub.subscriberCount) hserved).trans
      (hcount.trans (by decide))
  · exact (congrArg Prod.fst hitems).trans (by decide)

/-- On a closed hub a request is granted, and no subscription is registered for it. -/
theorem closed_hub_registers_no_stream :
    let s : FlowService := ⟨({} : Hub).closeAll, 4, none⟩
    let opened := s.openStream "" ""
    opened.value.1 = .ok 0 ∧
      s.hub.subscriberCount = 0 ∧ opened.value.2.hub.subscriberCount = 0 := by
  exact ⟨rfl, rfl, rfl⟩

end FlowService
end FlowObserver
