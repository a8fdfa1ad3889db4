import FlowObserver.Proofs.Workload.Changes
import FlowObserver.Proofs.Workload.Sessions

/-!
# What a whole listing makes up for

A listing decides who owns which address and where each pod was last seen, so whatever an index held
before it has no part in what comes after. Two sessions that meet the same listing and the same items
behind it leave indexes that nothing tells apart, even if one of them missed changes, or began with
tables that no changes lead to. What else a session meets while its listing is open does not matter.
-/

namespace FlowObserver
namespace WorkloadIndex

/-- Both find the same owner for each address and the same last address for each pod. -/
structure Alike (x y : WorkloadIndex) : Prop where
  lookup : ∀ a, x.lookup a = y.lookup a
  lastAddress : ∀ key, x.lastAddress.find? key = y.lastAddress.find? key

variable {x y : WorkloadIndex}

theorem Alike.owns_iff (h : x.Alike y) (key : PodKey) (a : Net.Address) :
    x.Owns key a ↔ y.Owns key a := by
  unfold Owns
  rw [h.lookup]

theorem Alike.upsert (h : x.Alike y) (pod : Pod) : (x.upsert pod).Alike (y.upsert pod) := by
  constructor
  · intro a
    by_cases hown : pod.address = some a
    · rw [x.lookup_upsert_self hown, y.lookup_upsert_self hown]
    · by_cases hleft : x.lastAddress.find? pod.key = some a ∧ x.Owns pod.key a
      · obtain ⟨hlast, howns⟩ := hleft
        rw [x.lookup_upsert_moved hown hlast howns]
        rw [h.lastAddress] at hlast
        rw [h.owns_iff] at howns
        rw [y.lookup_upsert_moved hown hlast howns]
      · have hkept : y.lastAddress.find? pod.key = some a → ¬y.Owns pod.key a := by
          intro hlast howns
          rw [← h.lastAddress] at hlast
          rw [← h.owns_iff] at howns
          exact hleft ⟨hlast, howns⟩
        rw [x.lookup_upsert_of_not hown fun hlast howns => hleft ⟨hlast, howns⟩,
          y.lookup_upsert_of_not hown hkept, h.lookup]
  · intro key
    rw [lastAddress_upsert, lastAddress_upsert, h.lastAddress]

theorem Alike.delete (h : x.Alike y) (pod : Pod) : (x.delete pod).Alike (y.delete pod) := by
  have hvacated : x.vacated pod = y.vacated pod := by
    unfold vacated
    rw [h.lastAddress]
  constructor
  · intro a
    rw [lookup_delete, lookup_delete, hvacated, h.lookup]
  · intro key
    rw [lastAddress_delete, lastAddress_delete, h.lastAddress]

/-- After a listing it is as if nothing had been before. -/
theorem alike_relist (x y : WorkloadIndex) (pods : List Pod) :
    (x.relist pods).Alike (y.relist pods) := by
  constructor
  · intro a
    rw [lookup_relist, lookup_relist]
  · intro key
    rw [lastAddress_relist, lastAddress_relist]

theorem Alike.apply (h : x.Alike y) (e : PodEvent) : (x.apply e).Alike (y.apply e) := by
  cases e with
  | upsert pod => exact h.upsert pod
  | delete pod => exact h.delete pod
  | relisted pods => exact alike_relist x y pods

end WorkloadIndex

namespace WatchSession

/-- At the same point of a listing, with indexes that nothing tells apart. -/
structure Alike (s t : WatchSession) : Prop where
  index : s.index.Alike t.index
  listing : s.listing = t.listing

variable {s t : WatchSession}

theorem Alike.change?_eq (h : s.Alike t) (i : WatchItem) : s.change? i = t.change? i := by
  unfold change?
  rw [h.listing]

theorem Alike.accept (h : s.Alike t) (i : WatchItem) : (s.accept i).Alike (t.accept i) := by
  constructor
  · simp only [WatchSession.accept, h.change?_eq]
    cases t.change? i with
    | none => exact h.index
    | some e => exact h.index.apply e
  · simp only [WatchSession.accept, listingAfter, h.listing]

theorem Alike.foldl_accept (h : s.Alike t) (items : List WatchItem) :
    (items.foldl WatchSession.accept s).Alike (items.foldl WatchSession.accept t) := by
  induction items generalizing s t with
  | nil => exact h
  | cons i rest ih => exact ih (h.accept i)

/-- What a session sees after its first `k` items. -/
theorem seen_follow (s : WatchSession) {steps : List WatchStep} {k : Nat}
    (hk : k ≤ (met steps).length) :
    (s.follow steps).value.seen[k]? = some (((met steps).take k).foldl WatchSession.accept s).index := by
  have hlt : k < (met steps).inits.length := by
    rw [List.length_inits]
    omega
  rw [(value_follow s steps).1, List.getElem?_map, List.getElem?_eq_getElem hlt,
    List.getElem_inits]
  rfl

/-- Alike sessions that meet the same items see alike indexes, moment by moment. -/
theorem Alike.follow (h : s.Alike t) (steps : List WatchStep) {k : Nat}
    (hk : k ≤ (met steps).length) :
    ∃ y z, (s.follow steps).value.seen[k]? = some y ∧ (t.follow steps).value.seen[k]? = some z ∧
      y.Alike z :=
  ⟨_, _, seen_follow s hk, seen_follow t hk, (h.foldl_accept _).index⟩

theorem Alike.last (h : s.Alike t) (steps : List WatchStep) :
    (s.follow steps).value.last.Alike (t.follow steps).value.last := by
  rw [(value_follow s steps).2, (value_follow t steps).2]
  exact (h.foldl_accept _).index

theorem alike_afterEach {x y : WorkloadIndex} (h : x.Alike y) (sessions : List (List WatchStep)) :
    (afterEach x sessions).Alike (afterEach y sessions) := by
  induction sessions generalizing x y with
  | nil => exact h
  | cons steps rest ih =>
    have hopened : Alike ⟨x, none⟩ ⟨y, none⟩ := ⟨h, rfl⟩
    exact ih (hopened.last steps)

/-- The items end with a whole listing of these pods, which may have single changes in between. -/
def EndsListing (items : List WatchItem) (pods : List Pod) : Prop :=
  ∃ before during, items = before ++ .listingStarted :: (during ++ [.listingDone]) ∧
    (∀ i ∈ during, i.isBetween = true) ∧ during.filterMap WatchItem.listed? = pods

theorem openListing_during (before during : List WatchItem)
    (hduring : ∀ i ∈ during, i.isBetween = true) :
    openListing (before ++ .listingStarted :: during) =
      some (during.filterMap WatchItem.listed?) := by
  induction during using List.reverseRecOn with
  | nil => exact openListing_started before
  | append_singleton during i ih =>
    rw [List.forall_mem_append, List.forall_mem_singleton] at hduring
    rw [← List.cons_append, ← List.append_assoc, openListing_between _ hduring.2, ih hduring.1,
      Option.map_some, List.filterMap_append]
    cases i <;> rfl

/-- At its end nothing is left of what the session began with. -/
theorem EndsListing.foldl_accept {items : List WatchItem} {pods : List Pod}
    (h : EndsListing items pods) (x : WorkloadIndex) :
    ∃ y : WorkloadIndex, items.foldl WatchSession.accept ⟨x, none⟩ = ⟨y.relist pods, none⟩ := by
  obtain ⟨before, during, rfl, hduring, rfl⟩ := h
  refine ⟨(changes (before ++ .listingStarted :: during)).foldl WorkloadIndex.apply x, ?_⟩
  rw [← List.cons_append, ← List.append_assoc, WatchSession.foldl_accept, openListing_done,
    changes_concat, changeAfter, openListing_during before during hduring, List.foldl_append]
  rfl

theorem EndsListing.alike {items items' : List WatchItem} {pods : List Pod}
    (h : EndsListing items pods) (h' : EndsListing items' pods) (x x' : WorkloadIndex) :
    Alike (items.foldl WatchSession.accept ⟨x, none⟩)
      (items'.foldl WatchSession.accept ⟨x', none⟩) := by
  obtain ⟨y, hy⟩ := h.foldl_accept x
  obtain ⟨y', hy'⟩ := h'.foldl_accept x'
  rw [hy, hy']
  exact ⟨WorkloadIndex.alike_relist y y' pods, rfl⟩

/-- Whatever two indexes held and whatever sessions came before, once a session of each has met a
whole listing of the same pods, and as long as both meet the same items from then on, in this session
and in later ones, nothing tells the indexes apart at any moment. -/
theorem alike_after_listing (x x' : WorkloadIndex) (sessions sessions' : List (List WatchStep))
    {steps steps' : List WatchStep} {items items' later : List WatchItem} {pods : List Pod}
    (hmet : met steps = items ++ later) (hlisting : EndsListing items pods)
    (hmet' : met steps' = items' ++ later) (hlisting' : EndsListing items' pods) :
    let report := (follow ⟨afterEach x sessions, none⟩ steps).value
    let report' := (follow ⟨afterEach x' sessions', none⟩ steps').value
    (∀ k ≤ later.length, ∃ y y', report.seen[items.length + k]? = some y ∧
      report'.seen[items'.length + k]? = some y' ∧ y.Alike y') ∧
    ∀ more next k, k ≤ (met next).length → ∃ y y',
      (follow ⟨afterEach report.last more, none⟩ next).value.seen[k]? = some y ∧
      (follow ⟨afterEach report'.last more, none⟩ next).value.seen[k]? = some y' ∧ y.Alike y' := by
  intro report report'
  have halike := hlisting.alike hlisting' (afterEach x sessions) (afterEach x' sessions')
  constructor
  · intro k hk
    refine ⟨_, _, seen_follow _ ?_, seen_follow _ ?_, ?_⟩
    · rw [hmet, List.length_append]
      omega
    · rw [hmet', List.length_append]
      omega
    · rw [hmet, hmet', List.take_length_add_append, List.take_length_add_append,
        List.foldl_append, List.foldl_append]
      exact (halike.foldl_accept _).index
  · intro more next k hk
    have hlast : report.last.Alike report'.last := by
      rw [(value_follow _ steps).2, (value_follow _ steps').2, hmet, hmet', List.foldl_append,
        List.foldl_append]
      exact (halike.foldl_accept later).index
    have hopened : Alike ⟨afterEach report.last more, none⟩ ⟨afterEach report'.last more, none⟩ :=
      ⟨alike_afterEach hlast more, rfl⟩
    exact hopened.follow next hk

def shopPod (name : String) (address : Option Net.Address) : Pod :=
  ⟨{ name, namespaceName := "shop" }, address⟩

/-- Tables that no changes lead to: an address is the last one of a pod that does not own it. -/
def strayTables : WorkloadIndex where
  owners := Table.empty.insert (.v4 5) (shopPod "web-1" none).workload
  lastAddress := Table.empty.insert (shopPod "web-2" none).key (.v4 5)

/-- A listing that is started twice, while a pod is deleted. -/
def startedTwice : List WatchItem :=
  [.applied (shopPod "web-3" (some (.v4 7))), .listingStarted,
    .listed (shopPod "web-4" (some (.v4 9))), .listingStarted,
    .listed (shopPod "web-2" (some (.v4 6))), .deleted (shopPod "web-1" none),
    .listed (shopPod "web-3" (some (.v4 8))), .listingDone]

/-- The same listing, while another pod takes an address. -/
def startedOnce : List WatchItem :=
  [.listingStarted, .listed (shopPod "web-2" (some (.v4 6))),
    .applied (shopPod "web-5" (some (.v4 5))), .listed (shopPod "web-3" (some (.v4 8))),
    .listingDone]

/-- A pod goes without its address, and another one moves. -/
def afterwards : List WatchItem :=
  [.deleted (shopPod "web-3" none), .applied (shopPod "web-2" (some (.v4 5)))]

theorem alike_after_listing_strayed :
    let pods := [shopPod "web-2" (some (.v4 6)), shopPod "web-3" (some (.v4 8))]
    let steps := (startedTwice ++ afterwards).map WatchStep.item
    let steps' := (startedOnce ++ afterwards).map WatchStep.item
    let report := (follow ⟨afterEach strayTables [cutListing], none⟩ steps).value
    let report' := (follow ⟨afterEach {} [], none⟩ steps').value
    met steps = startedTwice ++ afterwards ∧ EndsListing startedTwice pods ∧
      met steps' = startedOnce ++ afterwards ∧ EndsListing startedOnce pods ∧
      ∃ y y', report.seen[10]? = some y ∧ report'.seen[7]? = some y' ∧ y.Alike y' ∧
        y.lookup (.v4 8) = none ∧
        y.lookup (.v4 5) = some { name := "web-2", namespaceName := "shop" } := by
  intro pods steps steps' report report'
  have hlisting : EndsListing startedTwice pods :=
    ⟨startedTwice.take 3, (startedTwice.drop 4).dropLast, rfl,
      by simp [startedTwice, WatchItem.isBetween], rfl⟩
  have hlisting' : EndsListing startedOnce pods :=
    ⟨[], startedOnce.tail.dropLast, rfl, by simp [startedOnce, WatchItem.isBetween], rfl⟩
  have hmet : met steps = startedTwice ++ afterwards := rfl
  have hmet' : met steps' = startedOnce ++ afterwards := rfl
  obtain ⟨hmoments, -⟩ :=
    alike_after_listing strayTables {} [cutListing] [] hmet hlisting hmet' hlisting'
  obtain ⟨y, y', hy, hy', halike⟩ := hmoments 2 (by decide)
  have hlookup : ∀ a, y.lookup a = report.seen[10]?.bind (·.lookup a) := by
    intro a
    rw [show report.seen[10]? = some y from hy, Option.bind_some]
  refine ⟨hmet, hlisting, hmet', hlisting', y, y', hy, hy', halike, ?_, ?_⟩
  · rw [hlookup]
    decide
  · rw [hlookup]
    decide

end WatchSession
end FlowObserver
