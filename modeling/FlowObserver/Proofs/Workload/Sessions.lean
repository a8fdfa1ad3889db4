import FlowObserver.Workload.Watch
import Mathlib.Tactic
import Mathlib.Data.List.DropRight
import Mathlib.Data.List.Infix

/-!
# What a watch session does to the index

The changes that a session makes are read off the list of its items. A listed pod counts at once
where no listing is open; otherwise it counts when the listing is done, together with all pods that
were listed since the listing was last started. So a listing that is cut short, or started again,
changes nothing, and the next session knows nothing of it.
-/

namespace FlowObserver
namespace WatchItem

/-- Neither the start nor the end of a listing. -/
def isBetween : WatchItem → Bool
  | .listingStarted | .listingDone => false
  | _ => true

def listed? : WatchItem → Option Pod
  | .listed pod => some pod
  | _ => none

/-- The change of a single pod, which takes effect at once, listing or not. -/
def single? : WatchItem → Option PodEvent
  | .applied pod => some (.upsert pod)
  | .deleted pod => some (.delete pod)
  | _ => none

end WatchItem

namespace WatchSession

/-- The pods listed since a listing was last started; none where it is done, or never began. -/
def openListing (items : List WatchItem) : Option (List Pod) :=
  match (items.rdropWhile WatchItem.isBetween).getLast? with
  | some .listingStarted =>
    some ((items.rtakeWhile WatchItem.isBetween).filterMap WatchItem.listed?)
  | _ => none

/-- The change that an item makes behind those that came before it. -/
def changeAfter (before : List WatchItem) : WatchItem → Option PodEvent
  | .applied pod => some (.upsert pod)
  | .deleted pod => some (.delete pod)
  | .listed pod => if (openListing before).isSome then none else some (.upsert pod)
  | .listingDone => some (.relisted ((openListing before).getD []))
  | .listingStarted | .failed _ => none

def changesAfter (before : List WatchItem) : List WatchItem → List PodEvent
  | [] => []
  | i :: rest => (changeAfter before i).toList ++ changesAfter (before ++ [i]) rest

def changes (items : List WatchItem) : List PodEvent := changesAfter [] items

theorem changesAfter_append (before items later : List WatchItem) :
    changesAfter before (items ++ later) =
      changesAfter before items ++ changesAfter (before ++ items) later := by
  induction items generalizing before with
  | nil => simp [changesAfter]
  | cons i rest ih => simp [changesAfter, ih]

theorem changes_concat (items : List WatchItem) (i : WatchItem) :
    changes (items ++ [i]) = changes items ++ (changeAfter items i).toList := by
  simp [changes, changesAfter_append, changesAfter]

theorem openListing_started (items : List WatchItem) :
    openListing (items ++ [.listingStarted]) = some [] := by
  simp [openListing, WatchItem.isBetween]

theorem openListing_done (items : List WatchItem) :
    openListing (items ++ [.listingDone]) = none := by
  simp [openListing, WatchItem.isBetween]

theorem openListing_between (items : List WatchItem) {i : WatchItem} (hi : i.isBetween = true) :
    openListing (items ++ [i]) = (openListing items).map (· ++ i.listed?.toList) := by
  rw [openListing, List.rdropWhile_concat_pos _ _ _ hi, List.rtakeWhile_concat_pos _ _ _ hi,
    openListing]
  split
  · rw [Option.map_some, List.filterMap_append]
    cases i <;> rfl
  · rfl

/-- A session collects the open listing. -/
theorem listingAfter_eq (x : WorkloadIndex) (items : List WatchItem) (i : WatchItem) :
    listingAfter ⟨x, openListing items⟩ i = openListing (items ++ [i]) := by
  cases i with
  | listingStarted => exact (openListing_started items).symm
  | listingDone => exact (openListing_done items).symm
  | listed pod =>
    rw [openListing_between items rfl]
    rfl
  | applied pod | deleted pod | failed message =>
    rw [openListing_between items rfl]
    simp [listingAfter, WatchItem.listed?]

/-- What came before the listing was started has no part in it. -/
theorem openListing_append_started (before items : List WatchItem) :
    openListing (before ++ .listingStarted :: items) = openListing (.listingStarted :: items) := by
  induction items using List.reverseRecOn with
  | nil => rw [openListing_started, ← List.nil_append [_], openListing_started]
  | append_singleton items i ih =>
    rw [← List.cons_append, ← List.append_assoc]
    cases i with
    | listingStarted => rw [openListing_started, openListing_started]
    | listingDone => rw [openListing_done, openListing_done]
    | applied pod | deleted pod | listed pod | failed message =>
      rw [openListing_between _ rfl, openListing_between _ rfl, ih]

/-- Until it is done the listing stays open. -/
theorem isSome_openListing (before during : List WatchItem) (hduring : .listingDone ∉ during) :
    (openListing (before ++ .listingStarted :: during)).isSome = true := by
  induction during using List.reverseRecOn with
  | nil => rw [openListing_started, Option.isSome_some]
  | append_singleton during i ih =>
    rw [List.mem_append, not_or, List.mem_singleton] at hduring
    rw [← List.cons_append, ← List.append_assoc]
    cases i with
    | listingStarted => rw [openListing_started, Option.isSome_some]
    | listingDone => exact absurd rfl hduring.2
    | applied pod | deleted pod | listed pod | failed message =>
      rw [openListing_between _ rfl, Option.isSome_map]
      exact ih hduring.1

/-- What came before a listing was started has no part in what comes after. -/
theorem changes_started (before items : List WatchItem) :
    changes (before ++ .listingStarted :: items) =
      changes before ++ changes (.listingStarted :: items) := by
  induction items using List.reverseRecOn with
  | nil => rw [changes_concat, ← List.nil_append [_], changes_concat]; rfl
  | append_singleton items i ih =>
    have hchange : changeAfter (before ++ .listingStarted :: items) i =
        changeAfter (.listingStarted :: items) i := by
      cases i <;> simp only [changeAfter, openListing_append_started]
    rw [← List.cons_append, ← List.append_assoc, changes_concat, changes_concat, ih, hchange,
      List.append_assoc]

/-- While a listing is open, single changes count and listed pods do not. -/
theorem changes_unfinished (before during : List WatchItem) (hduring : .listingDone ∉ during) :
    changes (before ++ .listingStarted :: during) =
      changes before ++ during.filterMap WatchItem.single? := by
  induction during using List.reverseRecOn with
  | nil => simp [changes_concat, changeAfter]
  | append_singleton during i ih =>
    rw [List.mem_append, not_or, List.mem_singleton] at hduring
    have hopen := isSome_openListing before during hduring.1
    have hchange : changeAfter (before ++ .listingStarted :: during) i = i.single? := by
      cases i with
      | listingDone => exact absurd rfl hduring.2
      | listed pod => simp [changeAfter, hopen, WatchItem.single?]
      | applied pod | deleted pod | listingStarted | failed message => rfl
    rw [← List.cons_append, ← List.append_assoc, changes_concat, ih hduring.1, hchange,
      List.filterMap_append, List.append_assoc]
    cases i <;> rfl

/-- Nothing follows, or the listing is started again. -/
def Abandons (rest : List WatchItem) : Prop :=
  rest = [] ∨ ∃ later, rest = .listingStarted :: later

theorem changes_abandoned (before during : List WatchItem) {rest : List WatchItem}
    (hduring : .listingDone ∉ during) (hrest : Abandons rest) :
    changes (before ++ .listingStarted :: (during ++ rest)) =
      changes before ++ during.filterMap WatchItem.single? ++ changes rest := by
  rcases hrest with rfl | ⟨later, rfl⟩
  · rw [List.append_nil, changes_unfinished before during hduring]
    exact (List.append_nil _).symm
  · rw [← List.cons_append, ← List.append_assoc, changes_started,
      changes_unfinished before during hduring]

def met : List WatchStep → List WatchItem
  | [] => []
  | .shutdown :: _ => []
  | .item (.failed _) :: _ => []
  | .item i :: rest => i :: met rest

theorem accept_eq (x : WorkloadIndex) (items : List WatchItem) (i : WatchItem) :
    accept ⟨x, openListing items⟩ i =
      ⟨(changeAfter items i).toList.foldl WorkloadIndex.apply x, openListing (items ++ [i])⟩ := by
  have hindex : (accept ⟨x, openListing items⟩ i).index =
      (changeAfter items i).toList.foldl WorkloadIndex.apply x := by
    cases i with
    | listed pod =>
      simp only [accept, change?, changeAfter]
      split_ifs <;> rfl
    | _ => rfl
  rw [← hindex, ← listingAfter_eq x]
  rfl

theorem foldl_accept (x : WorkloadIndex) (items : List WatchItem) :
    items.foldl accept ⟨x, none⟩ =
      ⟨(changes items).foldl WorkloadIndex.apply x, openListing items⟩ := by
  induction items using List.reverseRecOn with
  | nil => rfl
  | append_singleton items i ih =>
    rw [List.foldl_append, ih, changes_concat, List.foldl_append]
    exact accept_eq _ items i

theorem value_follow (s : WatchSession) (steps : List WatchStep) :
    (s.follow steps).value.seen =
        (met steps).inits.map (fun items => (items.foldl accept s).index) ∧
      (s.follow steps).value.last = ((met steps).foldl accept s).index := by
  induction steps generalizing s with
  | nil => exact ⟨rfl, rfl⟩
  | cons step rest ih =>
    cases step with
    | shutdown => exact ⟨rfl, rfl⟩
    | item i =>
      cases i with
      | failed message => exact ⟨rfl, rfl⟩
      | _ =>
        simp [follow, met, value_accepting, ih, Function.comp_def]

theorem value_follow_opened (x : WorkloadIndex) (steps : List WatchStep) :
    (follow ⟨x, none⟩ steps).value.seen =
        (met steps).inits.map (fun items => (changes items).foldl WorkloadIndex.apply x) ∧
      (follow ⟨x, none⟩ steps).value.last = (changes (met steps)).foldl WorkloadIndex.apply x := by
  obtain ⟨hseen, hlast⟩ := value_follow ⟨x, none⟩ steps
  simp only [foldl_accept] at hseen hlast
  exact ⟨hseen, hlast⟩

/-- The index after these sessions, each of which begins with nothing listed. -/
def afterEach (x : WorkloadIndex) (sessions : List (List WatchStep)) : WorkloadIndex :=
  sessions.foldl (fun x steps => (follow ⟨x, none⟩ steps).value.last) x

theorem afterEach_eq (x : WorkloadIndex) (sessions : List (List WatchStep)) :
    afterEach x sessions =
      (sessions.flatMap fun steps => changes (met steps)).foldl WorkloadIndex.apply x := by
  induction sessions generalizing x with
  | nil => rfl
  | cons steps rest ih =>
    rw [List.flatMap_cons, List.foldl_append, ← (value_follow_opened x steps).2]
    exact ih _

/-- After any sessions, and at each moment of the next one, the index is what the changes up to then
make of it. A listing that is not done, or that is started again, is none of them: of what it
brought, single changes alone count. -/
theorem unfinished_listing_invisible (x : WorkloadIndex) (sessions : List (List WatchStep))
    (steps : List WatchStep) :
    let y := afterEach x sessions
    let report := (follow ⟨y, none⟩ steps).value
    y = (sessions.flatMap fun s => changes (met s)).foldl WorkloadIndex.apply x ∧
    report.last = (changes (met steps)).foldl WorkloadIndex.apply y ∧
    report.seen =
      (met steps).inits.map (fun items => (changes items).foldl WorkloadIndex.apply y) ∧
    ∀ k before during rest, k ≤ (met steps).length →
      (met steps).take k = before ++ .listingStarted :: (during ++ rest) →
      .listingDone ∉ during → Abandons rest →
      report.seen[k]? = some
        ((changes before ++ during.filterMap WatchItem.single? ++ changes rest).foldl
          WorkloadIndex.apply y) := by
  intro y report
  obtain ⟨hseen, hlast⟩ := value_follow_opened y steps
  refine ⟨afterEach_eq x sessions, hlast, hseen, ?_⟩
  intro k before during rest hk htake hduring hrest
  have hlt : k < (met steps).inits.length := by
    rw [List.length_inits]
    omega
  have hmoment : (met steps).inits[k]? = some ((met steps).take k) := by
    rw [List.getElem?_eq_getElem hlt, List.getElem_inits]
  rw [← changes_abandoned before during hduring hrest, ← htake, hseen, List.getElem?_map, hmoment]
  rfl

/-- A listing that is cut by a failure. -/
def cutListing : List WatchStep :=
  [.item .listingStarted, .item (.listed ⟨{ name := "web-1", namespaceName := "shop" }, some (.v4 5)⟩),
    .item (.failed "connection reset"), .item .listingDone]

/-- A listing that is started again while a pod is applied, and then done. -/
def restartedListing : List WatchStep :=
  [.item .listingStarted, .item (.listed ⟨{ name := "web-2", namespaceName := "shop" }, some (.v4 6)⟩),
    .item (.applied ⟨{ name := "web-3", namespaceName := "shop" }, some (.v4 7)⟩),
    .item .listingStarted,
    .item (.listed ⟨{ name := "web-4", namespaceName := "shop" }, some (.v4 8)⟩),
    .item .listingDone, .shutdown]

theorem unfinished_listing_invisible_restarted :
    let report := (follow ⟨afterEach {} [cutListing], none⟩ restartedListing).value
    (∃ x, report.seen[5]? = some x ∧
      x.lookup (.v4 5) = none ∧ x.lookup (.v4 6) = none ∧ x.lookup (.v4 8) = none ∧
      x.lookup (.v4 7) = some { name := "web-3", namespaceName := "shop" }) ∧
    report.last.lookup (.v4 7) = none ∧
    report.last.lookup (.v4 8) = some { name := "web-4", namespaceName := "shop" } := by
  intro report
  obtain ⟨hstart, hlast, -, hseen⟩ := unfinished_listing_invisible {} [cutListing] restartedListing
  refine ⟨⟨_, hseen 5 []
    [.listed ⟨{ name := "web-2", namespaceName := "shop" }, some (.v4 6)⟩,
      .applied ⟨{ name := "web-3", namespaceName := "shop" }, some (.v4 7)⟩]
    [.listingStarted, .listed ⟨{ name := "web-4", namespaceName := "shop" }, some (.v4 8)⟩]
    (by decide) rfl (by simp) (Or.inr ⟨_, rfl⟩), ?_⟩, ?_⟩
  · rw [hstart]
    decide
  · rw [show report.last = _ from hlast, hstart]
    decide

end WatchSession
end FlowObserver
