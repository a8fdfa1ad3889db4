import FlowObserver.Workload.Signals

/-!
# Watch sessions

A session follows the cluster's pods over one connection. It opens with a listing, whose pods are
collected and take effect together once the listing is complete; after that single changes take
effect at once. A listing that is cut short, or started again, leaves no trace.
-/

namespace FlowObserver

inductive WatchItem where
  | applied (pod : Pod)
  | deleted (pod : Pod)
  | listingStarted
  | listed (pod : Pod)
  | listingDone
  | failed (message : String)

structure WatchSession where
  index : WorkloadIndex
  /-- The pods listed so far, while a listing is open. -/
  listing : Option (List Pod) := none

namespace WatchSession

def change? (s : WatchSession) : WatchItem → Option PodEvent
  | .applied pod => some (.upsert pod)
  | .deleted pod => some (.delete pod)
  | .listed pod => if s.listing.isSome then none else some (.upsert pod)
  | .listingDone => some (.relisted (s.listing.getD []))
  | .listingStarted => none
  | .failed _ => none

def listingAfter (s : WatchSession) : WatchItem → Option (List Pod)
  | .listingStarted => some []
  | .listed pod => s.listing.map (· ++ [pod])
  | .listingDone => none
  | _ => s.listing

def accept (s : WatchSession) (item : WatchItem) : WatchSession where
  index := match s.change? item with
    | some e => s.index.apply e
    | none => s.index
  listing := s.listingAfter item

def say (severity : Severity) (name message : String) (details : List (String × String)) : Signal :=
  .event severity "flowscope::k8s::watcher" name message details

def resource : String × String := ("k8s.resource.name", Text.quoted "Pod")

def shownAddress : Option Net.Address → String
  | some a => "Some(" ++ a.toString ++ ")"
  | none => "None"

def counted (event : String) (line : Signal) : List Signal := [.count (.watcherEvents event), line]

def itemSignals (s : WatchSession) : WatchItem → List Signal
  | .applied pod => counted "apply" <| say .trace "k8s.watcher.apply" "pod applied"
      [WorkloadIndex.podDetail pod.key, ("k8s.pod.ip", shownAddress pod.address)]
  | .deleted pod => counted "delete" <| say .trace "k8s.watcher.delete" "pod deleted"
      [WorkloadIndex.podDetail pod.key]
  | .listingStarted => counted "init" <|
      say .debug "k8s.watcher.init" "pod watcher initialization started" [resource]
  | .listed _ => []
  | .listingDone => counted "init_done" <| say .debug "k8s.watcher.init_done"
      "pod watcher initialization complete, resyncing cache"
      [resource, ("k8s.pod.count", toString (s.listing.getD []).length)]
  | .failed message => counted "error" <| say .error "k8s.watcher.error"
      "pod watcher error, will retry" [("error.message", message), resource]

def accepting (s : WatchSession) (item : WatchItem) : Told WatchSession := do
  tell (s.itemSignals item)
  let index ← match s.change? item with
    | some e => s.index.applying e
    | none => pure s.index
  return ⟨index, s.listingAfter item⟩

theorem value_accepting (s : WatchSession) (item : WatchItem) :
    (s.accepting item).value = s.accept item := by
  unfold accepting accept
  cases s.change? item <;> rfl

end WatchSession

/-- What a session meets next. -/
inductive WatchStep where
  | item (i : WatchItem)
  | shutdown

inductive WatchEnd where
  | shutdown
  /-- The stream failed or came to its end. -/
  | disconnected
  deriving DecidableEq, Repr

structure WatchReport where
  /-- The index at each moment when the session turns to its next step. -/
  seen : List WorkloadIndex
  last : WorkloadIndex
  ending : WatchEnd

namespace WatchSession

/-- Follows the steps up to the first failure or the shutdown. -/
def follow (s : WatchSession) : List WatchStep → Told WatchReport
  | [] => return ⟨[s.index], s.index, .disconnected⟩
  | .shutdown :: _ => return ⟨[s.index], s.index, .shutdown⟩
  | .item (.failed message) :: _ => do
    let last ← s.accepting (.failed message)
    return ⟨[s.index], last.index, .disconnected⟩
  | .item i :: rest => do
    let report ← (← s.accepting i).follow rest
    return { report with seen := s.index :: report.seen }

end WatchSession
end FlowObserver
