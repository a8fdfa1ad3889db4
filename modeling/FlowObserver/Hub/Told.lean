import FlowObserver.Hub.Signals
import FlowObserver.Telemetry.Told

/-!
# Hub operations with their signals

Each operation of the hub, telling what it does; and the task that publishes what ingestion hands
over until the handover ends.
-/

namespace FlowObserver
namespace Hub

def subscribing (h : Hub) (filter : FlowFilter) (capacity : Nat) : Told (SubscriptionId × Hub) :=
  ⟨h.subscribe filter capacity, h.subscribeSignals filter⟩

def publishing (h : Hub) (e : FlowEvent) : Told Hub := ⟨h.publish e, h.publishSignals e⟩

def releasing (h : Hub) (id : SubscriptionId) : Told Hub := ⟨h.release id, h.unregisterSignals id⟩

def closing (h : Hub) : Told Hub := ⟨h.closeAll, h.closeAllSignals⟩

def drain (h : Hub) (id : SubscriptionId) : List FlowEvent × Hub :=
  match h.held.find? id with
  | some q => (q.pending, { h with held := h.held.insert id { q with pending := [] } })
  | none => ([], h)

def distribute (h : Hub) (events : List FlowEvent) : Told Hub := do
  tell [say .info "task.started" "distribution task started"
    [("task.name", Text.quoted "distribution")]]
  let h ← events.foldlM publishing h
  let h ← h.closing
  tell [say .info "task.stopped" "distribution task stopped"
    [("task.name", Text.quoted "distribution")]]
  return h

def subscribeEach (h : Hub) (requests : List (FlowFilter × Nat)) : Told (List SubscriptionId × Hub) :=
  requests.foldlM (fun (ids, h) (filter, capacity) => do
    let (id, h) ← h.subscribing filter capacity
    return (ids ++ [id], h)) ([], h)

end Hub
end FlowObserver
