import FlowObserver.Hub.Told
import FlowObserver.ServiceMap.Basic

/-!
# Feeding the service map

A task with a subscription of its own counts every event that it receives, until its subscription
ends or the agent shuts down.
-/

namespace FlowObserver
namespace ServiceMap

structure Collector where
  subscription : SubscriptionId
  hub : Hub
  map : ServiceMap

namespace Collector

def say (severity : Severity) (name message : String) (details : List (String × String)) : Signal :=
  .event severity "flowscope::servicemap::aggregator" name message details

def start (hub : Hub) (map : ServiceMap) (capacity : Nat) : Told Collector := do
  let (id, hub) ← hub.subscribing {} capacity
  tell [say .info "task.started" "service map aggregator started"
    [("task.name", Text.quoted "service_map"), Hub.idDetail id]]
  return ⟨id, hub, map⟩

/-- Receives once; an event is counted at time `now`. -/
def take (c : Collector) (now : Nat) : Collector :=
  match c.hub.receive c.subscription with
  | (.event e, hub) => { c with hub, map := c.map.record e now }
  | (_, hub) => { c with hub }

def takeAll (c : Collector) (now : Nat) : Collector :=
  let (events, hub) := c.hub.drain c.subscription
  { c with hub, map := events.foldl (fun m e => m.record e now) c.map }

/-- The task ends, because its subscription did or else because of a shutdown, and gives its
subscription back. -/
def stop (c : Collector) : Told Collector := do
  unless c.hub.registered.contains c.subscription do
    tell [say .debug "service_map.subscription_closed" "flow subscription closed" []]
  tell [say .info "task.stopped" "service map aggregator stopped"
    [("task.name", Text.quoted "service_map"),
      ("flows.dropped", toString ((c.hub.dropped? c.subscription).getD 0))]]
  let hub ← c.hub.releasing c.subscription
  return { c with hub }

end Collector
end ServiceMap
end FlowObserver
