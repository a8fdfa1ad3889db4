import FlowObserver.Hub.Basic
import FlowObserver.Telemetry.Signal

/-!
# What the hub tells

For each operation of the hub, the signals that it gives in the state it starts from.
-/

namespace FlowObserver
namespace Hub

def logTarget : String := "flowscope::distribution::hub"

def say (severity : Severity) (name message : String) (details : List (String × String)) : Signal :=
  .event severity logTarget name message details

def idDetail (id : SubscriptionId) : String × String := ("subscription.id", toString id)

/-- A closed hub takes no registration and is silent. -/
def subscribeSignals (h : Hub) (filter : FlowFilter) : List Signal :=
  if h.closed then []
  else
    [say .debug "distribution.subscribed" "subscription registered"
      [idDetail h.nextId, ("filter.namespace", Text.quotedOption filter.namespaceName),
        ("filter.verdict", Text.quotedOption filter.verdict)],
     .add .subscribers 1]

def unregisterSignals (h : Hub) (id : SubscriptionId) : List Signal :=
  if h.registered.contains id then
    [.add .subscribers (-1),
     say .debug "distribution.unsubscribed" "subscription removed" [idDetail id]]
  else []

/-- Queues that lose the event because they are full. -/
def losers (h : Hub) (e : FlowEvent) : List SubscriptionId :=
  h.registered.keys.filter fun id =>
    h.wants id e && match h.held.find? id with
      | some q => q.isFull
      | none => false

def publishSignals (h : Hub) (e : FlowEvent) : List Signal :=
  let lost (id : SubscriptionId) : List Signal :=
    [.count .subscriberDropped,
     say .trace "distribution.dropped" "subscriber queue full, dropping event" [idDetail id]]
  .count .published :: (h.losers e).flatMap lost ++ (h.orphans e).flatMap h.unregisterSignals

def closeAllSignals (h : Hub) : List Signal :=
  [.add .subscribers (-(h.subscriberCount : Int)),
   say .info "distribution.closed" "all subscriptions closed"
    [("subscription.count", toString h.subscriberCount)]]

end Hub
end FlowObserver
