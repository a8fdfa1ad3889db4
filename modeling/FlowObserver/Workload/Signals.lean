import FlowObserver.Telemetry.Told
import FlowObserver.Workload.Index

/-!
# What the workload index tells

Lookups are counted by their result. A change tells which pod lost an address, and how many
addresses are owned after it.
-/

namespace FlowObserver
namespace WorkloadIndex

def podDetail (key : PodKey) : String × String := ("k8s.pod.name", key.toString)

def say (name message : String) (details : List (String × String)) : Signal :=
  .event .trace "flowscope::k8s::cache" name message details

def changeSignals (x : WorkloadIndex) : PodEvent → List Signal
  | .upsert pod =>
    (x.movedFrom pod).toList.map fun previous =>
      say "k8s.cache.address_moved" "pod address changed"
        [podDetail pod.key, ("k8s.pod.previous_ip", previous.toString)]
  | .delete pod =>
    (x.vacated pod).toList.map fun address =>
      say "k8s.cache.removed" "pod removed from cache"
        [podDetail pod.key, ("k8s.pod.ip", address.toString)]
  | .relisted _ => []

def applying (x : WorkloadIndex) (e : PodEvent) : Told WorkloadIndex :=
  ⟨x.apply e, x.changeSignals e ++ [.set .indexEntries (x.apply e).size]⟩

def lookingUp (x : WorkloadIndex) (a : Net.Address) : Told (Option Workload) :=
  ⟨x.lookup a, [.count (.indexLookups (if (x.lookup a).isSome then "hit" else "miss"))]⟩

end WorkloadIndex
end FlowObserver
