import FlowObserver.Net.Address
import FlowObserver.Json.Access

/-!
# Workloads and pods

The identity that is attached to one side of a flow, and the pod that it is taken from.
-/

namespace FlowObserver

structure PodKey where
  namespaceName : String
  name : String
  deriving DecidableEq, Repr

def PodKey.toString (k : PodKey) : String := k.namespaceName ++ "/" ++ k.name

structure Workload where
  name : String
  namespaceName : String
  /-- Name of the first owner, for instance a ReplicaSet. -/
  ownerName : Option String := none
  ownerKind : Option String := none
  labels : List (String × String) := []
  deriving DecidableEq, Repr

namespace Workload

def key (w : Workload) : PodKey := ⟨w.namespaceName, w.name⟩

def toJson (w : Workload) : Json :=
  .obj [("name", w.name), ("namespace", w.namespaceName),
    ("workload_name", w.ownerName), ("workload_kind", w.ownerKind),
    ("labels", .obj (w.labels.map fun (k, v) => (k, .str v)))]

/-- Reads back what `toJson` writes; what is missing is empty or absent. -/
def ofJson (j : Json) : Workload where
  name := j.textAt "name"
  namespaceName := j.textAt "namespace"
  ownerName := j.textAt? "workload_name"
  ownerKind := j.textAt? "workload_kind"
  labels := (j.sub "labels").textFields

end Workload

/-- The parts of a pod that correlation needs; a pod without an address is pending or released. -/
structure Pod where
  workload : Workload
  address : Option Net.Address
  deriving DecidableEq, Repr

namespace Pod

def key (p : Pod) : PodKey := p.workload.key

/-- The pod that a cluster object describes. An address that does not parse counts as absent, and
only the first owner is kept. -/
def ofObject (object : Json) : Pod :=
  let metadata := object.sub "metadata"
  let owner := (metadata.listAt "ownerReferences").head?
  { workload := {
      name := metadata.textAt "name"
      namespaceName := metadata.textAt "namespace"
      ownerName := owner.map (·.textAt "name")
      ownerKind := owner.map (·.textAt "kind")
      labels := (metadata.sub "labels").textFields.mergeSort fun a b => a.1 ≤ b.1 }
    address := ((object.sub "status").textAt? "podIP").bind Net.Address.parse? }

end Pod
end FlowObserver
