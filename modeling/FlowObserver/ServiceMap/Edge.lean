import FlowObserver.Flow.Basic
import FlowObserver.Text.Order

/-!
# Edges of the service map

Flows between the same two workloads over the same protocol are counted together. A pod stands for
its owner, if it has one.
-/

namespace FlowObserver
namespace ServiceMap

structure EdgeKey where
  source : String
  sourceNamespace : String
  destination : String
  destinationNamespace : String
  protocol : String
  deriving DecidableEq, Repr

namespace EdgeKey

def texts (k : EdgeKey) : List String :=
  [k.source, k.sourceNamespace, k.destination, k.destinationNamespace, k.protocol]

/-- Field by field, each by code points. -/
def le (a b : EdgeKey) : Bool := Text.listLe a.texts b.texts

def workloadName (w : Workload) : String := w.ownerName.getD w.name

/-- None unless both ends are known. -/
def ofEvent? (e : FlowEvent) : Option EdgeKey := do
  let source ← e.source
  let destination ← e.destination
  return {
    source := workloadName source
    sourceNamespace := source.namespaceName
    destination := workloadName destination
    destinationNamespace := destination.namespaceName
    protocol := e.protocolLabel }

end EdgeKey

structure Counts where
  requests : Nat := 0
  successes : Nat := 0
  failures : Nat := 0
  deriving DecidableEq, Repr

namespace Counts

def add (a b : Counts) : Counts :=
  ⟨a.requests + b.requests, a.successes + b.successes, a.failures + b.failures⟩

/-- A packet that was let through is a success. -/
def ofVerdict : Verdict → Counts
  | .forwarded => ⟨1, 1, 0⟩
  | .dropped => ⟨1, 0, 1⟩

end Counts

structure Edge where
  key : EdgeKey
  counts : Counts
  deriving DecidableEq, Repr

end ServiceMap
end FlowObserver
