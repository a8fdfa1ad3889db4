import FlowObserver.Net.Address
import FlowObserver.Workload.Basic

/-!
# Flows

A flow is one observed packet: who spoke to whom, whether the datapath let it pass, and when. A
flow event adds the workloads at its two ends. Labels are functions of the flow, so they cannot
disagree with it.
-/

namespace FlowObserver

/-- `TCP`, `UDP`, or the number of any other protocol. -/
def protocolLabel (protocol : UInt8) : String :=
  if protocol = 6 then "TCP"
  else if protocol = 17 then "UDP"
  else s!"UNKNOWN({protocol.toNat})"

inductive Verdict where
  | forwarded
  | dropped
  deriving DecidableEq, Repr

namespace Verdict

def toByte : Verdict → UInt8
  | forwarded => 1
  | dropped => 2

def ofByte? (b : UInt8) : Option Verdict :=
  if b = 1 then some forwarded else if b = 2 then some dropped else none

theorem ofByte?_toByte (v : Verdict) : ofByte? v.toByte = some v := by
  cases v <;> rfl

theorem ofByte?_eq_none_iff (b : UInt8) : ofByte? b = none ↔ b ≠ 1 ∧ b ≠ 2 := by
  unfold ofByte?
  by_cases h1 : b = 1
  · simp [h1]
  · by_cases h2 : b = 2 <;> simp [h1, h2]

def label : Verdict → String
  | forwarded => "FORWARDED"
  | dropped => "DROPPED"

end Verdict

/-- Ports are zero for protocols that have none. -/
structure FiveTuple where
  source : UInt32
  destination : UInt32
  sourcePort : UInt16
  destinationPort : UInt16
  protocol : UInt8
  deriving DecidableEq, Repr

def FiveTuple.toString (t : FiveTuple) : String :=
  let side (address : UInt32) (port : UInt16) : String := s!"{Net.dotted address}:{port.toNat}"
  side t.source t.sourcePort ++ " -> " ++ side t.destination t.destinationPort ++
    " [" ++ protocolLabel t.protocol ++ "]"

structure Flow where
  tuple : FiveTuple
  verdict : Verdict
  /-- Nanoseconds since boot of the node that captured the packet. -/
  timestamp : UInt64
  tunneled : Bool
  deriving DecidableEq, Repr

structure FlowEvent where
  flow : Flow
  source : Option Workload
  destination : Option Workload
  deriving DecidableEq, Repr

namespace FlowEvent

def sourceNamespace (e : FlowEvent) : Option String := e.source.map (·.namespaceName)

def destinationNamespace (e : FlowEvent) : Option String := e.destination.map (·.namespaceName)

def protocolLabel (e : FlowEvent) : String := FlowObserver.protocolLabel e.flow.tuple.protocol

def verdictLabel (e : FlowEvent) : String := e.flow.verdict.label

def failureReason (e : FlowEvent) : Option String :=
  match e.flow.verdict with
  | .forwarded => none
  | .dropped => some "dropped by datapath"

end FlowEvent
end FlowObserver
