import FlowObserver.Hub.Told
import FlowObserver.Message.Edge
import FlowObserver.ServiceMap.Basic

/-!
# The flow service

What clients may ask of a running agent: a stream of flows, and the edges of the service map. A
request for a verdict that does not exist is refused before anything is registered.
-/

namespace FlowObserver

inductive RequestError where
  | unknownVerdict (text : String)
  | mapDisabled
  deriving DecidableEq, Repr

def RequestError.message : RequestError → String
  | unknownVerdict text =>
    s!"unknown verdict '{text}', expected {Verdict.forwarded.label} or {Verdict.dropped.label}"
  | mapDisabled => "service map is disabled on this agent"

def RequestError.status : RequestError → String
  | unknownVerdict _ => "InvalidArgument"
  | mapDisabled => "Unavailable"

/-- The empty text asks for any verdict; else it must be a label, in any case. -/
def isVerdictRequest (text : String) : Bool :=
  text = "" || Text.sameUpToCase text Verdict.forwarded.label ||
    Text.sameUpToCase text Verdict.dropped.label

structure MapMessage where
  edges : List EdgeMessage
  windowSeconds : Nat
  deriving DecidableEq, Repr

structure FlowService where
  hub : Hub := {}
  capacity : Nat
  map : Option ServiceMap

namespace FlowService

/-- What a stream gives when it is asked for the next flow. -/
inductive StreamItem where
  | flow (message : FlowMessage)
  | pending
  | ended
  deriving DecidableEq, Repr

def streamOpened (id : SubscriptionId) : Signal :=
  .event .debug "flowscope::grpc::service" "grpc.get_flows.subscribed" "flow stream opened"
    [Hub.idDetail id, ("client.address", "None")]

/-- A stream is a subscription of the hub. -/
def openStream (s : FlowService) (namespaceName verdict : String) :
    Told (Except RequestError SubscriptionId × FlowService) :=
  if isVerdictRequest verdict then do
    let (id, hub) ← s.hub.subscribing (.ofTexts namespaceName verdict) s.capacity
    tell [streamOpened id]
    return (.ok id, { s with hub })
  else return (.error (.unknownVerdict verdict), s)

def next (s : FlowService) (id : SubscriptionId) : StreamItem × FlowService :=
  match s.hub.receive id with
  | (.event e, hub) => (.flow (.ofEvent e), { s with hub })
  | (.pending, hub) => (.pending, { s with hub })
  | (.ended, hub) => (.ended, { s with hub })

def record (s : FlowService) (e : FlowEvent) (now : Nat) : FlowService :=
  { s with map := s.map.map fun m => m.record e now }

/-- The window travels in whole seconds of 32 bits. -/
def mapReport (s : FlowService) (windowSeconds : UInt32) (now : Nat) :
    Except RequestError MapMessage :=
  match s.map with
  | none => .error .mapDisabled
  | some m =>
    let (edges, window) := m.query (some (.ofSeconds windowSeconds.toNat)) now
    .ok ⟨edges.map .ofEdge, min window.seconds (UInt32.size - 1)⟩

end FlowService
end FlowObserver
