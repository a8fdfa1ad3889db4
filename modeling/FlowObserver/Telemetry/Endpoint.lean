import FlowObserver.Telemetry.Exposition

/-!
# The measurements over HTTP

One path shows the exposition; anything else is not found. A further family may have been
registered by somebody else, and may fail.
-/

namespace FlowObserver
namespace Exposition

/-- Something that is registered beside the agent's own measurements. -/
inductive Guest where
  | none
  | failing
  | family (name : String) (value : Float)

structure Response where
  status : Nat
  lines : List String

def guestBlock (name : String) (value : Float) : Block :=
  ⟨⟨name, .counter, ""⟩, [⟨[], Decimal.plain value⟩]⟩

def content (signals : List Signal) : Guest → Response
  | .none => ⟨200, render (blocks signals)⟩
  | .failing => ⟨500, ["Failed to gather metrics"]⟩
  | .family name value =>
    if name.isEmpty then ⟨500, ["Failed to encode metrics: Error: MetricFamily has no name"]⟩
    else ⟨200, render (guestBlock name value :: blocks signals)⟩

def pathOf (target : String) : String := (target.takeWhile (· ≠ '?')).toString

def respond (method target : String) (signals : List Signal) (guest : Guest) : Response :=
  if pathOf target ≠ "/metrics" then ⟨404, []⟩
  else
    match method with
    | "GET" => content signals guest
    | "HEAD" => { content signals guest with lines := [] }
    | _ => ⟨405, []⟩

end Exposition
end FlowObserver
