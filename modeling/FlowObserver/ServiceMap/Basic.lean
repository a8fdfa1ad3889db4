import FlowObserver.ServiceMap.Buckets

/-!
# The service map

Edge counts on a clock that starts with the map. Times are virtual: nanoseconds since then.
-/

namespace FlowObserver

structure ServiceMapSettings where
  enabled : Bool := true
  defaultWindow : Duration := .ofSeconds 60
  /-- How much history is kept, and the longest window. -/
  retention : Duration := .ofSeconds 900
  deriving DecidableEq, Repr

structure ServiceMap where
  settings : ServiceMapSettings
  buckets : ServiceMap.Buckets

namespace ServiceMap

def ofSettings (settings : ServiceMapSettings) : ServiceMap :=
  ⟨settings, .ofRetention settings.retention⟩

def secondOf (nanos : Nat) : Nat := nanos / nanosPerSecond

def record (m : ServiceMap) (e : FlowEvent) (now : Nat) : ServiceMap :=
  { m with buckets := m.buckets.record e (secondOf now) }

/-- No window, or an empty one, asks for the default; the answer lies between one second and the
retention. -/
def effectiveWindow (settings : ServiceMapSettings) (requested : Option Duration) : Duration :=
  let asked := match requested with
    | some w => if w.nanos = 0 then settings.defaultWindow else w
    | none => settings.defaultWindow
  let second := Duration.ofSeconds 1
  min (max asked second) (max settings.retention second)

/-- The edges of the window, and the window that was applied. -/
def query (m : ServiceMap) (requested : Option Duration) (now : Nat) : List Edge × Duration :=
  let window := effectiveWindow m.settings requested
  (m.buckets.edges window.seconds (secondOf now), window)

end ServiceMap
end FlowObserver
