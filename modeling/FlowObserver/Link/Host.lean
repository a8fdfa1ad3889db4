import FlowObserver.Link.Netlink

/-!
# Links of the host

The host has no link but its loopback. Candidates for observation are found there, and a monitor
reports changes: those of the loopback, and those that others announce in messages.
-/

namespace FlowObserver

structure Host where
  loopbackUp : Bool := false
  deriving DecidableEq, Repr

namespace Host

def loopback (h : Host) : Link := ⟨1, "lo", none, h.loopbackUp⟩

def links (h : Host) : List Link := [h.loopback]

def say (severity : Severity) (name message : String) (details : List (String × String)) : Signal :=
  .event severity "flowscope::iface::discovery" name message details

/-- The links that the policy looks at: the one it names, or all. -/
def listed (h : Host) : AttachPolicy → Told (List Link)
  | .fixed interface => do
    match h.links.find? (·.name = interface) with
    | some link => return [link]
    | none =>
      tell [say .warn "iface.interface_missing" "configured interface does not exist"
        [("network.interface.name", interface)]]
      return []
  | .discover .. => do
    tell (h.links.map fun link => say .trace "iface.link_listed" "link listed"
      [("network.interface.name", link.name),
        ("network.interface.kind", Text.quotedOption link.kind)])
    return h.links

def candidates (h : Host) (policy : AttachPolicy) : Told (List Link) := do
  let selected := (← h.listed policy).filter policy.accepts
  tell [say .debug "iface.candidates_resolved" "resolved candidate interfaces"
    [("iface_count", toString selected.length),
      ("ifaces", Text.quotedList (selected.map (·.name)))]]
  return selected

end Host

structure LinkMonitor where
  host : Host := {}
  /-- Whether somebody still takes the changes. -/
  received : Bool := true
  /-- Whether the monitor still listens. -/
  running : Bool := true
  deriving DecidableEq, Repr

namespace LinkMonitor

/-- A message longer than this is cut off. -/
abbrev receiveLimit : Nat := 8192

def changes (buffer : Bytes) : List LinkChange :=
  ((Netlink.linkReader.split (buffer.take receiveLimit)).1).filterMap LinkChange.ofMessage?

def setLoopback (m : LinkMonitor) (up : Bool) : Option LinkChange × LinkMonitor :=
  if m.host.loopbackUp = up then (none, m)
  else
    let m := { m with host := ⟨up⟩ }
    (some (if up then .up m.host.loopback else .down m.host.loopback.name), m)

end LinkMonitor
end FlowObserver
