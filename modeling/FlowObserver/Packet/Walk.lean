import FlowObserver.Packet.Header
import FlowObserver.Flow.WireRecord

/-!
# Walking the headers of a packet

A walk reads one header per step: Ethernet, IPv4, then TCP or UDP, and at most one VXLAN header
that restarts it at the inner frame. A step either fails, and then there is no new state, or moves
on. `classify` runs a walk to its end and reports a record only for a packet whose headers are all
complete.
-/

namespace FlowObserver
namespace Packet

inductive Layer where
  | ethernet | ipv4 | tcp | udp | vxlan
  | complete
  /-- A frame that carries no IPv4 packet. -/
  | unsupported
  deriving DecidableEq, Repr

structure Walk where
  offset : UInt64 := 0
  next : Layer := .ethernet
  /-- Set by the first VXLAN header; a second one is not entered. -/
  tunneled : Bool := false
  record : WireRecord := {}

namespace Walk

def skip (w : Walk) (size : Nat) : UInt64 := w.offset + UInt64.ofNat size

/-- Only an IPv4 payload is followed. -/
def ethernet (packet : Bytes) (w : Walk) : Option Walk :=
  (Ethernet.read? packet w.offset).map fun h =>
    { w with
      offset := w.skip Ethernet.size
      next := if h.etherType = .ipv4 then .ipv4 else .unsupported }

/-- The innermost addresses win, so addresses, protocol and ports are overwritten. A fragment other
than the first carries no transport header. -/
def ipv4 (packet : Bytes) (w : Walk) : Option Walk := do
  let h ← Ipv4.read? packet w.offset
  guard (h.version = 4 ∧ Ipv4.size ≤ h.headerLength)
  return { w with
    offset := w.skip h.headerLength
    record := { w.record with
      sourceAddress := h.source
      destinationAddress := h.destination
      protocol := h.protocol
      sourcePort := 0
      destinationPort := 0 }
    next :=
      if h.fragmentOffset ≠ 0 then .complete
      else if h.protocol = tcpProtocol then .tcp
      else if h.protocol = udpProtocol then .udp
      else .complete }

def withPorts (w : Walk) (source destination : UInt16) : WireRecord :=
  { w.record with sourcePort := source, destinationPort := destination }

def tcp (packet : Bytes) (w : Walk) : Option Walk :=
  (Tcp.read? packet w.offset).map fun h =>
    { w with
      offset := w.skip Tcp.size
      record := w.withPorts h.sourcePort h.destinationPort
      next := .complete }

def udp (packet : Bytes) (w : Walk) : Option Walk :=
  (Udp.read? packet w.offset).map fun h =>
    { w with
      offset := w.skip Udp.size
      record := w.withPorts h.sourcePort h.destinationPort
      next := if h.destinationPort = vxlanPort && !w.tunneled then .vxlan else .complete }

/-- An incomplete header, or one without the I flag, is no tunnel: the outer flow stands. Otherwise
the record starts afresh with the inner frame. -/
def vxlan (packet : Bytes) (w : Walk) : Option Walk :=
  match Vxlan.read? packet w.offset with
  | some h =>
    if h.hasNetworkId then
      some { offset := w.skip Vxlan.size, next := .ethernet, tunneled := true, record := {} }
    else some { w with next := .complete }
  | none => some { w with next := .complete }

def ended (w : Walk) : Bool := w.next = .complete || w.next = .unsupported

/-- Reads the header that the walk stands at; an ended walk stays where it is. -/
def step (packet : Bytes) (w : Walk) : Option Walk :=
  match w.next with
  | .ethernet => w.ethernet packet
  | .ipv4 => w.ipv4 packet
  | .tcp => w.tcp packet
  | .udp => w.udp packet
  | .vxlan => w.vxlan packet
  | .complete | .unsupported => some w

def run (packet : Bytes) : (steps : Nat) → Walk → Option Walk
  | 0, w => some w
  | steps + 1, w => if w.ended then some w else (w.step packet).bind (run packet steps)

end Walk

abbrev forwardVerdict : UInt8 := 1

/-- The longest walk is Ethernet, IPv4, UDP, VXLAN, Ethernet, IPv4, TCP. -/
def maxSteps : Nat := 8

/-- The flow record of a packet; none for a packet that is not IPv4, is cut short or malformed in a
header, or has a zero address. -/
def classify (packet : Bytes) (timestamp : UInt64) : Option WireRecord := do
  let w ← Walk.run packet maxSteps {}
  guard (w.next = .complete ∧ w.record.sourceAddress ≠ 0 ∧ w.record.destinationAddress ≠ 0)
  return { w.record with
    verdict := forwardVerdict
    flags := if w.tunneled then w.record.flags ||| WireRecord.tunneledFlag else w.record.flags
    timestamp }

end Packet
end FlowObserver
