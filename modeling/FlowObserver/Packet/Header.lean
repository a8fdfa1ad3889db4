import FlowObserver.Bytes

/-!
# Packet headers

Each reader takes a packet and an offset and succeeds exactly when the fixed part of the header
lies wholly inside the packet. Fields are in network byte order on the wire and numeric here:
`10.0.0.5` is `0x0A000005`.
-/

namespace FlowObserver
namespace Packet

abbrev tcpProtocol : UInt8 := 6
abbrev udpProtocol : UInt8 := 17
abbrev vxlanPort : UInt16 := 4789

/-- Whether `size` bytes lie at `offset`. The sum is taken without wrapping, so no offset is so
large that it seems to fit. -/
def fits (packet : Bytes) (offset : UInt64) (size : Nat) : Prop :=
  offset.toNat + size ≤ packet.length

instance (packet : Bytes) (offset : UInt64) (size : Nat) : Decidable (fits packet offset size) :=
  inferInstanceAs (Decidable (_ ≤ _))

def byteAt (packet : Bytes) (i : Nat) : UInt8 := packet.getD i 0

def wordAt (packet : Bytes) (i : Nat) : UInt16 := UInt16.ofNat (Bytes.ofBigEndian (packet.field i 2))

def addressAt (packet : Bytes) (i : Nat) : UInt32 :=
  UInt32.ofNat (Bytes.ofBigEndian (packet.field i 4))

inductive EtherType where
  | ipv4 | arp | vlan | ipv6
  | other (value : UInt16)
  deriving DecidableEq, Repr

namespace EtherType

def ofWord (value : UInt16) : EtherType :=
  if value = 0x0800 then ipv4
  else if value = 0x0806 then arp
  else if value = 0x8100 then vlan
  else if value = 0x86DD then ipv6
  else other value

def toWord : EtherType → UInt16
  | ipv4 => 0x0800
  | arp => 0x0806
  | vlan => 0x8100
  | ipv6 => 0x86DD
  | other value => value

theorem toWord_ofWord (value : UInt16) : (ofWord value).toWord = value := by
  unfold ofWord
  split
  · simp_all [toWord]
  split
  · simp_all [toWord]
  split
  · simp_all [toWord]
  split <;> simp_all [toWord]

end EtherType

structure Ethernet where
  destination : Bytes
  source : Bytes
  etherType : EtherType

namespace Ethernet

def size : Nat := 14

def read? (packet : Bytes) (offset : UInt64) : Option Ethernet :=
  if fits packet offset size then
    let i := offset.toNat
    some ⟨packet.field i 6, packet.field (i + 6) 6, .ofWord (wordAt packet (i + 12))⟩
  else none

end Ethernet

structure Ipv4 where
  versionAndLength : UInt8
  typeOfService : UInt8
  fragment : UInt16
  timeToLive : UInt8
  protocol : UInt8
  source : UInt32
  destination : UInt32

namespace Ipv4

def size : Nat := 20

def read? (packet : Bytes) (offset : UInt64) : Option Ipv4 :=
  if fits packet offset size then
    let i := offset.toNat
    some {
      versionAndLength := byteAt packet i
      typeOfService := byteAt packet (i + 1)
      fragment := wordAt packet (i + 6)
      timeToLive := byteAt packet (i + 8)
      protocol := byteAt packet (i + 9)
      source := addressAt packet (i + 12)
      destination := addressAt packet (i + 16) }
  else none

def version (h : Ipv4) : Nat := h.versionAndLength.toNat / 16

/-- Length of the whole header with its options, in bytes. -/
def headerLength (h : Ipv4) : Nat := h.versionAndLength.toNat % 16 * 4

/-- In units of eight bytes; nonzero for every fragment but the first. -/
def fragmentOffset (h : Ipv4) : Nat := h.fragment.toNat % 8192

end Ipv4

structure Tcp where
  sourcePort : UInt16
  destinationPort : UInt16

namespace Tcp

def size : Nat := 20

def read? (packet : Bytes) (offset : UInt64) : Option Tcp :=
  if fits packet offset size then
    some ⟨wordAt packet offset.toNat, wordAt packet (offset.toNat + 2)⟩
  else none

end Tcp

structure Udp where
  sourcePort : UInt16
  destinationPort : UInt16
  /-- Header and payload together, as the sender states it. -/
  length : UInt16

namespace Udp

def size : Nat := 8

def read? (packet : Bytes) (offset : UInt64) : Option Udp :=
  if fits packet offset size then
    let i := offset.toNat
    some ⟨wordAt packet i, wordAt packet (i + 2), wordAt packet (i + 4)⟩
  else none

end Udp

structure Vxlan where
  flags : UInt8
  networkId : UInt32

namespace Vxlan

def size : Nat := 8

def read? (packet : Bytes) (offset : UInt64) : Option Vxlan :=
  if fits packet offset size then
    let i := offset.toNat
    some ⟨byteAt packet i, UInt32.ofNat (Bytes.ofBigEndian (packet.field (i + 4) 3))⟩
  else none

/-- The I flag: without it the bytes are not a VXLAN header. -/
def hasNetworkId (h : Vxlan) : Bool := h.flags &&& 0x08 != 0

end Vxlan

end Packet
end FlowObserver
