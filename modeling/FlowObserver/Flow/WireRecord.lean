import FlowObserver.Bytes

/-!
# The 24-byte flow record

One observed packet as the classifier hands it to the agent. Every integer is little-endian:

```text
 0        4        8     10    12  13  14  15  16               24
 +--------+--------+-----+-----+---+---+---+---+----------------+
 |src addr|dst addr|sport|dport|prt|vrd|flg| 0 |   timestamp    |
 +--------+--------+-----+-----+---+---+---+---+----------------+
```
-/

namespace FlowObserver

/-- Addresses are numeric (`10.0.0.5` is `0x0A000005`); the time is in nanoseconds since boot. -/
structure WireRecord where
  sourceAddress : UInt32 := 0
  destinationAddress : UInt32 := 0
  sourcePort : UInt16 := 0
  destinationPort : UInt16 := 0
  protocol : UInt8 := 0
  verdict : UInt8 := 0
  flags : UInt8 := 0
  /-- Aligns the time. It is not written out. -/
  padding : UInt8 := 0
  timestamp : UInt64 := 0
  deriving DecidableEq, Repr, Inhabited

namespace WireRecord

def size : Nat := 24

/-- Bit of `flags` that marks the inner flow of a tunnel. -/
def tunneledFlag : UInt8 := 1

def tunneled (r : WireRecord) : Bool := r.flags &&& tunneledFlag != 0

def toBytes (r : WireRecord) : Bytes :=
  Bytes.littleEndian 4 r.sourceAddress.toNat ++ Bytes.littleEndian 4 r.destinationAddress.toNat ++
  Bytes.littleEndian 2 r.sourcePort.toNat ++ Bytes.littleEndian 2 r.destinationPort.toNat ++
  [r.protocol, r.verdict, r.flags, 0] ++ Bytes.littleEndian 8 r.timestamp.toNat

@[simp] theorem length_toBytes (r : WireRecord) : r.toBytes.length = size := by
  simp [toBytes, size]

end WireRecord
end FlowObserver
