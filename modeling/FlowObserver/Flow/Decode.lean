import FlowObserver.Flow.Basic
import FlowObserver.Flow.WireRecord

/-!
# Decoding wire records

A record is refused when it is too short, and else only for a verdict byte that names no verdict.
Bytes past the fixed layout are ignored.
-/

namespace FlowObserver

inductive DecodeError where
  | truncated (length : Nat)
  | malformed (verdict : UInt8)
  deriving DecidableEq, Repr

namespace DecodeError

def reason : DecodeError → String
  | truncated _ => "truncated"
  | malformed _ => "malformed"

def message : DecodeError → String
  | truncated length => s!"record truncated: {length} bytes, expected {WireRecord.size}"
  | malformed verdict => s!"record malformed: unknown verdict byte {verdict.toNat}"

end DecodeError

namespace Flow

def numberAt (bytes : Bytes) (start width : Nat) : Nat :=
  Bytes.ofLittleEndian (bytes.field start width)

def decode (bytes : Bytes) : Except DecodeError Flow :=
  if bytes.length < WireRecord.size then .error (.truncated bytes.length)
  else
    match Verdict.ofByte? (bytes.getD 13 0) with
    | none => .error (.malformed (bytes.getD 13 0))
    | some verdict => .ok {
        tuple := {
          source := UInt32.ofNat (numberAt bytes 0 4)
          destination := UInt32.ofNat (numberAt bytes 4 4)
          sourcePort := UInt16.ofNat (numberAt bytes 8 2)
          destinationPort := UInt16.ofNat (numberAt bytes 10 2)
          protocol := bytes.getD 12 0 }
        verdict
        timestamp := UInt64.ofNat (numberAt bytes 16 8)
        tunneled := bytes.getD 14 0 &&& WireRecord.tunneledFlag != 0 }

def toRecord (f : Flow) : WireRecord where
  sourceAddress := f.tuple.source
  destinationAddress := f.tuple.destination
  sourcePort := f.tuple.sourcePort
  destinationPort := f.tuple.destinationPort
  protocol := f.tuple.protocol
  verdict := f.verdict.toByte
  flags := if f.tunneled then WireRecord.tunneledFlag else 0
  timestamp := f.timestamp

end Flow
end FlowObserver
