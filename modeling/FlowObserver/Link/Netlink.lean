import FlowObserver.Link.Policy
import FlowObserver.Telemetry.Told

/-!
# Netlink messages

A buffer holds messages one after the other, each with a header of 16 bytes and padded to a
multiple of four. Splitting a buffer stops at the first message that is cut off or malformed; it is
the same whatever reads the single messages. Of a link message the name, the kind and the state are
kept:

```text
 0      4     6     8       12      16
 +------+-----+-----+-------+-------+---------
 |length|type |flags|number | port  | payload
 +------+-----+-----+-------+-------+---------
```
-/

namespace FlowObserver
namespace Netlink

def numberAt (bytes : Bytes) (start width : Nat) : Nat :=
  Bytes.ofLittleEndian (bytes.field start width)

def padded (length : Nat) : Nat := (length + 3) / 4 * 4

/-- What reads the message at the front of some bytes. -/
structure Reader (M : Type) where
  /-- The length that the header gives; none if the message is cut off. -/
  length? : Bytes → Option Nat
  read : Bytes → Except String M

namespace Reader

variable {M : Type} (r : Reader M)

/-- The message at the front of a buffer with its length, or what is said about its absence: one
that is cut off is passed over in silence. -/
def front (buffer : Bytes) : Except (Option String) (M × Nat) :=
  match r.length? buffer with
  | none => .error none
  | some length =>
    match r.read buffer with
    | .error reason => .error (some reason)
    | .ok m => .ok (m, length)

/-- The messages of a buffer, and what is said about a stop before its end. -/
def split (buffer : Bytes) : List M × Option String :=
  if buffer.isEmpty then ([], none)
  else
    match r.front buffer with
    | .error reason => ([], reason)
    | .ok (m, length) =>
      if length = 0 then ([m], none)
      else
        let (rest, reason) := split (buffer.drop (padded length))
        (m :: rest, reason)
termination_by buffer.length
decreasing_by
  simp only [List.length_drop, padded]
  have : buffer.length ≠ 0 := by simp_all
  omega

def splitting (buffer : Bytes) : Told (List M) := do
  let (messages, reason) := r.split buffer
  tell (reason.toList.map fun reason =>
    .event .warn "flowscope::iface::discovery" "iface.netlink_parse_failed"
      "failed to parse netlink message" [("error.message", reason)])
  return messages

end Reader

structure Attribute where
  kind : Nat
  value : Bytes
  deriving DecidableEq, Repr

/-- The attribute at the front of `bytes`, with its length. Two bits of the kind are flags. -/
def attribute? (bytes : Bytes) : Option (Attribute × Nat) :=
  let length := numberAt bytes 0 2
  if bytes.length < 4 || bytes.length < length || length < 4 then none
  else some (⟨numberAt bytes 2 2 % 0x4000, bytes.field 4 (length - 4)⟩, length)

/-- All attributes; none if one of them is cut off. -/
def attributes? (bytes : Bytes) : Option (List Attribute) :=
  if bytes.isEmpty then some []
  else
    match _first : attribute? bytes with
    | none => none
    | some (a, length) => (attributes? (bytes.drop (max 4 (padded length)))).map (a :: ·)
termination_by bytes.length
decreasing_by
  simp only [List.length_drop]
  have : bytes.length ≠ 0 := by simp_all
  omega

def text? (value : Bytes) : Option String :=
  let content := if value.getLast? = some 0 then value.dropLast else value
  String.fromUTF8? ⟨content.toArray⟩

def renamedKinds : List (String × String) :=
  [("ipip", "iptun"), ("sit", "sittun"), ("gre", "gretun"), ("ip6gre", "gretun6"),
   ("ip6gretap", "gretap6")]

def kindName (kernelName : String) : String := (renamedKinds.lookup kernelName).getD kernelName

/-- Kinds whose details are a list of attributes. -/
def detailedKinds : List String :=
  ["bridge", "tun", "vlan", "vxlan", "bond", "ipvlan", "ipvtap", "macvlan", "macvtap", "ipip", "sit",
   "vrf", "xfrm", "macsec", "hsr", "geneve"]

def acceptsDetails (kind : String) (value : Bytes) : Bool :=
  if kind = "veth" then (attribute? value).isSome
  else if detailedKinds.contains kind then (attributes? value).isSome
  else true

/-- The first kind among the details of a link; details need a kind before them that they belong
to. -/
def kind? (details : List Attribute) : Option (Option String) :=
  let rec go (pending : Option String) : List Attribute → Option (Option String)
    | [] => some none
    | a :: rest =>
      match a.kind with
      | 1 => do
        let kind ← text? a.value
        let _ ← go (some kind) rest
        return some (kindName kind)
      | 2 => do
        let kind ← pending
        guard (acceptsDetails kind a.value)
        go none rest
      | 3 => do
        guard pending.isSome
        go pending rest
      | 5 => none
      | _ => go pending rest
  go none details

structure LinkReport where
  index : UInt32 := 0
  name : Option String := none
  kind : Option String := none
  up : Bool := false
  deriving DecidableEq, Repr

/-- Attributes that hold a number, with its size. -/
def numberSizes : List (Nat × Nat) :=
  [(4, 4), (5, 4), (10, 4), (13, 4), (16, 1), (17, 1), (19, 4), (21, 4), (27, 4), (28, 4), (29, 4),
   (30, 4), (31, 4), (32, 4), (33, 1), (35, 4), (37, 4), (39, 1), (40, 4), (41, 4), (50, 4), (51, 4)]

/-- Takes an attribute into the report; none if it is malformed. Later attributes win. -/
def LinkReport.take (r : LinkReport) (a : Attribute) : Option LinkReport :=
  match a.kind with
  | 3 => do
    let name ← text? a.value
    return { r with name := some name }
  | 6 => (text? a.value).map fun _ => r
  | 18 => do
    let _ ← attribute? a.value
    let kind ← kind? (← attributes? a.value)
    return { r with kind }
  | kind =>
    match numberSizes.lookup kind with
    | some size => if a.value.length = size then some r else none
    | none => some r

abbrev linkHeaderSize : Nat := 16

def LinkReport.parse? (payload : Bytes) : Option LinkReport := do
  guard (linkHeaderSize ≤ payload.length)
  let start : LinkReport := {
    index := UInt32.ofNat (numberAt payload 4 4)
    up := numberAt payload 8 4 % 2 = 1 }
  (← attributes? (payload.drop linkHeaderSize)).foldlM LinkReport.take start

/-- A link without a name is no link that could be observed. -/
def LinkReport.link? (r : LinkReport) : Option Link :=
  r.name.map fun name => ⟨r.index, name, r.kind, r.up⟩

inductive Message where
  | done
  | error
  | noop
  | overrun
  | newLink (r : LinkReport)
  | deleteLink (r : LinkReport)
  | getLink (r : LinkReport)
  | setLink (r : LinkReport)
  | other
  deriving DecidableEq, Repr

/-- Message types about other things, with the size of their headers. -/
def otherHeaderSizes : List (Nat × Nat) :=
  [(20, 8), (21, 8), (22, 8), (24, 12), (25, 12), (26, 12), (28, 12), (29, 12), (30, 12), (32, 12),
   (33, 12), (34, 12), (36, 20), (37, 20), (38, 20), (40, 20), (41, 20), (42, 20), (44, 20),
   (45, 20), (46, 20), (52, 12), (64, 4), (66, 4), (67, 4), (88, 4), (89, 4), (90, 4), (100, 20),
   (101, 20), (102, 20)]

inductive Fault where
  /-- The header is cut off, or its length is wrong. -/
  | cutOff
  | badError
  | badDone
  | badPayload (type : Nat)
  deriving DecidableEq, Repr

/-- A request for all links may be cut down to four bytes. -/
def linkMessage (type : Nat) (payload : Bytes) : Option Message :=
  if type = 18 && payload.length = 4 then some (.getLink {})
  else (LinkReport.parse? payload).bind fun r =>
    match type with
    | 16 => some (.newLink r)
    | 17 => some (.deleteLink r)
    | 18 => some (.getLink r)
    | 19 => some (.setLink r)
    | _ => none

def otherMessage (type : Nat) (payload : Bytes) : Option Message := do
  let size ← otherHeaderSizes.lookup type
  guard (size ≤ payload.length)
  let _ ← attributes? (payload.drop size)
  return .other

def ofPayload (type : Nat) (payload : Bytes) : Except Fault Message :=
  match type with
  | 1 => .ok .noop
  | 2 => if payload.length < 4 then .error .badError else .ok .error
  | 3 => if payload.length < 4 then .error .badDone else .ok .done
  | 4 => .ok .overrun
  | type =>
    match linkMessage type payload <|> otherMessage type payload with
    | some m => .ok m
    | none => .error (.badPayload type)

abbrev headerSize : Nat := 16

def length? (buffer : Bytes) : Option Nat :=
  let length := numberAt buffer 0 4
  if buffer.length < headerSize || buffer.length < length || length < headerSize then none
  else some length

def message (buffer : Bytes) : Except Fault Message :=
  match length? buffer with
  | none => .error .cutOff
  | some length => ofPayload (numberAt buffer 4 2) (buffer.field headerSize (length - headerSize))

def Fault.reason : Fault → String
  | cutOff => "invalid netlink buffer"
  | badError => "failed to parse NLMSG_ERROR"
  | badDone => "failed to parse NLMSG_DONE"
  | badPayload type => s!"Failed to parse message with type {type}"

def linkReader : Reader Message where
  length? := length?
  read buffer := (message buffer).mapError fun fault => "Decode error occurred: " ++ fault.reason

end Netlink

/-- What a message means for the links that are observed. -/
inductive LinkChange where
  | up (link : Link)
  /-- The link was taken down or is gone. -/
  | down (name : String)
  deriving DecidableEq, Repr

namespace LinkChange

def interface : LinkChange → String
  | up link => link.name
  | down name => name

def ofMessage? : Netlink.Message → Option LinkChange
  | .newLink r | .setLink r =>
    r.link?.map fun link => if link.up then .up link else .down link.name
  | .deleteLink r => r.link?.map fun link => .down link.name
  | _ => none

end LinkChange
end FlowObserver
