import FlowObserver.Text.Quoted

/-!
# Internet addresses

IPv4 and IPv6 addresses with their text forms. An IPv6 address is written with its longest run of
at least two zero groups left out, the first such run if several are equally long; an IPv4-mapped
one keeps its dotted tail.
-/

namespace FlowObserver
namespace Net

inductive Address where
  | v4 (value : UInt32)
  | v6 (value : BitVec 128)
  deriving DecidableEq, Repr, Inhabited

def dotted (value : UInt32) : String :=
  let n := value.toNat
  s!"{n / 0x1000000}.{n / 0x10000 % 256}.{n / 256 % 256}.{n % 256}"

def groups (value : BitVec 128) : List Nat :=
  [7, 6, 5, 4, 3, 2, 1, 0].map fun i => (value.toNat >>> (16 * i)) % 0x10000

def ofGroups (gs : List Nat) : BitVec 128 :=
  BitVec.ofNat 128 (gs.foldl (fun n g => n * 0x10000 + g) 0)

/-- Start and length of the first longest run of zeros. -/
def longestZeroRun (gs : List Nat) : Nat × Nat :=
  (List.range gs.length).foldl (fun best start =>
    let length := ((gs.drop start).takeWhile (· = 0)).length
    if best.2 < length then (start, length) else best) (0, 0)

def groupText (gs : List Nat) : String :=
  ":".intercalate (gs.map fun g => String.ofList (Text.hexDigits g))

def v6Text (value : BitVec 128) : String :=
  let gs := groups value
  if gs.take 6 = [0, 0, 0, 0, 0, 0xFFFF] then "::ffff:" ++ dotted (UInt32.ofNat value.toNat)
  else
    let (start, length) := longestZeroRun gs
    if 1 < length then groupText (gs.take start) ++ "::" ++ groupText (gs.drop (start + length))
    else groupText gs

namespace Address

protected def toString : Address → String
  | v4 value => dotted value
  | v6 value => v6Text value

/-- IPv4 addresses come first; within a family the order is numeric. -/
def before : Address → Address → Bool
  | v4 a, v4 b => a ≤ b
  | v4 _, v6 _ => true
  | v6 _, v4 _ => false
  | v6 a, v6 b => a ≤ b

end Address

/-- A number of at most `maxDigits` digits, at least one. -/
def number? (base maxDigits : Nat) (cs : List Char) : Option (List Char × Nat × List Char) :=
  let isDigit (c : Char) : Bool :=
    match Bytes.hexValue? c with
    | some d => d < base
    | none => false
  let digits := cs.takeWhile isDigit
  if digits.isEmpty || maxDigits < digits.length then none
  else
    let value := digits.foldl (fun n c => n * base + (Bytes.hexValue? c).getD 0) 0
    some (digits, value, cs.drop digits.length)

def octet? (cs : List Char) : Option (Nat × List Char) := do
  let (digits, value, rest) ← number? 10 3 cs
  guard (value ≤ 255 ∧ ¬(digits.head? = some '0' ∧ 1 < digits.length))
  return (value, rest)

def expect? (c : Char) : List Char → Option (List Char)
  | d :: rest => if c = d then some rest else none
  | [] => none

def v4? (cs : List Char) : Option (UInt32 × List Char) := do
  let (a, rest) ← octet? cs
  let (b, rest) ← octet? (← expect? '.' rest)
  let (c, rest) ← octet? (← expect? '.' rest)
  let (d, rest) ← octet? (← expect? '.' rest)
  return (UInt32.ofNat (((a * 256 + b) * 256 + c) * 256 + d), rest)

/-- Groups separated by colons, at most `limit`, of which the last two may be a dotted quad. -/
def groupRun (limit : Nat) (first : Bool) (cs : List Char) : List Nat × Bool × List Char :=
  match limit with
  | 0 => ([], false, cs)
  | more + 1 =>
    let after := if first then some cs else expect? ':' cs
    match after with
    | none => ([], false, cs)
    | some rest =>
      match if 0 < more then v4? rest else none with
      | some (quad, rest) => ([quad.toNat / 0x10000, quad.toNat % 0x10000], true, rest)
      | none =>
        match number? 16 4 rest with
        | some (_, g, rest) =>
          let (gs, dottedTail, rest) := groupRun more false rest
          (g :: gs, dottedTail, rest)
        | none => ([], false, cs)

def v6? (cs : List Char) : Option (BitVec 128 × List Char) :=
  let (head, dottedHead, rest) := groupRun 8 true cs
  if head.length = 8 then some (ofGroups head, rest)
  else if dottedHead then none
  else do
    let rest ← expect? ':' rest
    let rest ← expect? ':' rest
    let (tail, _, rest) := groupRun (7 - head.length) true rest
    return (ofGroups (head ++ List.replicate (8 - head.length - tail.length) 0 ++ tail), rest)

namespace Address

def read? (cs : List Char) : Option (Address × List Char) :=
  match v4? cs with
  | some (value, rest) => some (v4 value, rest)
  | none => (v6? cs).map fun (value, rest) => (v6 value, rest)

def parse? (text : String) : Option Address :=
  match read? text.toList with
  | some (address, []) => some address
  | _ => none

end Address

/-- Why a text is no address. -/
def addressSyntaxMessage : String := "invalid IP address syntax"

structure Endpoint where
  address : Address
  port : UInt16
  deriving DecidableEq, Repr

protected def Endpoint.toString (e : Endpoint) : String :=
  match e.address with
  | .v4 value => s!"{dotted value}:{e.port.toNat}"
  | .v6 value => s!"[{v6Text value}]:{e.port.toNat}"

end Net
end FlowObserver
