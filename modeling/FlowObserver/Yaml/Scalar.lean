import FlowObserver.Json

/-!
# Plain scalars of YAML

An unquoted scalar denotes null, a truth value, an integer, a real number, or else itself as text.
Digits after a leading zero are text.
-/

namespace FlowObserver
namespace Yaml

def isNull (s : String) : Bool := ["null", "Null", "NULL", "~"].contains s

def bool? (s : String) : Option Bool :=
  if ["true", "True", "TRUE"].contains s then some true
  else if ["false", "False", "FALSE"].contains s then some false
  else none

/-- Digits in a base; none if there is no digit or another character. -/
def digits? (base : Nat) (cs : List Char) : Option Nat :=
  if cs.isEmpty then none
  else cs.foldlM (fun n c => do
    let d ← Bytes.hexValue? c
    guard (d < base)
    return n * base + d) 0

/-- Sign and magnitude; a second sign is refused. -/
def unsign (cs : List Char) : Bool × List Char :=
  match cs with
  | '-' :: rest => (true, rest)
  | '+' :: rest => (false, rest)
  | cs => (false, cs)

def zeroLed (s : String) : Bool :=
  match (unsign s.toList).2 with
  | '0' :: d :: rest => (d :: rest).all Char.isDigit
  | _ => false

/-- The number of 128-bit words. -/
abbrev wideLimit : Nat := UInt64.size * UInt64.size

/-- Integers of up to 128 bits, also hexadecimal, octal and binary ones. -/
def int? (s : String) : Option Int := do
  let (negative, cs) := unsign s.toList
  let n ← match cs with
    | '0' :: 'x' :: rest => digits? 16 rest
    | '0' :: 'o' :: rest => digits? 8 rest
    | '0' :: 'b' :: rest => digits? 2 rest
    | cs => if zeroLed s then none else digits? 10 cs
  guard (if negative then n ≤ wideLimit / 2 else n < wideLimit)
  return if negative then -n else n

/-- A decimal number `whole.fraction e exponent`. -/
structure DecimalText where
  digits : List Char
  /-- Power of ten that the digits are multiplied with. -/
  exponent : Int

def exponent? (cs : List Char) : Option Int :=
  match cs with
  | [] => some 0
  | e :: rest =>
    if e = 'e' || e = 'E' then
      let (negative, digits) := unsign rest
      (digits? 10 digits).map fun n => if negative then -(n : Int) else n
    else none

def decimal? (cs : List Char) : Option DecimalText := do
  let whole := cs.takeWhile Char.isDigit
  let rest := cs.drop whole.length
  let (fraction, rest) := match rest with
    | '.' :: more => (more.takeWhile Char.isDigit, more.dropWhile Char.isDigit)
    | rest => ([], rest)
  guard (!(whole ++ fraction).isEmpty)
  let exponent ← exponent? rest
  return ⟨whole ++ fraction, exponent - fraction.length⟩

/-- The nearest double, unless it is infinite. Powers of ten far outside the range of doubles are
not worked out. -/
def DecimalText.toFloat? (d : DecimalText) : Option Float :=
  let digits := d.digits.dropWhile (· = '0')
  let n := (digits? 10 digits).getD 0
  let magnitude := d.exponent + digits.length
  if n = 0 || magnitude < -400 then some 0
  else if 400 < magnitude then none
  else
    let x := Float.ofScientific n (d.exponent < 0) d.exponent.natAbs
    if x.isInf then none else some x

def real? (s : String) : Option Float :=
  let (negative, cs) := unsign s.toList
  let apply (x : Float) : Float := if negative then -x else x
  if [".inf", ".Inf", ".INF"].contains (String.ofList cs) then some (apply (1.0 / 0.0))
  else if [".nan", ".NaN", ".NAN"].contains s then some (0.0 / 0.0)
  else if zeroLed s then none
  else ((decimal? cs).bind DecimalText.toFloat?).map apply

def resolve (s : String) : Json :=
  if s = "" || isNull s then .null
  else
    match bool? s with
    | some b => .bool b
    | none =>
      match int? s with
      | some n => .int n
      | none =>
        match real? s with
        | some x => .real x
        | none => .str s

/-- Whether an unquoted scalar is read back as this text, and looks like no number. -/
def isUnambiguous (s : String) : Bool :=
  !zeroLed s && match resolve s with
    | .str _ => true
    | _ => false

end Yaml
end FlowObserver
