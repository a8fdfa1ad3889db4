/-!
# Shortest decimal text of a double

Of all decimals that read back as the same double, the one with the fewest digits is written, and of
those the nearest. The search runs over the decimal grids with 1, 2, …, 17 digits in exact integer
arithmetic; on each grid only the two neighbours of the value can lie in the interval of reals that
round to it.
-/

namespace FlowObserver
namespace Decimal

/-- The value `0.d₁d₂… · 10 ^ scale`, with no leading and no trailing zero among the digits. -/
structure Digits where
  digits : List Nat
  scale : Int
  deriving DecidableEq, Repr

def digitsOf (n : Nat) : List Nat :=
  (Nat.toDigits 10 n).map fun c => c.toNat - 48

def dropTrailingZeros (ds : List Nat) : List Nat :=
  (ds.reverse.dropWhile (· = 0)).reverse

/-- A positive finite double as `mantissa · 2 ^ exponent`. -/
structure Binary where
  mantissa : Nat
  exponent : Int
  narrowBelow : Bool

/-- The number of fractions, and the mantissa of a normal double without one. -/
abbrev fractionCount : Nat := 0x10000000000000

abbrev signBit : Nat := 0x8000000000000000

def Binary.ofBits (bits : Nat) : Binary :=
  let fraction : Nat := bits % fractionCount
  let biased : Nat := bits / fractionCount % 2048
  if biased = 0 then ⟨fraction, -1074, false⟩
  else ⟨fraction + fractionCount, (biased : Int) - 1075, fraction = 0 ∧ 1 < biased⟩

/-- Four times the value and the ends of its rounding interval, over a common denominator. -/
structure Interval where
  low : Nat
  value : Nat
  high : Nat
  denominator : Nat
  closed : Bool

def Binary.interval (b : Binary) : Interval :=
  let up := Nat.pow 2 b.exponent.toNat
  let down := Nat.pow 2 (-b.exponent).toNat
  { low := (4 * b.mantissa - if b.narrowBelow then 1 else 2) * up
    value := 4 * b.mantissa * up
    high := (4 * b.mantissa + 2) * up
    denominator := 4 * down
    closed := b.mantissa % 2 = 0 }

/-- The `scale` for which the value lies in `[10 ^ (scale - 1), 10 ^ scale)`. -/
def Interval.scale (i : Interval) : Int :=
  let whole := i.value / i.denominator
  if whole ≠ 0 then (digitsOf whole).length
  else
    let rec leadingZeros : Nat → Nat → Nat → Int
      | 0, zeros, _ => -(zeros : Int)
      | fuel + 1, zeros, v =>
        if i.denominator ≤ v * 10 then -(zeros : Int) else leadingZeros fuel (zeros + 1) (v * 10)
    leadingZeros 400 0 i.value

/-- The value of `n` units of `10 ^ place`, over the interval's denominator times `10 ^ (-place)`. -/
def Interval.onGrid? (i : Interval) (place : Int) : Option Nat :=
  let unit := i.denominator * Nat.pow 10 place.toNat
  let stretch := Nat.pow 10 (-place).toNat
  let inside (n : Nat) : Bool :=
    if i.closed then i.low * stretch ≤ n * unit && n * unit ≤ i.high * stretch
    else i.low * stretch < n * unit && n * unit < i.high * stretch
  let below := i.value * stretch / unit
  let toBelow := i.value * stretch - below * unit
  let toAbove := (below + 1) * unit - i.value * stretch
  match inside below && below ≠ 0, inside (below + 1) with
  | true, true => some (if toBelow ≤ toAbove then below else below + 1)
  | true, false => some below
  | false, true => some (below + 1)
  | false, false => none

def Interval.shortest (i : Interval) : Digits :=
  let scale := i.scale
  let rec search : Nat → Nat → Digits
    | 0, _ => ⟨[], scale⟩
    | fuel + 1, count =>
      match i.onGrid? (scale - count) with
      | some n =>
        let ds := digitsOf n
        ⟨dropTrailingZeros ds, scale - count + ds.length⟩
      | none => search fuel (count + 1)
  search 17 1

def shortest (x : Float) : Digits := (Binary.ofBits x.toBits.toNat).interval.shortest

def digitText (ds : List Nat) : String :=
  String.ofList (ds.map fun d => Char.ofNat (48 + d))

def zeros (n : Nat) : String := String.ofList (List.replicate n '0')

/-- Positional notation, never an exponent; a whole number has no point. -/
def Digits.positional (d : Digits) : String :=
  let count : Int := d.digits.length
  if d.scale ≤ 0 then "0." ++ zeros (-d.scale).toNat ++ digitText d.digits
  else if count ≤ d.scale then digitText d.digits ++ zeros (d.scale - count).toNat
  else digitText (d.digits.take d.scale.toNat) ++ "." ++ digitText (d.digits.drop d.scale.toNat)

/-- One digit before the point, and an exponent with its sign. -/
def Digits.scientific (d : Digits) : String :=
  let power := d.scale - 1
  let fraction := d.digits.drop 1
  digitText (d.digits.take 1) ++ (if fraction.isEmpty then "" else "." ++ digitText fraction) ++
    (if power < 0 then "e-" else "e+") ++ toString power.natAbs

/-- Positional from a hundred-thousandth up to ten to the sixteenth, and always with a fraction;
scientific elsewhere. -/
def Digits.pointed (d : Digits) : String :=
  if d.scale ≤ -5 ∨ 16 < d.scale then d.scientific
  else d.positional ++ if d.digits.length ≤ d.scale then ".0" else ""

/-- A double in a notation for the positive finite ones, with the text of zero. -/
def written (zero : String) (form : Digits → String) (x : Float) : String :=
  if x.isNaN then "NaN"
  else
    let sign := if signBit ≤ x.toBits.toNat then "-" else ""
    if x.isInf then sign ++ "inf"
    else if x == 0 then sign ++ zero
    else sign ++ form (shortest x)

/-- A double as measurements are written: `1.5`, `1`, `NaN`, `inf`. -/
def plain : Float → String := written "0" Digits.positional

/-- A double as documents hold it: `1.5`, `1.0`, `1e+16`. -/
def withPoint : Float → String := written "0.0" Digits.pointed

end Decimal
end FlowObserver
