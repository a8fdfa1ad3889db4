import FlowObserver.Text.Blank
import FlowObserver.Text.Quoted
import FlowObserver.Time.Duration

/-!
# Durations as people write them

A duration is written as a sum of units, the largest first: `1h 30m`, `1day 2ms`. A month is 30.44
days and a year 365.25 days. The reader takes more than the writer gives: several spellings of each
unit, fractions, and blanks almost anywhere.
-/

namespace FlowObserver
namespace Duration

structure TimeUnit where
  names : List String
  nanos : Nat

abbrev nanosPerMinute : Nat := 60 * nanosPerSecond
abbrev nanosPerHour : Nat := 3600 * nanosPerSecond
abbrev nanosPerDay : Nat := 86400 * nanosPerSecond
abbrev nanosPerMonth : Nat := 2630016 * nanosPerSecond
abbrev nanosPerYear : Nat := 31557600 * nanosPerSecond

def timeUnits : List TimeUnit :=
  [⟨["nanos", "nsec", "ns"], 1⟩,
   ⟨["usec", "us", "µs"], 1000⟩,
   ⟨["millis", "msec", "ms"], 1000000⟩,
   ⟨["seconds", "second", "secs", "sec", "s"], nanosPerSecond⟩,
   ⟨["minutes", "minute", "min", "mins", "m"], nanosPerMinute⟩,
   ⟨["hours", "hour", "hrs", "hr", "h"], nanosPerHour⟩,
   ⟨["days", "day", "d"], nanosPerDay⟩,
   ⟨["weeks", "week", "wks", "wk", "w"], 7 * nanosPerDay⟩,
   ⟨["months", "month", "M"], nanosPerMonth⟩,
   ⟨["years", "year", "yrs", "yr", "y"], nanosPerYear⟩]

def timeUnit? (name : String) : Option TimeUnit := timeUnits.find? (·.names.contains name)

def item (unit : String) (n : Nat) : List String :=
  if n = 0 then [] else [toString n ++ unit]

/-- Years, months and days are written out, with an `s` from two on. -/
def longItem (unit : String) (n : Nat) : List String :=
  item (if 1 < n then unit ++ "s" else unit) n

def humanItems (d : Duration) : List String :=
  let inYear := d.seconds % 31557600
  let inMonth := inYear % 2630016
  let inDay := inMonth % 86400
  longItem "year" (d.seconds / 31557600) ++ longItem "month" (inYear / 2630016) ++
  longItem "day" (inMonth / 86400) ++ item "h" (inDay / 3600) ++ item "m" (inDay % 3600 / 60) ++
  item "s" (inDay % 60) ++ item "ms" (d.subsecond / 1000000) ++
  item "us" (d.subsecond / 1000 % 1000) ++ item "ns" (d.subsecond % 1000)

def toHuman (d : Duration) : String :=
  if d.nanos = 0 then "0s" else " ".intercalate d.humanItems

inductive HumanError where
  /-- Positions count bytes. -/
  | invalidCharacter (position : Nat)
  | numberExpected (position : Nat)
  | unitMissing (number : Nat)
  | unknownUnit (name : String)
  | overflow
  | empty
  deriving DecidableEq, Repr

def HumanError.message : HumanError → String
  | invalidCharacter position => s!"invalid character at {position}"
  | numberExpected position => s!"expected number at {position}"
  | unitMissing n => s!"time unit needed, for example {n}sec or {n}ms"
  | unknownUnit name => "unknown time unit " ++ Text.quoted name ++ ", supported units: " ++
      "ns, us/µs, ms, sec, min, hours, days, weeks, months, years (and few variations)"
  | overflow => "number is too large or cannot be represented without a lack of precision " ++
      "(values below 1ns are not supported)"
  | empty => "value was empty"

/-- A decimal fraction `numerator / denominator` below one. -/
structure Fraction where
  numerator : Nat
  denominator : Nat

abbrev wordLimit : Nat := UInt64.size

/-- A product or sum that has to fit 64 bits. -/
def word (n : Nat) : Except HumanError Nat := if n < wordLimit then .ok n else .error .overflow

def digitValue (c : Char) : Nat := c.toNat - 48

def isUnitLetter (c : Char) : Bool := c.isAlpha || c = 'µ'

/-- Bytes from the start of a text of `total` bytes to the part that is left. -/
def position (total : Nat) (rest : List Char) : Nat := total - (String.ofList rest).utf8ByteSize

/-- Skips blanks up to a number's first digit; none at the end of the text. -/
def startNumber (total : Nat) : List Char → Except HumanError (Option (Nat × List Char))
  | [] => .ok none
  | c :: rest =>
    if c.isDigit then .ok (some (digitValue c, rest))
    else if Text.isBlank c then startNumber total rest
    else .error (.numberExpected (position total (c :: rest)))

/-- The digits of a number, blanks among them skipped, up to a letter or a point. -/
def wholePart (total n : Nat) : List Char → Except HumanError (Nat × List Char)
  | [] => .ok (n, [])
  | c :: rest =>
    if c.isDigit then do
      let n ← word (n * 10 + digitValue c)
      wholePart total n rest
    else if Text.isBlank c then wholePart total n rest
    else if isUnitLetter c || c = '.' then .ok (n, c :: rest)
    else .error (.invalidCharacter (position total (c :: rest)))

/-- The digits after a point, of which there must be one; `mark` is where a fault is reported. -/
def fractionPart (total mark : Nat) (f : Fraction) :
    List Char → Except HumanError (Fraction × List Char)
  | [] => if f.denominator = 1 then .error (.invalidCharacter mark) else .ok (f, [])
  | c :: rest =>
    if c.isDigit then
      match word (f.denominator * 10), word (f.numerator * 10 + digitValue c) with
      | .ok d, .ok n => fractionPart total (position total rest) ⟨n, d⟩ rest
      | _, _ => .error .overflow
    else if Text.isBlank c then fractionPart total (position total rest) f rest
    else if isUnitLetter c then
      if f.denominator = 1 then .error (.invalidCharacter mark) else .ok (f, c :: rest)
    else .error (.invalidCharacter mark)

/-- Adds nanoseconds, which have to fit 64 bits together with those past the full second. -/
def plus (sum : Duration) (nanos : Nat) (small : Bool) : Except HumanError Duration :=
  if small && wordLimit ≤ sum.subsecond + nanos then .error .overflow
  else
    match ofNanos? (sum.nanos + nanos) with
    | some d => .ok d
    | none => .error .overflow

/-- Adds `n` units. Units from a second on are counted in seconds. -/
def plusUnits (sum : Duration) (u : TimeUnit) (n : Nat) : Except HumanError Duration :=
  let small := u.nanos < nanosPerSecond
  let scale := if small then u.nanos else u.nanos / nanosPerSecond
  if n * scale < wordLimit then sum.plus (n * u.nanos) small else .error .overflow

/-- Adds a fraction of a unit, which has to be a whole number of nanoseconds, and from an hour on a
whole number of seconds. -/
def plusFraction (sum : Duration) (u : TimeUnit) (f : Fraction) : Except HumanError Duration :=
  let grain := if nanosPerHour ≤ u.nanos then nanosPerSecond else 1
  let scaled := f.numerator * (u.nanos / grain)
  if u.nanos = 1 || wordLimit ≤ scaled || scaled % f.denominator ≠ 0 then .error .overflow
  else sum.plus (scaled / f.denominator * grain) (grain = 1)

def quantity (total n : Nat) (sum : Duration) (cs : List Char) :
    Except HumanError (Duration × List Char) := do
  let (n, rest) ← wholePart total n cs
  let (fraction, rest) ← match rest with
    | '.' :: more => do
      let (f, rest) ← fractionPart total (position total rest) ⟨0, 1⟩ more
      pure (some f, rest)
    | _ => pure (none, rest)
  let name := String.ofList (rest.takeWhile isUnitLetter)
  let rest := rest.dropWhile isUnitLetter
  match rest with
  | c :: _ =>
    if !c.isDigit && !Text.isBlank c then throw (.invalidCharacter (position total rest))
  | [] => pure ()
  match timeUnit? name with
  | none => throw (if name = "" then .unitMissing n else .unknownUnit name)
  | some u =>
    let sum ← sum.plusUnits u n
    let sum ← match fraction with
      | some f => sum.plusFraction u f
      | none => pure sum
    return (sum, rest)

/-- Reads one quantity after another; each takes at least a digit. -/
def quantities (total : Nat) : (fuel : Nat) → Duration → List Char → Except HumanError Duration
  | 0, sum, _ => .ok sum
  | fuel + 1, sum, cs => do
    match ← startNumber total cs with
    | none => return sum
    | some (n, rest) =>
      let (sum, rest) ← quantity total n sum rest
      quantities total fuel sum rest

/-- The duration that the text denotes. A lone zero needs no unit. -/
def ofHuman (text : String) : Except HumanError Duration :=
  if text = "0" then .ok zero
  else if text.toList.all Text.isBlank then .error .empty
  else quantities text.utf8ByteSize (text.length + 1) zero text.toList

/-- How durations are written and read, with the reader's complaint in words. -/
structure Spelling where
  write : Duration → String
  read : String → Except String Duration

def Spelling.human : Spelling where
  write := toHuman
  read text := (ofHuman text).mapError HumanError.message

end Duration
end FlowObserver
