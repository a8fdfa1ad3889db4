import FlowObserver.Settings.Basic

/-!
# Which log lines are written

A filter is a list of directives between commas: a level for all lines, or for those of one target
or within one span. What is asked for by the environment comes before the settings, as far as it can
be read.
-/

namespace FlowObserver

/-- A threshold; `none` lets nothing through. -/
abbrev Threshold := Option Severity

namespace Threshold

def label (t : Threshold) : String :=
  match t with
  | some level => Text.lowerAscii level.label
  | none => "off"

/-- A level by its name in any case or by its number, where zero is off. -/
def ofText? (s : String) : Option Threshold :=
  if (Text.natural (UInt64.size - 1) s).toOption = some 0 || Text.sameUpToCase s "off" then some none
  else (Severity.ofText? s).map some

end Threshold

structure LogDirective where
  target : Option String := none
  span : Option String := none
  threshold : Threshold := some .trace
  deriving DecidableEq, Repr

namespace LogDirective

def text (d : LogDirective) : String :=
  let place := d.target.getD "" ++ (d.span.map fun s => "[" ++ s ++ "]").getD ""
  if place.isEmpty then d.threshold.label else place ++ "=" ++ d.threshold.label

def startsTarget (c : Char) : Bool := c.isAlphanum || "-:_".toList.contains c || 0x80 ≤ c.toNat

/-- What follows the target or the span: nothing, or an equals sign and a level. -/
def threshold? : List Char → Option Threshold
  | [] | ['='] => some (some .trace)
  | '=' :: level => Threshold.ofText? (String.ofList level)
  | _ => none

def withSpan? (target : Option String) (cs : List Char) : Option LogDirective := do
  let span := cs.takeWhile (· ≠ ']')
  let ']' :: rest := cs.drop span.length | none
  return ⟨target, some (String.ofList span), ← threshold? rest⟩

/-- A word alone is a level, or else a target of which all lines are wanted. -/
def parse? (text : String) : Option LogDirective :=
  match text.toList with
  | [] => none
  | '[' :: rest => withSpan? none rest
  | c :: rest => do
    guard (startsTarget c)
    let target := (c :: rest).takeWhile fun c => c ≠ '=' && c ≠ '['
    let name := String.ofList target
    match (c :: rest).drop target.length with
    | [] =>
      match Threshold.ofText? name with
      | some threshold => return { threshold }
      | none => return { target := name }
    | '[' :: rest => withSpan? name rest
    | rest => return { target := name, threshold := ← threshold? rest }

def samePlace (a b : LogDirective) : Bool := a.target = b.target && a.span = b.span

end LogDirective

abbrev LogFilter := List LogDirective

namespace LogFilter

/-- A later directive for the same place wins. -/
def add (f : LogFilter) (d : LogDirective) : LogFilter := f.filter (!d.samePlace ·) ++ [d]

/-- Reads a filter. An empty one lets errors through. -/
def parse? (text : String) : Option LogFilter := do
  let parts := (text.splitOn ",").filter (!·.isEmpty)
  let directives ← parts.mapM LogDirective.parse?
  return if directives.isEmpty then [{ threshold := some .error }] else directives.foldl add []

/-- What the settings ask for: the level for the agent's own lines, and warnings of all others. -/
def ofSettings (s : Settings) : LogFilter :=
  [{ threshold := some .warn }, { target := "flowscope", threshold := some s.logLevel }]

def choose (asked : Option String) (s : Settings) : LogFilter :=
  (asked.bind parse?).getD (ofSettings s)

end LogFilter
end FlowObserver
