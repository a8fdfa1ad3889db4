import FlowObserver.Json
import FlowObserver.Text.Quoted

/-!
# Why a value is refused as a setting

Each refusal has a cause and the place of the value in the document.
-/

namespace FlowObserver
namespace Settings

inductive Fault where
  | wrongType (found : Json) (expected : String)
  /-- A number outside the range of its setting, or a mapping of the wrong size. -/
  | outOfRange (found : Json) (expected : String)
  | unknownVariant (name : String) (known : List String)
  | missingField (name : String)
  | wrongLength (length : Nat) (expected : String)
  /-- A text that does not follow the grammar of its setting. -/
  | malformed (message : String)

/-- The integers of one signed or unsigned 64-bit word. -/
def fitsWord (n : Int) : Bool := -(UInt64.size / 2 : Nat) ≤ n && n < UInt64.size

def wideText (n : Int) : String := s!"integer \x60{n}\x60 as " ++ if n < 0 then "i128" else "u128"

def foundText : Json → String
  | .null => "null"
  | .bool b => "boolean " ++ "\x60" ++ (if b then "true" else "false") ++ "\x60"
  | .int n => if fitsWord n then s!"integer \x60{n}\x60" else wideText n
  | .real x => "floating point \x60" ++ Decimal.withPoint x ++ "\x60"
  | .str s => "string " ++ Text.quoted s
  | .arr _ => "sequence"
  | .obj _ => "map"

def Fault.message : Fault → String
  | wrongType found expected => "invalid type: " ++ foundText found ++ ", expected " ++ expected
  | outOfRange found expected => "invalid value: " ++ foundText found ++ ", expected " ++ expected
  | unknownVariant name known =>
    let quote (s : String) : String := "\x60" ++ s ++ "\x60"
    "unknown variant " ++ quote name ++ ", expected " ++ " or ".intercalate (known.map quote)
  | missingField name => "missing field \x60" ++ name ++ "\x60"
  | wrongLength length expected => s!"invalid length {length}, expected {expected}"
  | malformed message => message

structure Refusal where
  /-- Field names and positions from the root to the value. -/
  path : List String
  fault : Fault

abbrev Accepted := Except Refusal

def refuse {α : Type} (fault : Fault) : Accepted α := .error ⟨[], fault⟩

def below {α : Type} (name : String) (x : Accepted α) : Accepted α :=
  x.mapError fun r => { r with path := name :: r.path }

end Settings
end FlowObserver
