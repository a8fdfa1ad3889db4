/-!
# Numerals

Decimal digits after an optional sign. Digits are read from the left, and the first thing that goes
wrong is reported: a character that is no digit, or a digit that leads out of the range.
-/

namespace FlowObserver
namespace Text

inductive NumeralFault where
  | empty
  | badDigit
  | tooLarge
  | tooSmall
  deriving DecidableEq, Repr

def NumeralFault.message : NumeralFault → String
  | empty => "cannot parse integer from empty string"
  | badDigit => "invalid digit found in string"
  | tooLarge => "number too large to fit in target type"
  | tooSmall => "number too small to fit in target type"

/-- The value of digits, which must stay up to `limit`. -/
def magnitude (limit : Nat) (beyond : NumeralFault) (digits : List Char) :
    Except NumeralFault Nat :=
  digits.foldlM (fun n c =>
    if !c.isDigit then .error .badDigit
    else
      let n := n * 10 + (c.toNat - 48)
      if limit < n then .error beyond else .ok n) 0

/-- A number from 0 to `upper`. A minus sign is no digit. -/
def natural (upper : Nat) (text : String) : Except NumeralFault Nat :=
  match text.toList with
  | [] => .error .empty
  | ['+'] => .error .badDigit
  | '+' :: digits => magnitude upper .tooLarge digits
  | digits => magnitude upper .tooLarge digits

/-- A number from `-lower` to `upper`. -/
def integer (lower upper : Nat) (text : String) : Except NumeralFault Int :=
  match text.toList with
  | ['-'] => .error .badDigit
  | '-' :: digits => (magnitude lower .tooSmall digits).map fun n => -(n : Int)
  | _ => (natural upper text).map fun n => (n : Int)

end Text
end FlowObserver
