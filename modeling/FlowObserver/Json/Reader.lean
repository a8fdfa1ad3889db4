import FlowObserver.Json

/-!
# Reading JSON

A recursive-descent reader over characters. Every call consumes at least one character, so the
length of the text bounds the depth of the calls.
-/

namespace FlowObserver
namespace Json
namespace Reader

def isBlank (c : Char) : Bool := c = ' ' || c = '\n' || c = '\t' || c = '\r'

def skipBlanks (cs : List Char) : List Char := cs.dropWhile isBlank

def hex4? (cs : List Char) : Option (Nat × List Char) :=
  match cs with
  | a :: b :: c :: d :: rest => do
    let a ← Bytes.hexValue? a
    let b ← Bytes.hexValue? b
    let c ← Bytes.hexValue? c
    let d ← Bytes.hexValue? d
    return (((a * 16 + b) * 16 + c) * 16 + d, rest)
  | _ => none

/-- The character of a `\u` escape; two halves of a surrogate pair make one. -/
def unicode? (cs : List Char) : Option (Char × List Char) := do
  let (unit, rest) ← hex4? cs
  if 0xD800 ≤ unit ∧ unit < 0xDC00 then
    match rest with
    | '\\' :: 'u' :: more =>
      let (low, rest) ← hex4? more
      guard (0xDC00 ≤ low ∧ low < 0xE000)
      return (Char.ofNat (0x10000 + (unit - 0xD800) * 0x400 + (low - 0xDC00)), rest)
    | _ => none
  else
    guard (¬(0xDC00 ≤ unit ∧ unit < 0xE000))
    return (Char.ofNat unit, rest)

def string? : (fuel : Nat) → List Char → List Char → Option (String × List Char)
  | 0, _, _ => none
  | fuel + 1, acc, cs =>
    match cs with
    | '"' :: rest => some (String.ofList acc.reverse, rest)
    | '\\' :: 'u' :: rest => do
      let (c, rest) ← unicode? rest
      string? fuel (c :: acc) rest
    | '\\' :: c :: rest =>
      let plain? := [('"', '"'), ('\\', '\\'), ('/', '/'), ('n', '\n'), ('r', '\r'), ('t', '\t'),
        ('b', Char.ofNat 8), ('f', Char.ofNat 12)].lookup c
      match plain? with
      | some p => string? fuel (p :: acc) rest
      | none => none
    | c :: rest => if c.toNat < 32 then none else string? fuel (c :: acc) rest
    | [] => none

def natOf (digits : List Char) : Nat :=
  digits.foldl (fun n c => n * 10 + (c.toNat - 48)) 0

/-- An integer of one word, signed or not, stays exact. A larger one, a negative zero and all that has
a fraction or an exponent is a double. -/
def number? (cs : List Char) : Option (Json × List Char) :=
  let (negative, cs) := match cs with
    | '-' :: rest => (true, rest)
    | _ => (false, cs)
  let whole := cs.takeWhile Char.isDigit
  let rest := cs.dropWhile Char.isDigit
  if whole.isEmpty || (whole.head? = some '0' && 1 < whole.length) then none
  else
    let (fraction, hasPoint, rest) := match rest with
      | '.' :: more => (more.takeWhile Char.isDigit, true, more.dropWhile Char.isDigit)
      | _ => ([], false, rest)
    let (exponent, hasExponent, rest) : Int × Bool × List Char := match rest with
      | e :: more =>
        if e = 'e' || e = 'E' then
          let (minus, more) := match more with
            | '-' :: r => (true, r)
            | '+' :: r => (false, r)
            | _ => (false, more)
          let n : Int := natOf (more.takeWhile Char.isDigit)
          (if minus then -n else n, true, more.dropWhile Char.isDigit)
        else (0, false, rest)
      | [] => (0, false, [])
    let size := natOf whole
    let exact : Bool := if negative then size ≠ 0 && size ≤ UInt64.size / 2 else size < UInt64.size
    if hasPoint && fraction.isEmpty then none
    else if hasPoint || hasExponent || !exact then
      let shift := exponent - (fraction.length : Int)
      let magnitude := Float.ofScientific (natOf (whole ++ fraction)) (shift < 0) shift.natAbs
      some (real (if negative then -magnitude else magnitude), rest)
    else
      some (int (if negative then -(size : Int) else size), rest)

def literal? (word : String) (value : Json) (cs : List Char) : Option (Json × List Char) :=
  if word.toList.isPrefixOf cs then some (value, cs.drop word.length) else none

mutual

def value? : (fuel : Nat) → List Char → Option (Json × List Char)
  | 0, _ => none
  | fuel + 1, cs =>
    match skipBlanks cs with
    | '\x7b' :: rest =>
      match skipBlanks rest with
      | '\x7d' :: rest => some (obj [], rest)
      | rest => fields? fuel [] rest
    | '[' :: rest =>
      match skipBlanks rest with
      | ']' :: rest => some (arr [], rest)
      | rest => items? fuel [] rest
    | '"' :: rest => (string? (rest.length + 1) [] rest).map fun (s, rest) => (str s, rest)
    | 't' :: rest => literal? "rue" (bool true) rest
    | 'f' :: rest => literal? "alse" (bool false) rest
    | 'n' :: rest => literal? "ull" null rest
    | cs => number? cs

def items? : (fuel : Nat) → List Json → List Char → Option (Json × List Char)
  | 0, _, _ => none
  | fuel + 1, acc, cs => do
    let (item, rest) ← value? fuel cs
    match skipBlanks rest with
    | ',' :: rest => items? fuel (item :: acc) rest
    | ']' :: rest => some (arr (item :: acc).reverse, rest)
    | _ => none

def fields? : (fuel : Nat) → List (String × Json) → List Char → Option (Json × List Char)
  | 0, _, _ => none
  | fuel + 1, acc, cs =>
    match skipBlanks cs with
    | '"' :: rest => do
      let (name, rest) ← string? (rest.length + 1) [] rest
      match skipBlanks rest with
      | ':' :: rest => do
        let (value, rest) ← value? fuel rest
        match skipBlanks rest with
        | ',' :: rest => fields? fuel ((name, value) :: acc) rest
        | '\x7d' :: rest => some (obj ((name, value) :: acc).reverse, rest)
        | _ => none
      | _ => none
    | _ => none

end

end Reader

def parse? (text : String) : Option Json :=
  let cs := text.toList
  match Reader.value? (cs.length + 1) cs with
  | some (value, rest) => if (Reader.skipBlanks rest).isEmpty then some value else none
  | none => none

end Json
end FlowObserver
