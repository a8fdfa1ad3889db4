import FlowObserver.Bytes
import FlowObserver.Yaml.Cursor

/-!
# Tokens of YAML

The pieces that a text is cut into. Indentation shows as tokens that open and close block
collections.
-/

namespace FlowObserver
namespace Yaml

inductive ScalarForm where
  | plain | quoted | block
  deriving DecidableEq, Repr

inductive TokenKind where
  | streamEnd
  | versionDirective (major minor : Nat)
  | tagDirective (handle pre : String)
  | documentStart
  | documentEnd
  | blockSequenceStart
  | blockMappingStart
  | blockEnd
  | flowSequenceStart
  | flowSequenceEnd
  | flowMappingStart
  | flowMappingEnd
  | blockEntry
  | flowEntry
  | key
  | value
  | aliasOf (name : String)
  | anchor (name : String)
  | tag (handle suffix : String)
  | scalar (text : String) (form : ScalarForm)
  deriving DecidableEq, Repr

structure Token where
  kind : TokenKind
  start : Mark
  stop : Mark
  deriving DecidableEq, Repr

abbrev Scanned := Except Failure

def isNameChar (c : Char) : Bool := c.isAlphanum || c = '_' || c = '-'

/-- The name after `*` or `&`. -/
def scanName (context : String) (c : Cursor) : Scanned (String × Cursor) :=
  let (name, next) := c.skip.takeWhile isNameChar
  let ends := isGap next.peek || next.peek.any ("?:,]\x7d%@\x60".toList.contains ·)
  if name.isEmpty || !ends then
    .error (.during context c.mark "did not find expected alphabetic or numeric character" next.mark)
  else .ok (String.ofList name, next)

def isUriChar (verbatim : Bool) (c : Char) : Bool :=
  isNameChar c || ";/?:@&=+$.%!~*'()".toList.contains c || (verbatim && ",[]".toList.contains c)

def tagContext (directive : Bool) : String :=
  if directive then "while parsing a %TAG directive" else "while parsing a tag"

def scanOctet (context : String) (start : Mark) (c : Cursor) : Scanned (UInt8 × Cursor) :=
  match c.peek, (c.peekAt 1).bind Bytes.hexValue?, (c.peekAt 2).bind Bytes.hexValue? with
  | some '%', some high, some low => .ok (UInt8.ofNat (high * 16 + low), c.skipMany 3)
  | _, _, _ => .error (.during context start "did not find URI escaped octet" c.mark)

/-- How many octets a character has that begins with this one. -/
def octetWidth? (b : UInt8) : Option Nat :=
  if b &&& 0x80 = 0 then some 1
  else if b &&& 0xE0 = 0xC0 then some 2
  else if b &&& 0xF0 = 0xE0 then some 3
  else if b &&& 0xF8 = 0xF0 then some 4
  else none

def scanOctets (context : String) (start : Mark) :
    Nat → Cursor → Scanned (Bytes × Cursor)
  | 0, c => .ok ([], c)
  | n + 1, c => do
    let (b, c) ← scanOctet context start c
    if b &&& 0xC0 ≠ 0x80 then
      throw (.during context start "found an incorrect trailing UTF-8 octet" c.mark)
    let (rest, c) ← scanOctets context start n c
    return (b :: rest, c)

def scanEscaped (context : String) (start : Mark) (c : Cursor) : Scanned (List Char × Cursor) := do
  let (first, next) ← scanOctet context start c
  match octetWidth? first with
  | none => throw (.during context start "found an incorrect leading UTF-8 octet" c.mark)
  | some width =>
    let (rest, next) ← scanOctets context start (width - 1) next
    return (((String.fromUTF8? ⟨(first :: rest).toArray⟩).getD "").toList, next)

def scanUriChars (context : String) (start : Mark) (verbatim : Bool) :
    (fuel : Nat) → List Char → Cursor → Scanned (List Char × Cursor)
  | 0, out, c => .ok (out, c)
  | fuel + 1, out, c =>
    match c.peek with
    | some '%' => do
      let (x, c) ← scanEscaped context start c
      scanUriChars context start verbatim fuel (out ++ x) c
    | some x =>
      if isUriChar verbatim x then scanUriChars context start verbatim fuel (out ++ [x]) c.skip
      else .ok (out, c)
    | none => .ok (out, c)

/-- The characters of a tag, or of what a handle stands for. -/
def scanUri (directive verbatim : Bool) (start : Mark) (c : Cursor) :
    Scanned (String × Cursor) := do
  let context := tagContext directive
  let (text, next) ← scanUriChars context start verbatim (c.rest.length + 1) [] c
  if text.isEmpty then
    throw (.during context start "did not find expected tag URI" next.mark)
  return (String.ofList text, next)

/-- An exclamation mark, a name, and another mark if there is one. -/
def scanHandle (directive : Bool) (start : Mark) (c : Cursor) : Scanned (String × Cursor) := do
  if !c.is '!' then
    let context := if directive then "while scanning a tag directive" else "while scanning a tag"
    throw (.during context start "did not find expected '!'" c.mark)
  let (name, next) := c.skip.takeWhile isNameChar
  if next.is '!' then return ("!" ++ String.ofList name ++ "!", next.skip)
  if directive && !name.isEmpty then
    throw (.during "while parsing a tag directive" start "did not find expected '!'" next.mark)
  return ("!" ++ String.ofList name, next)

/-- A tag as its handle and the rest. -/
def scanTagParts (c : Cursor) : Scanned (String × String × Cursor) := do
  if c.peekAt 1 = some '<' then
    let (suffix, next) ← scanUri false true c.mark (c.skipMany 2)
    if !next.is '>' then
      throw (.during "while scanning a tag" c.mark "did not find the expected '>'" next.mark)
    return ("", suffix, next.skip)
  let (handle, next) ← scanHandle false c.mark c
  if 1 < handle.length && handle.endsWith "!" then
    let (suffix, next) ← scanUri false false c.mark next
    return (handle, suffix, next)
  let (text, next) ← scanUriChars (tagContext false) c.mark false (next.rest.length + 1)
    (handle.toList.drop 1) next
  return if text.isEmpty then ("", "!", next) else ("!", String.ofList text, next)

def scanTag (inFlow : Bool) (c : Cursor) : Scanned (TokenKind × Cursor) := do
  let (handle, suffix, next) ← scanTagParts c
  if !isGap next.peek && !(inFlow && next.is ',') then
    throw (.during "while scanning a tag" c.mark
      "did not find expected whitespace or line break" next.mark)
  return (.tag handle suffix, next)

abbrev maxVersionDigits : Nat := 9

def scanVersionNumber (start : Mark) (c : Cursor) : Scanned (Nat × Cursor) := do
  let context := "while scanning a %YAML directive"
  let (digits, next) := c.takeWhile Char.isDigit
  if digits.isEmpty then throw (.during context start "did not find expected version number" c.mark)
  if maxVersionDigits < digits.length then
    throw (.during context start "found extremely long version number"
      (c.skipMany maxVersionDigits).mark)
  return (digits.foldl (fun n d => n * 10 + (d.toNat - 48)) 0, next)

def scanVersion (start : Mark) (c : Cursor) : Scanned (TokenKind × Cursor) := do
  let (major, c) ← scanVersionNumber start c.skipBlanks
  if !c.is '.' then
    throw (.during "while scanning a %YAML directive" start
      "did not find expected digit or '.' character" c.mark)
  let (minor, c) ← scanVersionNumber start c.skip
  return (.versionDirective major minor, c)

def scanTagDirective (start : Mark) (c : Cursor) : Scanned (TokenKind × Cursor) := do
  let context := "while scanning a %TAG directive"
  let (handle, c) ← scanHandle true start c.skipBlanks
  if !c.peek.any isBlank then
    throw (.during context start "did not find expected whitespace" c.mark)
  let (pre, c) ← scanUri true true start c.skipBlanks
  if !isGap c.peek then
    throw (.during context start "did not find expected whitespace or line break" c.mark)
  return (.tagDirective handle pre, c)

def directiveContext : String := "while scanning a directive"

def scanDirectiveValue (c : Cursor) : Scanned (TokenKind × Cursor) := do
  let (name, next) := c.skip.takeWhile isNameChar
  if name.isEmpty then
    throw (.during directiveContext c.mark "could not find expected directive name" next.mark)
  if !isGap next.peek then
    throw (.during directiveContext c.mark "found unexpected non-alphabetical character" next.mark)
  match String.ofList name with
  | "YAML" => scanVersion c.mark next
  | "TAG" => scanTagDirective c.mark next
  | _ => throw (.during directiveContext c.mark "found unknown directive name" next.mark)

/-- A whole line with a directive; the place where the directive itself ends comes second. -/
def scanDirective (c : Cursor) : Scanned (TokenKind × Mark × Cursor) := do
  let (kind, next) ← scanDirectiveValue c
  let rest := next.skipBlanks.skipComment
  if !isBreakOrEnd rest.peek then
    throw (.during directiveContext c.mark "did not find expected comment or line break" rest.mark)
  return (kind, next.mark, rest.skipBreak)

end Yaml
end FlowObserver
