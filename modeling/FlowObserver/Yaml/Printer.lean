import FlowObserver.Yaml.Cursor
import FlowObserver.Yaml.Scalar

/-!
# Writing YAML

Block style: a mapping entry per line, sequences not indented within their mapping. A text is left
unquoted where that is unambiguous, else put between single quotes, and between double quotes only
if it holds something that must be escaped. A text with line breaks becomes a literal block.
-/

namespace FlowObserver
namespace Yaml

def isPrintable (c : Char) : Bool :=
  let n := c.toNat
  n = 0x0A || (0x20 ≤ n && n ≤ 0x7E) || (0xA0 ≤ n && n ≠ 0xFEFF && n ≠ 0xFFFE && n ≠ 0xFFFF)

structure Shape where
  /-- Something in it would be read as syntax. -/
  indicator : Bool
  /-- Something in it can only be written as an escape. -/
  special : Bool
  breaks : Bool
  outerBlank : Bool
  trailingSpace : Bool
  /-- A space right after a break, or right before one. -/
  breakSpace : Bool
  spaceBreak : Bool

/-- Characters that mean something at the start of a scalar. -/
def isLeadIndicator (c : Char) : Bool := "#,[]{}&*!|>'\"%@`".toList.contains c

/-- Whether the character stands for syntax, given its neighbours. -/
def isIndicator (previous : Option Char) (c : Char) (next : Option Char) : Bool :=
  match previous with
  | none => isLeadIndicator c || ((c = '?' || c = ':' || c = '-') && isGap next)
  | some p => (c = ':' && isGap next) || (c = '#' && isGap (some p))

def hasIndicator : Option Char → List Char → Bool
  | _, [] => false
  | previous, c :: rest => isIndicator previous c rest.head? || hasIndicator (some c) rest

def hasPair (first second : Char → Bool) : List Char → Bool
  | a :: b :: rest => (first a && second b) || hasPair first second (b :: rest)
  | _ => false

def Shape.of (cs : List Char) : Shape where
  indicator := ['-', '-', '-'].isPrefixOf cs || ['.', '.', '.'].isPrefixOf cs ||
    hasIndicator none cs
  special := cs.any fun c => !isPrintable c
  breaks := cs.any isBreak
  outerBlank :=
    let isOuter (c : Char) : Bool := c = ' ' || isBreak c
    (cs.head?.map isOuter).getD false || (cs.getLast?.map isOuter).getD false
  trailingSpace := cs.getLast? = some ' '
  breakSpace := hasPair isBreak (· = ' ') cs
  spaceBreak := hasPair (· = ' ') isBreak cs

inductive Style where
  | plain | single | double | literal
  deriving DecidableEq, Repr

namespace Shape

def allowsPlain (s : Shape) : Bool :=
  !s.indicator && !s.special && !s.breaks && !s.outerBlank

def allowsSingle (s : Shape) : Bool := !s.special && !s.breakSpace && !s.spaceBreak

def allowsLiteral (s : Shape) : Bool := !s.special && !s.spaceBreak && !s.trailingSpace

end Shape

def styleOf (text : String) : Style :=
  let shape := Shape.of text.toList
  if text.contains '\n' then if shape.allowsLiteral then .literal else .double
  else if isUnambiguous text && shape.allowsPlain then .plain
  else if shape.allowsSingle then .single
  else .double

def spaces (n : Nat) : String := String.ofList (List.replicate n ' ')

def upperHex (width n : Nat) : List Char :=
  let digits := (Nat.toDigits 16 n).map Char.toUpper
  List.replicate (width - digits.length) '0' ++ digits

def escapeLetters : List (Nat × Char) :=
  [(0x00, '0'), (0x07, 'a'), (0x08, 'b'), (0x09, 't'), (0x0A, 'n'), (0x0B, 'v'), (0x0C, 'f'),
   (0x0D, 'r'), (0x1B, 'e'), (0x22, '"'), (0x5C, '\\'), (0x85, 'N'), (0xA0, '_'), (0x2028, 'L'),
   (0x2029, 'P')]

def escaped (c : Char) : List Char :=
  match escapeLetters.lookup c.toNat with
  | some letter => ['\\', letter]
  | none =>
    if c.toNat ≤ 0xFF then '\\' :: 'x' :: upperHex 2 c.toNat
    else if c.toNat ≤ 0xFFFF then '\\' :: 'u' :: upperHex 4 c.toNat
    else '\\' :: 'U' :: upperHex 8 c.toNat

def doubleQuoted (cs : List Char) : String :=
  let one (c : Char) : List Char :=
    if isPrintable c && !isBreak c && c ≠ '"' && c ≠ '\\' then [c] else escaped c
  String.ofList ('"' :: cs.flatMap one ++ ['"'])

/-- Text between single quotes; after a line separator the text goes on indented. -/
def singleQuoted (indent : Nat) (cs : List Char) : String :=
  let rec body : Bool → List Char → List Char
    | _, [] => []
    | afterBreak, c :: rest =>
      let lead := if afterBreak && !isBreak c then List.replicate indent ' ' else []
      let shown := if c = '\'' then ['\'', '\''] else [c]
      lead ++ shown ++ body (isBreak c) rest
  String.ofList ('\'' :: body false cs ++ ['\''])

/-- Indicators of a literal block: the indentation if the text starts with a blank, and what
becomes of the final breaks. -/
def literalHints (cs : List Char) : String :=
  let indentation := match cs.head? with
    | some c => if c = ' ' || isBreak c then "2" else ""
    | none => ""
  let chomping := match cs.reverse with
    | [] => "-"
    | last :: rest =>
      if !isBreak last then "-"
      else match rest.head? with
        | none => "+"
        | some c => if isBreak c then "+" else ""
  indentation ++ chomping

/-- A literal block with its header, ended by a line break. -/
def literal (indent : Nat) (cs : List Char) : String :=
  let rec body : Bool → List Char → List Char
    | afterBreak, [] => if afterBreak then [] else ['\n']
    | afterBreak, c :: rest =>
      let lead := if afterBreak && !isBreak c then List.replicate indent ' ' else []
      lead ++ [c] ++ body (isBreak c) rest
  "|" ++ literalHints cs ++ "\n" ++ String.ofList (body true cs)

/-- A text as a value, ended by a line break; `indent` is that of its continuation lines. -/
def textLine (indent : Nat) (text : String) : String :=
  let cs := text.toList
  match styleOf text with
  | .plain => text ++ "\n"
  | .single => singleQuoted indent cs ++ "\n"
  | .double => doubleQuoted cs ++ "\n"
  | .literal => literal indent cs

mutual

def entryValue (indent : Nat) : Json → String
  | .arr [] => " []\n"
  | .obj [] => " \x7b\x7d\n"
  | .arr (item :: rest) => "\n" ++ spaces indent ++ "- " ++ itemValue indent item ++ items indent rest
  | .obj ((key, value) :: rest) =>
    "\n" ++ spaces (indent + 2) ++ key ++ ":" ++ entryValue (indent + 2) value ++
      entries (indent + 2) rest
  | .str s => " " ++ textLine (indent + 2) s
  | scalar => " " ++ scalar.compact ++ "\n"

def itemValue (indent : Nat) : Json → String
  | .arr [] => "[]\n"
  | .obj [] => "\x7b\x7d\n"
  | .arr (item :: rest) => "- " ++ itemValue (indent + 2) item ++ items (indent + 2) rest
  | .obj ((key, value) :: rest) =>
    key ++ ":" ++ entryValue (indent + 2) value ++ entries (indent + 2) rest
  | .str s => textLine (indent + 2) s
  | scalar => scalar.compact ++ "\n"

def items (indent : Nat) : List Json → String
  | [] => ""
  | item :: rest => spaces indent ++ "- " ++ itemValue indent item ++ items indent rest

def entries (indent : Nat) : List (String × Json) → String
  | [] => ""
  | (key, value) :: rest =>
    spaces indent ++ key ++ ":" ++ entryValue indent value ++ entries indent rest

end

/-- A document whose root is a mapping with plain keys. -/
def document (fields : List (String × Json)) : String := entries 0 fields

end Yaml
end FlowObserver
