/-!
# Places in a YAML text

A cursor is the rest of a text together with the place where it begins. Places count characters,
lines and columns; a carriage return and the line feed after it are one break.
-/

namespace FlowObserver
namespace Yaml

def isBlank (c : Char) : Bool := c = ' ' || c = '\t'

def isBreak (c : Char) : Bool :=
  c = '\n' || c = '\r' || c.toNat = 0x85 || c.toNat = 0x2028 || c.toNat = 0x2029

/-- A blank, a break or nothing at all. -/
def isGap (c : Option Char) : Bool := c.all fun c => isBlank c || isBreak c

def isBreakOrEnd (c : Option Char) : Bool := c.all isBreak

structure Mark where
  index : Nat := 0
  line : Nat := 0
  column : Nat := 0
  deriving DecidableEq, Repr

namespace Mark

/-- Lines and columns are shown from one on; the very beginning is not shown. -/
def shown (m : Mark) : String :=
  if m.line = 0 && m.column = 0 then "" else s!" at line {m.line + 1} column {m.column + 1}"

def samePlace (a b : Mark) : Bool := a.line = b.line && a.column = b.column

end Mark

/-- Why a text is no YAML. -/
inductive Failure where
  /-- A character that must not stand anywhere, at a position in bytes. -/
  | forbidden (position : Nat)
  | found (problem : String) (mark : Mark)
  /-- Found while something was read that began before. -/
  | during (context : String) (start : Mark) (problem : String) (mark : Mark)
  deriving DecidableEq, Repr

def Failure.message : Failure → String
  | forbidden position =>
    let place := if position = 0 then "" else s!" at position {position}"
    "control characters are not allowed" ++ place
  | found problem mark => problem ++ mark.shown
  | during context start problem mark =>
    let place := if start.samePlace mark then "" else start.shown
    problem ++ mark.shown ++ ", " ++ context ++ place

structure Cursor where
  rest : List Char
  mark : Mark := {}
  deriving Repr

namespace Cursor

def peek (c : Cursor) : Option Char := c.rest.head?

def peekAt (c : Cursor) (n : Nat) : Option Char := c.rest[n]?

def is (c : Cursor) (x : Char) : Bool := c.peek = some x

def atEnd (c : Cursor) : Bool := c.rest.isEmpty

def skip (c : Cursor) : Cursor :=
  match c.rest with
  | [] => c
  | _ :: rest => ⟨rest, { c.mark with index := c.mark.index + 1, column := c.mark.column + 1 }⟩

def skipMany (c : Cursor) (n : Nat) : Cursor := n.repeat skip c

/-- Takes a break, and gives what it stands for. -/
def takeBreak (c : Cursor) : List Char × Cursor :=
  let next (width : Nat) (rest : List Char) : Cursor :=
    ⟨rest, ⟨c.mark.index + width, c.mark.line + 1, 0⟩⟩
  match c.rest with
  | '\r' :: '\n' :: rest => (['\n'], next 2 rest)
  | x :: rest =>
    if isBreak x then ([if 0x2028 ≤ x.toNat then x else '\n'], next 1 rest) else ([], c)
  | [] => ([], c)

def skipBreak (c : Cursor) : Cursor := c.takeBreak.2

def takeWhile (c : Cursor) (p : Char → Bool) : List Char × Cursor :=
  let taken := c.rest.takeWhile fun x => p x && !isBreak x
  (taken, ⟨c.rest.drop taken.length, { c.mark with
    index := c.mark.index + taken.length
    column := c.mark.column + taken.length }⟩)

def skipWhile (c : Cursor) (p : Char → Bool) : Cursor := (c.takeWhile p).2

def skipBlanks (c : Cursor) : Cursor := c.skipWhile isBlank

def skipLineEnd (c : Cursor) : Cursor := c.skipWhile fun _ => true

/-- A comment up to the end of its line. -/
def skipComment (c : Cursor) : Cursor := if c.is '#' then c.skipLineEnd else c

/-- Three times `x` at the start of a line, and a gap. -/
def atDocumentMark (c : Cursor) (x : Char) : Bool :=
  c.mark.column = 0 && c.rest.take 3 = [x, x, x] && isGap (c.peekAt 3)

def atAnyDocumentMark (c : Cursor) : Bool := c.atDocumentMark '-' || c.atDocumentMark '.'

end Cursor
end Yaml
end FlowObserver
