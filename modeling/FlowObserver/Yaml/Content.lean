import FlowObserver.Yaml.Token

/-!
# Scalars in a YAML text

A plain scalar ends where something follows that means more than itself. A quoted one ends at its
quote, and a block scalar where the indentation ends. A single line break within plain and quoted
text counts as a space, and so it does in a folded block.
-/

namespace FlowObserver
namespace Yaml

/-- A scalar that has been read: its text, and where it ends. -/
structure Content where
  text : List Char
  stop : Mark
  next : Cursor
  /-- Whether the text was followed by a line break that belongs to the gap after it. -/
  broken : Bool := false

/-- Blanks, or breaks with blanks between them. -/
structure Gap where
  blanks : List Char := []
  broken : Bool := false
  first : List Char := []
  more : List Char := []

/-- What a gap within a scalar stands for. -/
def Gap.joined (g : Gap) : List Char :=
  if !g.broken then g.blanks
  else if g.first = ['\n'] then if g.more.isEmpty then [' '] else g.more
  else g.first ++ g.more

/-- Takes a gap. After a break, a tab must not stand left of column `indent`. -/
def takeGap (start : Mark) (indent : Nat) : (fuel : Nat) → Gap → Cursor → Scanned (Gap × Cursor)
  | 0, g, c => .ok (g, c)
  | fuel + 1, g, c =>
    match c.peek with
    | none => .ok (g, c)
    | some x =>
      if isBlank x then
        if g.broken && c.mark.column < indent && x = '\t' then
          .error (.during "while scanning a plain scalar" start
            "found a tab character that violates indentation" c.mark)
        else
          let g := if g.broken then g else { g with blanks := g.blanks ++ [x] }
          takeGap start indent fuel g c.skip
      else if isBreak x then
        let (text, next) := c.takeBreak
        let g : Gap := if g.broken then { g with more := g.more ++ text }
          else { broken := true, first := text }
        takeGap start indent fuel g next
      else .ok (g, c)

/-- Length of the word at the front, and whether a colon stands after it that is not allowed. -/
def plainWord (inFlow : Bool) : List Char → Nat × Bool
  | [] => (0, false)
  | x :: rest =>
    let follows (chars : String) : Bool := rest.head?.any (chars.toList.contains ·)
    if isBlank x || isBreak x then (0, false)
    else if inFlow && x = ':' && follows ",?[]\x7b\x7d" then (0, true)
    else if (x = ':' && isGap rest.head?) || (inFlow && ",[]\x7b\x7d".toList.contains x) then
      (0, false)
    else
      let (n, bad) := plainWord inFlow rest
      (n + 1, bad)

def scanPlainFrom (inFlow : Bool) (indent : Nat) (start : Mark) :
    (fuel : Nat) → Content → Gap → Scanned Content
  | 0, done, _ => .ok done
  | fuel + 1, done, gap => do
    let c := done.next
    if c.atAnyDocumentMark || c.is '#' then return done
    let (length, bad) := plainWord inFlow c.rest
    let next := c.skipMany length
    if bad then throw (.during "while scanning a plain scalar" start "found unexpected ':'" next.mark)
    let done : Content := if length = 0 then done
      else ⟨done.text ++ gap.joined ++ c.rest.take length, next.mark, next, false⟩
    if !next.peek.any fun x => isBlank x || isBreak x then return done
    let (gap, next) ← takeGap start indent (next.rest.length + 1) {} next
    let done := { done with next, broken := gap.broken }
    if !inFlow && next.mark.column < indent then return done
    scanPlainFrom inFlow indent start fuel done gap

def scanPlain (inFlow : Bool) (indent : Nat) (c : Cursor) : Scanned Content :=
  scanPlainFrom inFlow indent c.mark (c.rest.length + 1) ⟨[], c.mark, c, false⟩ {}

def quotedContext : String := "while scanning a quoted scalar"

def escapeContext : String := "while parsing a quoted scalar"

def simpleEscapes : List (Char × Nat) :=
  [('0', 0), ('a', 7), ('b', 8), ('t', 9), ('\t', 9), ('n', 10), ('v', 11), ('f', 12), ('r', 13),
   ('e', 27), (' ', 32), ('"', 34), ('/', 47), ('\\', 92), ('N', 0x85), ('_', 0xA0), ('L', 0x2028),
   ('P', 0x2029)]

/-- Escapes by number, with how many digits follow. -/
def numberEscapes : List (Char × Nat) := [('x', 2), ('u', 4), ('U', 8)]

def codeOf? (width : Nat) (cs : List Char) : Option Nat := do
  let digits := cs.take width
  guard (digits.length = width)
  digits.foldlM (fun n x => do return n * 16 + (← Bytes.hexValue? x)) 0

def isCharCode (n : Nat) : Bool := n < 0xD800 || (0xE000 ≤ n && n ≤ 0x10FFFF)

/-- What a backslash and the characters after it stand for. -/
def scanEscape (start : Mark) (c : Cursor) : Scanned (Char × Cursor) := do
  let problem (text : String) (mark : Mark) : Failure := .during escapeContext start text mark
  let next := c.skipMany 2
  match c.peekAt 1 |>.map fun x => (simpleEscapes.lookup x, numberEscapes.lookup x) with
  | some (some code, _) => return (Char.ofNat code, next)
  | some (none, some width) =>
    match codeOf? width next.rest with
    | none => throw (problem "did not find expected hexdecimal number" next.mark)
    | some code =>
      if isCharCode code then return (Char.ofNat code, next.skipMany width)
      else throw (problem "found invalid Unicode character escape code" next.mark)
  | _ => throw (problem "found unknown escape character" c.mark)

/-- A word between quotes. The gap that begins with an escaped break starts out broken. -/
def scanQuotedWord (single : Bool) (start : Mark) :
    (fuel : Nat) → List Char → Cursor → Scanned (List Char × Bool × Cursor)
  | 0, text, c => .ok (text, false, c)
  | fuel + 1, text, c =>
    match c.rest with
    | [] => .ok (text, false, c)
    | x :: rest =>
      if isBlank x || isBreak x then .ok (text, false, c)
      else if single then
        if x ≠ '\'' then scanQuotedWord single start fuel (text ++ [x]) c.skip
        else if rest.head? = some '\'' then
          scanQuotedWord single start fuel (text ++ ['\'']) (c.skipMany 2)
        else .ok (text, false, c)
      else if x = '"' then .ok (text, false, c)
      else if x = '\\' then
        if rest.head?.any isBreak then .ok (text, true, c.skip.skipBreak)
        else do
          let (e, next) ← scanEscape start c
          scanQuotedWord single start fuel (text ++ [e]) next
      else scanQuotedWord single start fuel (text ++ [x]) c.skip

def scanQuotedFrom (single : Bool) (start : Mark) :
    (fuel : Nat) → List Char → Cursor → Scanned Content
  | 0, text, c => .ok ⟨text, c.mark, c, false⟩
  | fuel + 1, text, c => do
    if c.atAnyDocumentMark then
      throw (.during quotedContext start "found unexpected document indicator" c.mark)
    if c.atEnd then throw (.during quotedContext start "found unexpected end of stream" c.mark)
    let (word, broken, c) ← scanQuotedWord single start (c.rest.length + 1) [] c
    if c.is (if single then '\'' else '"') then
      return ⟨text ++ word, c.skip.mark, c.skip, false⟩
    let (gap, c) ← takeGap start 0 (c.rest.length + 1) { broken } c
    scanQuotedFrom single start fuel (text ++ word ++ gap.joined) c

def scanQuoted (single : Bool) (c : Cursor) : Scanned Content :=
  scanQuotedFrom single c.mark (c.rest.length + 1) [] c.skip

def blockContext : String := "while scanning a block scalar"

inductive Chomping where
  | strip | clip | keep
  deriving DecidableEq, Repr

def scanChomping (c : Cursor) : Option (Chomping × Cursor) :=
  if c.is '+' then some (.keep, c.skip) else if c.is '-' then some (.strip, c.skip) else none

/-- An explicit indentation, which is not zero. -/
def scanIncrement (start : Mark) (c : Cursor) : Scanned (Nat × Cursor) :=
  match c.peek with
  | some x =>
    if x = '0' then
      .error (.during blockContext start "found an indentation indicator equal to 0" c.mark)
    else if x.isDigit then .ok (x.toNat - 48, c.skip)
    else .ok (0, c)
  | none => .ok (0, c)

/-- Both indicators, in any order. -/
def scanBlockHeader (start : Mark) (c : Cursor) : Scanned (Chomping × Nat × Cursor) := do
  match scanChomping c with
  | some (chomping, c) =>
    let (increment, c) ← scanIncrement start c
    return (chomping, increment, c)
  | none =>
    let (increment, c) ← scanIncrement start c
    if increment = 0 then return (.clip, 0, c)
    else
      let (chomping, c) := (scanChomping c).getD (.clip, c)
      return (chomping, increment, c)

/-- Breaks between the lines of a block, and where its next line begins. -/
structure BlockGap where
  breaks : List Char := []
  widest : Nat := 0
  stop : Mark
  next : Cursor

/-- Takes indentation and empty lines. Without a known indentation (zero) all spaces count. -/
def scanBlockGap (start : Mark) (indent : Nat) : (fuel : Nat) → BlockGap → Scanned BlockGap
  | 0, g => .ok g
  | fuel + 1, g => do
    let spaces := (g.next.takeWhile (· = ' ')).1.length
    let c := if indent = 0 then g.next.skipMany spaces
      else g.next.skipMany (min spaces (indent - g.next.mark.column))
    if (indent = 0 || c.mark.column < indent) && c.is '\t' then
      throw (.during blockContext start
        "found a tab character where an indentation space is expected" c.mark)
    let g := { g with widest := max g.widest c.mark.column, next := c }
    if !c.peek.any isBreak then return g
    let (text, next) := c.takeBreak
    scanBlockGap start indent fuel { g with breaks := g.breaks ++ text, stop := next.mark, next }

structure BlockLines where
  text : List Char := []
  lastBreak : List Char := []
  gap : BlockGap
  blankBefore : Bool := false

def scanBlockLines (literal : Bool) (start : Mark) (indent : Nat) :
    (fuel : Nat) → BlockLines → Scanned BlockLines
  | 0, b => .ok b
  | fuel + 1, b => do
    let c := b.gap.next
    if c.mark.column ≠ indent || c.atEnd then return b
    let blank := c.peek.any isBlank
    let folds := !literal && b.lastBreak = ['\n'] && !b.blankBefore && !blank
    let between := if !folds then b.lastBreak else if b.gap.breaks.isEmpty then [' '] else []
    let (line, next) := c.takeWhile fun _ => true
    let (lastBreak, next) := next.takeBreak
    let gap ← scanBlockGap start indent (next.rest.length + 1) { stop := next.mark, next }
    scanBlockLines literal start indent fuel
      ⟨b.text ++ between ++ b.gap.breaks ++ line, lastBreak, gap, blank⟩

/-- A block below something that is indented by `parent`, if that is indented at all. -/
def scanBlock (literal : Bool) (parent : Option Nat) (c : Cursor) : Scanned Content := do
  let start := c.mark
  let (chomping, increment, c) ← scanBlockHeader start c.skip
  let c := c.skipBlanks.skipComment
  if !isBreakOrEnd c.peek then
    throw (.during blockContext start "did not find expected comment or line break" c.mark)
  let c := c.skipBreak
  let known := if increment = 0 then 0 else parent.getD 0 + increment
  let gap ← scanBlockGap start known (c.rest.length + 1) { stop := c.mark, next := c }
  let least := (parent.map (· + 1)).getD 0
  let indent := if known = 0 then max (max gap.widest least) 1 else known
  let b ← scanBlockLines literal start indent (c.rest.length + 1) { gap }
  let tail := match chomping with
    | .strip => []
    | .clip => b.lastBreak
    | .keep => b.lastBreak ++ b.gap.breaks
  return ⟨b.text ++ tail, b.gap.stop, b.gap.next, false⟩

end Yaml
end FlowObserver
