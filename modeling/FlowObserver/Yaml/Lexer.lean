import FlowObserver.Yaml.Content

/-!
# Cutting YAML into tokens

A token that could be a simple key becomes one when a colon follows it on the same line, so the key
token is put before it afterwards. Reading may fail after some tokens; the tokens before the first
one that could still have become a key are good nevertheless.
-/

namespace FlowObserver
namespace Yaml

/-- A token that becomes a key if a colon follows. -/
structure SimpleKey where
  /-- Whether something else than a key is an error. -/
  required : Bool
  token : Nat
  mark : Mark

structure Lexer where
  cursor : Cursor
  tokens : Array Token := #[]
  /-- Columns of the open block collections, innermost first. -/
  indents : List Nat := []
  /-- The possible key of each open flow collection, innermost first, and that of the block. -/
  keys : List (Option SimpleKey) := [none]
  simpleKeyAllowed : Bool := true

namespace Lexer

def inFlow (x : Lexer) : Bool := 1 < x.keys.length

def mark (x : Lexer) : Mark := x.cursor.mark

/-- The column from which on something belongs to the innermost block collection. -/
def blockColumn (x : Lexer) : Nat := (x.indents.head?.map (· + 1)).getD 0

def push (x : Lexer) (kind : TokenKind) (start stop : Mark) : Lexer :=
  { x with tokens := x.tokens.push ⟨kind, start, stop⟩ }

def pushHere (x : Lexer) (kind : TokenKind) (width : Nat) : Lexer :=
  let next := x.cursor.skipMany width
  { x.push kind x.mark next.mark with cursor := next }

def insertAt (x : Lexer) (n : Nat) (kind : TokenKind) (mark : Mark) : Lexer :=
  { x with tokens := (x.tokens.extract 0 n).push ⟨kind, mark, mark⟩ ++ x.tokens.extract n }

def allowKey (x : Lexer) (allowed : Bool) : Lexer := { x with simpleKeyAllowed := allowed }

def missingColon (k : SimpleKey) (mark : Mark) : Failure :=
  .during "while scanning a simple key" k.mark "could not find expected ':'" mark

abbrev maxKeyLength : Nat := 1024

def isStale (x : Lexer) (k : SimpleKey) : Bool :=
  k.mark.line < x.mark.line || k.mark.index + maxKeyLength < x.mark.index

/-- A key ends on the line on which it begins. -/
def dropStaleKeys (x : Lexer) : Scanned Lexer := do
  let keys ← x.keys.mapM fun key =>
    match key with
    | none => return none
    | some k =>
      if !x.isStale k then return some k
      else if k.required then throw (missingColon k x.mark)
      else return none
  return { x with keys }

def removeKey (x : Lexer) : Scanned Lexer :=
  match x.keys with
  | some k :: rest =>
    if k.required then .error (missingColon k x.mark) else .ok { x with keys := none :: rest }
  | _ => .ok x

def saveKey (x : Lexer) : Scanned Lexer := do
  if !x.simpleKeyAllowed then return x
  let key : SimpleKey := {
    required := !x.inFlow && x.indents.head? = some x.mark.column
    token := x.tokens.size
    mark := x.mark }
  let x ← x.removeKey
  return { x with keys := some key :: x.keys.drop 1 }

def deeper (x : Lexer) (column : Nat) : Bool := !x.inFlow && x.indents.head?.all (· < column)

/-- Opens a block collection where the indentation grows. -/
def roll (x : Lexer) (kind : TokenKind) : Lexer :=
  if x.deeper x.mark.column then
    { x.push kind x.mark x.mark with indents := x.mark.column :: x.indents }
  else x

def closeBlocks (mark : Mark) (column : Option Nat) : List Nat → Array Token → List Nat × Array Token
  | [], tokens => ([], tokens)
  | indent :: rest, tokens =>
    if column.all (· < indent) then closeBlocks mark column rest (tokens.push ⟨.blockEnd, mark, mark⟩)
    else (indent :: rest, tokens)

/-- Closes the block collections that are indented more than `column`, or all of them. -/
def unroll (x : Lexer) (column : Option Nat) : Lexer :=
  if x.inFlow then x
  else
    let (indents, tokens) := closeBlocks x.mark column x.indents x.tokens
    { x with indents, tokens }

def skipGap : (fuel : Nat) → Lexer → Lexer
  | 0, x => x
  | fuel + 1, x =>
    let tabs := x.inFlow || !x.simpleKeyAllowed
    let c := (x.cursor.skipWhile fun a => a = ' ' || (tabs && a = '\t')).skipComment
    if c.peek.any isBreak then
      let x := { x with cursor := c.skipBreak }
      skipGap fuel (if x.inFlow then x else x.allowKey true)
    else { x with cursor := c }

/-- The end: everything that is open is closed on a line of its own. -/
def finish (x : Lexer) : Scanned Lexer := do
  let mark := if x.mark.column = 0 then x.mark
    else { x.mark with line := x.mark.line + 1, column := 0 }
  let x := { x with cursor := ⟨[], mark⟩ }
  let x ← (x.unroll none).removeKey
  return (x.allowKey false).push .streamEnd mark mark

def directive (x : Lexer) : Scanned Lexer := do
  let x := (← (x.unroll none).removeKey).allowKey false
  let (kind, stop, next) ← scanDirective x.cursor
  return { x.push kind x.mark stop with cursor := next }

def documentMark (x : Lexer) (kind : TokenKind) : Scanned Lexer := do
  return ((← (x.unroll none).removeKey).allowKey false).pushHere kind 3

def openFlow (x : Lexer) (kind : TokenKind) : Scanned Lexer := do
  let x := (← x.saveKey).allowKey true
  return { x with keys := none :: x.keys }.pushHere kind 1

def closeFlow (x : Lexer) (kind : TokenKind) : Scanned Lexer := do
  let x := (← x.removeKey).allowKey false
  return { x with keys := if x.inFlow then x.keys.drop 1 else x.keys }.pushHere kind 1

def flowEntry (x : Lexer) : Scanned Lexer := do
  return ((← x.removeKey).allowKey true).pushHere .flowEntry 1

def notAllowed (x : Lexer) (what : String) : Scanned Lexer :=
  .error (.found (what ++ " are not allowed in this context") x.mark)

def blockEntry (x : Lexer) : Scanned Lexer := do
  if !x.inFlow && !x.simpleKeyAllowed then x.notAllowed "block sequence entries"
  else return ((← (x.roll .blockSequenceStart).removeKey).allowKey true).pushHere .blockEntry 1

def explicitKey (x : Lexer) : Scanned Lexer := do
  if !x.inFlow && !x.simpleKeyAllowed then x.notAllowed "mapping keys"
  else return ((← (x.roll .blockMappingStart).removeKey).allowKey (!x.inFlow)).pushHere .key 1

/-- A colon: what was a possible key is one now. -/
def value (x : Lexer) : Scanned Lexer :=
  match x.keys with
  | some k :: rest =>
    let y := x.insertAt k.token .key k.mark
    let y := if y.deeper k.mark.column then
        { y.insertAt k.token .blockMappingStart k.mark with indents := k.mark.column :: y.indents }
      else y
    .ok (({ y with keys := none :: rest }.allowKey false).pushHere .value 1)
  | _ =>
    if !x.inFlow && !x.simpleKeyAllowed then x.notAllowed "mapping values"
    else .ok (((x.roll .blockMappingStart).allowKey (!x.inFlow)).pushHere .value 1)

def named (x : Lexer) (context : String) (kind : String → TokenKind) : Scanned Lexer := do
  let x := (← x.saveKey).allowKey false
  let (name, next) ← scanName context x.cursor
  return { x.push (kind name) x.mark next.mark with cursor := next }

def tagged (x : Lexer) : Scanned Lexer := do
  let x := (← x.saveKey).allowKey false
  let (kind, next) ← scanTag x.inFlow x.cursor
  return { x.push kind x.mark next.mark with cursor := next }

def content (x : Lexer) (form : ScalarForm) (s : Content) : Lexer :=
  let x := { x.push (.scalar (String.ofList s.text) form) x.mark s.stop with cursor := s.next }
  if s.broken then x.allowKey true else x

def blockScalar (x : Lexer) (literal : Bool) : Scanned Lexer := do
  let x := (← x.removeKey).allowKey true
  return x.content .block (← scanBlock literal x.indents.head? x.cursor)

def quotedScalar (x : Lexer) (single : Bool) : Scanned Lexer := do
  let x := (← x.saveKey).allowKey false
  return x.content .quoted (← scanQuoted single x.cursor)

def plainScalar (x : Lexer) : Scanned Lexer := do
  let x := (← x.saveKey).allowKey false
  return x.content .plain (← scanPlain x.inFlow x.blockColumn x.cursor)

/-- Whether a plain scalar may begin with `c`. -/
def startsPlain (inFlow : Bool) (c : Char) (next : Option Char) : Bool :=
  if c = '-' then !next.any isBlank
  else if c = '?' || c = ':' then !inFlow && !isGap next
  else !isGap (some c) && !",[]\x7b\x7d#&*!|>'\"%@\x60".toList.contains c

def token (x : Lexer) : Scanned Lexer :=
  let c := x.cursor
  let gap := isGap (c.peekAt 1)
  let flow := x.inFlow
  match c.rest with
  | [] => x.finish
  | a :: _ =>
    if c.mark.column = 0 && a = '%' then x.directive
    else if c.atDocumentMark '-' then x.documentMark .documentStart
    else if c.atDocumentMark '.' then x.documentMark .documentEnd
    else if a = '[' then x.openFlow .flowSequenceStart
    else if a = '\x7b' then x.openFlow .flowMappingStart
    else if a = ']' then x.closeFlow .flowSequenceEnd
    else if a = '\x7d' then x.closeFlow .flowMappingEnd
    else if a = ',' then x.flowEntry
    else if a = '-' && gap then x.blockEntry
    else if a = '?' && (flow || gap) then x.explicitKey
    else if a = ':' && (flow || gap) then x.value
    else if a = '*' then x.named "while scanning an alias" .aliasOf
    else if a = '&' then x.named "while scanning an anchor" .anchor
    else if a = '!' then x.tagged
    else if a = '|' && !flow then x.blockScalar true
    else if a = '>' && !flow then x.blockScalar false
    else if a = '\'' then x.quotedScalar true
    else if a = '"' then x.quotedScalar false
    else if startsPlain flow a (c.peekAt 1) then x.plainScalar
    else .error (.during "while scanning for the next token" c.mark
      "found character that cannot start any token" c.mark)

def step (x : Lexer) : Scanned Lexer := do
  let x ← (skipGap (x.cursor.rest.length + 1) x).dropStaleKeys
  (x.unroll (some x.mark.column)).token

def isDone (x : Lexer) : Bool := x.tokens.back?.any (·.kind = .streamEnd)

/-- How many tokens are good if no more can be read. -/
def settled (x : Lexer) : Nat :=
  x.keys.foldl (fun n key => min n ((key.map (·.token)).getD n)) x.tokens.size

end Lexer

structure TokenStream where
  tokens : List Token
  failure : Option Failure

def Lexer.run : (fuel : Nat) → Lexer → TokenStream
  | 0, x => ⟨x.tokens.toList, none⟩
  | fuel + 1, x =>
    match x.step with
    | .error e => ⟨x.tokens.toList.take x.settled, some e⟩
    | .ok x => if x.isDone then ⟨x.tokens.toList, none⟩ else x.run fuel

def isAllowed (c : Char) : Bool :=
  let n := c.toNat
  n = 0x09 || n = 0x0A || n = 0x0D || (0x20 ≤ n && n ≤ 0x7E) || n = 0x85 ||
    (0xA0 ≤ n && n ≤ 0xFFFD) || 0x10000 ≤ n

/-- A byte order mark at the front does not count as text. -/
def tokenize (text : String) : TokenStream :=
  let allowed := text.toList.takeWhile isAllowed
  if allowed.length < text.length then
    ⟨[], some (.forbidden (String.ofList allowed).utf8ByteSize)⟩
  else
    let chars := if text.toList.head? = some '\uFEFF' then text.toList.drop 1 else text.toList
    Lexer.run (chars.length + 2) { cursor := ⟨chars, {}⟩ }

end Yaml
end FlowObserver
