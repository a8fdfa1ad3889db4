import FlowObserver.Yaml.Lexer

/-!
# Nodes of a YAML text

Tokens make documents, and a document is one node. An anchor names a node, and an alias further on
stands for a copy of it. What is left out is an empty plain scalar.
-/

namespace FlowObserver
namespace Yaml

inductive Node where
  | scalar (tag : Option String) (text : String) (plain : Bool)
  | sequence (tag : Option String) (items : List Node)
  | mapping (tag : Option String) (entries : List (Node × Node))
  deriving Repr, Inhabited

def Node.empty : Node := .scalar none "" true

structure Reader where
  tokens : List Token
  /-- Why there are no more tokens, unless they have come to their end. -/
  failure : Option Failure
  anchors : List (String × Node) := []
  /-- What the handles of tags stand for. -/
  handles : List (String × String) := []
  versioned : Bool := false

abbrev Reading := StateT Reader (Except Failure)

namespace Reading

def peek : Reading Token := do
  let r ← get
  match r.tokens, r.failure with
  | t :: _, _ => return t
  | [], some e => throw e
  | [], none => throw (.found "unexpected end of tokens" {})

def advance : Reading Unit := modify fun r => { r with tokens := r.tokens.drop 1 }

def accept (kind : TokenKind) : Reading Bool := do
  if (← peek).kind = kind then
    advance
    return true
  else return false

def nextIs (kinds : List TokenKind) : Reading Bool := return kinds.contains (← peek).kind

def defaultHandles : List (String × String) := [("!", "!"), ("!!", "tag:yaml.org,2002:")]

/-- A tag with its handle replaced by what it stands for. -/
def resolveTag (start mark : Mark) (handle suffix : String) : Reading String := do
  if handle.isEmpty then return suffix
  match ((← get).handles ++ defaultHandles).lookup handle with
  | some pre => return pre ++ suffix
  | none => throw (.during "while parsing a node" start "found undefined tag handle" mark)

structure Properties where
  anchor : Option String := none
  /-- Handle and suffix, and where they stand. -/
  tag : Option (String × String × Mark) := none

/-- An anchor and a tag, in any order. -/
def properties : Reading Properties := do
  let t ← peek
  match t.kind with
  | .anchor name =>
    advance
    let u ← peek
    match u.kind with
    | .tag handle suffix =>
      advance
      return ⟨some name, some (handle, suffix, u.start)⟩
    | _ => return ⟨some name, none⟩
  | .tag handle suffix =>
    advance
    let tag := some (handle, suffix, t.start)
    match (← peek).kind with
    | .anchor name =>
      advance
      return ⟨some name, tag⟩
    | _ => return ⟨none, tag⟩
  | _ => return {}

def remember (anchor : Option String) (n : Node) : Reading Node := do
  match anchor with
  | some name => modify fun r => { r with anchors := (name, n) :: r.anchors }
  | none => pure ()
  return n

def anchored (name : String) (mark : Mark) : Reading Node := do
  match (← get).anchors.lookup name with
  | some n => return n
  | none => throw (.found "unknown anchor" mark)

def unexpected {α : Type} (context : String) (start : Mark) (problem : String) : Reading α := do
  throw (.during context start problem (← peek).start)

/-- What a node of a block collection cannot begin with. -/
def blockStops : List TokenKind := [.key, .value, .blockEnd]

def tooDeep {α : Type} : Reading α := do throw (.found "recursion limit exceeded" (← peek).start)

mutual

/-- A node; block collections are allowed in it or not, and so are sequences that are not indented
more than the mapping around them. -/
def node (block unindented : Bool) : (fuel : Nat) → Reading Node
  | 0 => tooDeep
  | fuel + 1 => do
    let first ← peek
    if let .aliasOf name := first.kind then
      advance
      return ← anchored name first.start
    let p ← properties
    let tag ← match p.tag with
      | some (handle, suffix, mark) => some <$> resolveTag first.start mark handle suffix
      | none => pure none
    let t ← peek
    match t.kind with
    | .scalar text form =>
      advance
      remember p.anchor (.scalar tag text (form = .plain))
    | .flowSequenceStart =>
      advance
      remember p.anchor (.sequence tag (← flowItems t.start true fuel))
    | .flowMappingStart =>
      advance
      remember p.anchor (.mapping tag (← flowEntries t.start true fuel))
    | _ =>
      if unindented && t.kind = .blockEntry then
        remember p.anchor (.sequence tag (← unindentedItems fuel))
      else if block && t.kind = .blockSequenceStart then do
        advance
        remember p.anchor (.sequence tag (← blockItems t.start fuel))
      else if block && t.kind = .blockMappingStart then do
        advance
        remember p.anchor (.mapping tag (← blockEntries t.start fuel))
      else if p.anchor.isSome || tag.isSome then remember p.anchor (.scalar tag "" true)
      else
        unexpected (if block then "while parsing a block node" else "while parsing a flow node")
          first.start "did not find expected node content"

/-- A node in a block collection, or nothing before one of `stops`. -/
def blockNode (unindented : Bool) (stops : List TokenKind) : (fuel : Nat) → Reading Node
  | 0 => tooDeep
  | fuel + 1 => do
    if ← nextIs stops then return .empty else node true unindented fuel

def blockItems (start : Mark) : (fuel : Nat) → Reading (List Node)
  | 0 => tooDeep
  | fuel + 1 => do
    if ← accept .blockEntry then
      let item ← blockNode false [.blockEntry, .blockEnd] fuel
      return item :: (← blockItems start fuel)
    else if ← accept .blockEnd then return []
    else unexpected "while parsing a block collection" start "did not find expected '-' indicator"

def unindentedItems : (fuel : Nat) → Reading (List Node)
  | 0 => tooDeep
  | fuel + 1 => do
    if ← accept .blockEntry then
      let item ← blockNode false (.blockEntry :: blockStops) fuel
      return item :: (← unindentedItems fuel)
    else return []

def blockEntries (start : Mark) : (fuel : Nat) → Reading (List (Node × Node))
  | 0 => tooDeep
  | fuel + 1 => do
    if ← accept .key then
      let key ← blockNode true blockStops fuel
      let value ← if ← accept .value then blockNode true blockStops fuel else pure .empty
      return (key, value) :: (← blockEntries start fuel)
    else if ← accept .blockEnd then return []
    else unexpected "while parsing a block mapping" start "did not find expected key"

/-- A node in a flow collection, or nothing before one of `stops`. -/
def flowNode (stops : List TokenKind) : (fuel : Nat) → Reading Node
  | 0 => tooDeep
  | fuel + 1 => do
    if ← nextIs stops then return .empty else node false false fuel

/-- A mapping with one entry, written without braces. -/
def flowPair : (fuel : Nat) → Reading Node
  | 0 => tooDeep
  | fuel + 1 => do
    let stops := [.flowEntry, .flowSequenceEnd]
    let key ← if ← nextIs (.value :: stops) then do
        advance
        pure Node.empty
      else node false false fuel
    let value ← if ← accept .value then flowNode stops fuel else pure .empty
    return .mapping none [(key, value)]

def flowItems (start : Mark) (first : Bool) : (fuel : Nat) → Reading (List Node)
  | 0 => tooDeep
  | fuel + 1 => do
    if ← accept .flowSequenceEnd then return []
    if !first then
      if !(← accept .flowEntry) then
        unexpected "while parsing a flow sequence" start "did not find expected ',' or ']'"
    if ← accept .key then
      let pair ← flowPair fuel
      return pair :: (← flowItems start false fuel)
    else if ← accept .flowSequenceEnd then return []
    else
      let item ← node false false fuel
      return item :: (← flowItems start false fuel)

def flowEntries (start : Mark) (first : Bool) : (fuel : Nat) → Reading (List (Node × Node))
  | 0 => tooDeep
  | fuel + 1 => do
    let stops := [.flowEntry, .flowMappingEnd]
    if ← accept .flowMappingEnd then return []
    if !first then
      if !(← accept .flowEntry) then
        unexpected "while parsing a flow mapping" start "did not find expected ',' or '\x7d'"
    if ← accept .key then
      let key ← flowNode (.value :: stops) fuel
      let value ← if ← accept .value then flowNode stops fuel else pure .empty
      return (key, value) :: (← flowEntries start false fuel)
    else if ← accept .flowMappingEnd then return []
    else
      let key ← node false false fuel
      return (key, .empty) :: (← flowEntries start false fuel)

end

def directive : (fuel : Nat) → Reading Unit
  | 0 => tooDeep
  | fuel + 1 => do
    let t ← peek
    let r ← get
    match t.kind with
    | .versionDirective major minor =>
      if r.versioned then throw (.found "found duplicate %YAML directive" t.start)
      if major ≠ 1 || (minor ≠ 1 && minor ≠ 2) then
        throw (.found "found incompatible YAML document" t.start)
      set { r with versioned := true }
      advance
      directive fuel
    | .tagDirective handle pre =>
      if (r.handles.lookup handle).isSome then
        throw (.found "found duplicate %TAG directive" t.start)
      set { r with handles := (handle, pre) :: r.handles }
      advance
      directive fuel
    | _ => return ()

def isDirective : TokenKind → Bool
  | .versionDirective .. | .tagDirective .. => true
  | _ => false

def skipDocumentEnds : (fuel : Nat) → Reading Unit
  | 0 => return ()
  | fuel + 1 => do if ← accept .documentEnd then skipDocumentEnds fuel

/-- The next document, if there is one. Only the first may begin without a mark. -/
def document? (first : Bool) (fuel : Nat) : Reading (Option Node) := do
  modify fun r => { r with anchors := [], handles := [], versioned := false }
  if !first then skipDocumentEnds fuel
  let t ← peek
  if t.kind = .streamEnd then return none
  let n ← if first && !isDirective t.kind && t.kind ≠ .documentStart then node true false fuel
    else do
      directive fuel
      if !(← accept .documentStart) then
        throw (.found "did not find expected <document start>" (← peek).start)
      let t ← peek
      if isDirective t.kind || [.documentStart, .documentEnd, .streamEnd].contains t.kind then
        pure .empty
      else node true false fuel
  let _ ← accept .documentEnd
  return some n

/-- All documents, up to the first failure. -/
def documents (first : Bool) (r : Reader) : (fuel : Nat) → List Node × Option Failure
  | 0 => ([], none)
  | fuel + 1 =>
    match (document? first (6 * r.tokens.length + 8)).run r with
    | .error e => ([], some e)
    | .ok (none, _) => ([], none)
    | .ok (some n, r) =>
      let (rest, failure) := documents false r fuel
      (n :: rest, failure)

end Reading

def parse (text : String) : List Node × Option Failure :=
  let stream := tokenize text
  Reading.documents true ⟨stream.tokens, stream.failure, [], [], false⟩ (stream.tokens.length + 1)

end Yaml
end FlowObserver
