import FlowObserver.Bytes

/-!
# Name patterns

A pattern stands for a set of names: `?` is any byte and `*` any text, `[a-z]` and `[!a-z]` are
classes of bytes, `{a,b}` is a choice and a backslash takes the next character as it is. Two stars
next to slashes stand for any number of path components. Patterns are read by characters and
matched by bytes.
-/

namespace FlowObserver

inductive GlobToken where
  | literal (c : Char)
  | any
  | star
  /-- `**/` at the start. -/
  | leadingComponents
  /-- `/**` at the end. -/
  | trailingComponents
  /-- `/**/` in between. -/
  | innerComponents
  | class (negated : Bool) (ranges : List (Char × Char))
  | choice (branches : List (List GlobToken))

inductive GlobError where
  | unclosedClass
  | invalidRange
  | danglingEscape
  | unopenedChoice
  | unclosedChoice
  deriving DecidableEq, Repr

abbrev Glob := List GlobToken

namespace Glob

/-- The tokens read so far of one group: branches that are finished, and the current one. -/
structure Frame where
  finished : List Glob := []
  current : Glob := []

/-- The groups that are open, innermost first; the last one is the whole pattern. -/
structure Scan where
  inner : Frame := {}
  outer : List Frame := []

namespace Scan

def push (s : Scan) (t : GlobToken) : Scan :=
  { s with inner := { s.inner with current := s.inner.current ++ [t] } }

def inChoice (s : Scan) : Bool := !s.outer.isEmpty

def branch (s : Scan) : Scan := ⟨{}, s.inner :: s.outer⟩

def comma (s : Scan) : Scan :=
  if s.inChoice then { s with inner := ⟨s.inner.finished ++ [s.inner.current], []⟩ }
  else s.push (.literal ',')

def close (s : Scan) : Except GlobError Scan :=
  match s.outer with
  | [] => .error .unopenedChoice
  | f :: rest => .ok (push ⟨f, rest⟩ (.choice (s.inner.finished ++ [s.inner.current])))

/-- Two stars after `previous` and before `next`; whether `next` is taken along. -/
def stars (s : Scan) (previous next : Option Char) : Scan × Bool :=
  let two := (s.push .star).push .star
  let atEdge := next.isNone || next = some '/'
  if s.inner.current.isEmpty then
    if atEdge then (s.push .leadingComponents, true) else (two, false)
  else if previous ≠ some '/' && !(s.inChoice && (previous = some ',' || previous = some '{')) then
    (two, false)
  else
    let endsBranch := s.inChoice && (next = some ',' || next = some '}')
    if !atEdge && !endsBranch then (two, false)
    else
      let token : GlobToken := match s.inner.current.getLast? with
        | some .leadingComponents => .leadingComponents
        | some .trailingComponents => .trailingComponents
        | _ => if next = some '/' then .innerComponents else .trailingComponents
      let inner := { s.inner with current := s.inner.current.dropLast ++ [token] }
      ({ s with inner }, next = some '/')

end Scan

structure ClassScan where
  negated : Bool
  ranges : List (Char × Char) := []
  first : Bool := true
  inRange : Bool := false

namespace ClassScan

def single (k : ClassScan) (c : Char) : ClassScan :=
  { k with ranges := k.ranges ++ [(c, c)], first := false, inRange := false }

/-- Makes `c` the end of the last range. -/
def widen (k : ClassScan) (c : Char) : Except GlobError ClassScan :=
  match k.ranges.getLast? with
  | some (a, _) =>
    if c < a then .error .invalidRange
    else .ok { k with ranges := k.ranges.dropLast ++ [(a, c)], inRange := false }
  | none => .ok (k.single c)

/-- One more character; the token once the class is closed. -/
def next (k : ClassScan) (c : Char) : Except GlobError (ClassScan ⊕ GlobToken) :=
  if k.first then .ok (.inl (k.single c))
  else if c = ']' then
    .ok (.inr (.class k.negated (if k.inRange then k.ranges ++ [('-', '-')] else k.ranges)))
  else if k.inRange then (k.widen c).map .inl
  else if c = '-' then .ok (.inl { k with inRange := true })
  else .ok (.inl (k.single c))

end ClassScan

inductive Mode where
  | plain
  | escape
  | inClass (k : ClassScan)

structure Step where
  scan : Scan
  mode : Mode := .plain
  extra : Nat := 0

def plainStep (s : Scan) (previous : Option Char) (c : Char) (rest : List Char) :
    Except GlobError Step :=
  match c with
  | '?' => .ok { scan := s.push .any }
  | '*' =>
    if rest.head? = some '*' then
      let (s, taken) := s.stars previous (rest.drop 1).head?
      .ok { scan := s, extra := if taken then 2 else 1 }
    else .ok { scan := s.push .star }
  | '[' =>
    let negated := rest.head? = some '!' || rest.head? = some '^'
    .ok { scan := s, mode := .inClass { negated }, extra := if negated then 1 else 0 }
  | '{' => .ok { scan := s.branch }
  | '}' => s.close.map fun s => { scan := s }
  | ',' => .ok { scan := s.comma }
  | '\\' => .ok { scan := s, mode := .escape }
  | c => .ok { scan := s.push (.literal c) }

def step (s : Scan) (mode : Mode) (previous : Option Char) (c : Char) (rest : List Char) :
    Except GlobError Step :=
  match mode with
  | .plain => plainStep s previous c rest
  | .escape => .ok { scan := s.push (.literal c) }
  | .inClass k => (k.next c).map fun
    | .inl k => { scan := s, mode := .inClass k }
    | .inr t => { scan := s.push t }

def scan (s : Scan) (mode : Mode) (previous : Option Char) : List Char → Except GlobError Scan
  | [] =>
    match mode with
    | .plain => .ok s
    | .escape => .error .danglingEscape
    | .inClass _ => .error .unclosedClass
  | c :: rest => do
    let next ← step s mode previous c rest
    let last := if next.extra = 0 then some c else rest[next.extra - 1]?
    scan next.scan next.mode last (rest.drop next.extra)
termination_by text => text.length

def parse (pattern : String) : Except GlobError Glob := do
  let s ← scan {} .plain none pattern.toList
  if s.inChoice then .error .unclosedChoice else return s.inner.current

def bytesOf (c : Char) : Bytes := (String.singleton c).toUTF8.toList

/-- Whether a byte is in a class. The class holds the bytes of its characters one by one; between
the two ends of a range it holds what lies between the last byte of the first and the first byte of
the second. -/
def inRange (b : UInt8) (range : Char × Char) : Bool :=
  let first := bytesOf range.1
  let last := bytesOf range.2
  first.contains b || last.contains b ||
    (range.1 ≠ range.2 && first.getLast?.getD 0 ≤ b && b ≤ last.head?.getD 0)

def distinct (rests : List Bytes) : List Bytes :=
  rests.foldl (fun out r => if out.any (·.length = r.length) then out else out ++ [r]) []

def suffixes : Bytes → List Bytes
  | [] => [[]]
  | b :: rest => (b :: rest) :: suffixes rest

/-- What follows each slash. -/
def afterSlashes : Bytes → List Bytes
  | [] => []
  | b :: rest => if b = 0x2F then rest :: afterSlashes rest else afterSlashes rest

mutual

/-- A choice between nothing but empty branches stands for nothing at all. -/
def isVoid : GlobToken → Bool
  | .choice branches => allVoid branches
  | _ => false

def allVoid : List Glob → Bool
  | [] => true
  | branch :: rest => isVoidBranch branch && allVoid rest

def isVoidBranch : Glob → Bool
  | [] => true
  | t :: rest => isVoid t && isVoidBranch rest

end

mutual

/-- What can be left of a name behind a token. -/
def restsOfToken (name : Bytes) : GlobToken → List Bytes
  | .literal c => if (bytesOf c).isPrefixOf name then [name.drop (bytesOf c).length] else []
  | .any => match name with
    | [] => []
    | _ :: rest => [rest]
  | .star => suffixes name
  | .leadingComponents => name :: afterSlashes name
  | .trailingComponents => match name with
    | 0x2F :: rest => suffixes rest
    | _ => []
  | .innerComponents => match name with
    | 0x2F :: rest => rest :: afterSlashes rest
    | _ => []
  | .class negated ranges => match name with
    | [] => []
    | b :: rest => if ranges.any (inRange b) = negated then [] else [rest]
  | .choice branches => if allVoid branches then [name] else restsOfChoice name branches

/-- Empty branches are left out of a choice. -/
def restsOfChoice (name : Bytes) : List Glob → List Bytes
  | [] => []
  | branch :: more =>
    if isVoidBranch branch then restsOfChoice name more
    else restsOfBranch [name] branch ++ restsOfChoice name more

def restsOfBranch (names : List Bytes) : Glob → List Bytes
  | [] => names
  | t :: rest => restsOfBranch (distinct (names.flatMap fun name => restsOfToken name t)) rest

end

def isOnlyStars : Glob → Bool
  | [.leadingComponents] => true
  | _ => false

def accepts (g : Glob) (name : String) : Bool :=
  isOnlyStars g || (restsOfBranch [name.toUTF8.toList] g).any (·.isEmpty)

end Glob
end FlowObserver
