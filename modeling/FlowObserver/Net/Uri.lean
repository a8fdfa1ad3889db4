import FlowObserver.Text.Quoted

/-!
# Which texts are URIs

A server may be named by an absolute URI, by an authority alone or by a path. Only the outer form is
checked: the scheme, the authority's brackets, colons and user part, and the characters of each
part. The parts are checked from left to right and the first fault is reported.
-/

namespace FlowObserver
namespace Net
namespace Uri

inductive Fault where
  | tooLong
  | nothing
  | character
  | authority
  | format
  | longScheme
  deriving DecidableEq, Repr

def Fault.message : Fault → String
  | tooLong => "uri too long"
  | nothing => "empty string"
  | character => "invalid uri character"
  | authority => "invalid authority"
  | format => "invalid format"
  | longScheme => "scheme too long"

/-- Longest text and longest scheme. -/
abbrev maxLength : Nat := 65534
abbrev maxSchemeLength : Nat := 64

def isSchemeChar (c : Char) : Bool := c.isAlphanum || c = '+' || c = '-' || c = '.'

/-- Unreserved characters and delimiters. -/
def isAuthorityChar (c : Char) : Bool := c.isAlphanum || "-._~:@[]!$&'()*+,;=".toList.contains c

def endsAuthority (c : Char) : Bool := c = '/' || c = '?' || c = '#'

/-- What is known of an authority while it is read from the left. -/
structure AuthorityScan where
  colons : Nat := 0
  opened : Bool := false
  closed : Bool := false
  /-- A percent sign that no user part has ended yet. -/
  percent : Bool := false
  /-- Whether the last character ended a user part. -/
  afterUser : Bool := false

def AuthorityScan.next (s : AuthorityScan) (c : Char) : Except Fault AuthorityScan :=
  let s := { s with afterUser := false }
  match c with
  | ':' => if 8 ≤ s.colons then .error .authority else .ok { s with colons := s.colons + 1 }
  | '[' => if s.percent || s.opened then .error .authority else .ok { s with opened := true }
  | ']' =>
    if !s.opened || s.closed then .error .authority
    else .ok { s with closed := true, colons := 0, percent := false }
  | '@' => .ok { s with afterUser := true, colons := 0, percent := false }
  | '%' => .ok { s with percent := true }
  | c => if isAuthorityChar c then .ok s else .error .character

def AuthorityScan.accepted (s : AuthorityScan) : Bool :=
  s.opened == s.closed && s.colons ≤ 1 && !s.afterUser && !s.percent

def checkAuthority (cs : List Char) : Except Fault Unit := do
  let s ← cs.foldlM AuthorityScan.next {}
  if s.accepted then return () else throw .authority

/-- The characters before `://`, if these are a scheme, and what follows. -/
def splitScheme? (cs : List Char) : Option (List Char × List Char) :=
  let scheme := cs.takeWhile isSchemeChar
  match cs.drop scheme.length with
  | ':' :: '/' :: '/' :: rest => some (scheme, rest)
  | _ => none

def isPathChar (c : Char) : Bool :=
  let n := c.toNat
  n = 0x21 || (0x24 ≤ n && n ≤ 0x3B) || n = 0x3D || (0x40 ≤ n && n ≤ 0x5F) ||
    (0x61 ≤ n && n ≤ 0x7A) || n = 0x7C || n = 0x7E || n = 0x22 || n = 0x7B || n = 0x7D || 0x7F ≤ n

def isQueryChar (c : Char) : Bool :=
  let n := c.toNat
  n = 0x21 || (0x24 ≤ n && n ≤ 0x3B) || n = 0x3D || 0x3F ≤ n

/-- A path with an optional query; a fragment is cut off unread. -/
def checkPathAndQuery (cs : List Char) : Except Fault Unit :=
  let path := cs.takeWhile fun c => c ≠ '?' && c ≠ '#'
  let query := match cs.drop path.length with
    | '?' :: query => query.takeWhile (· ≠ '#')
    | _ => []
  if path.all isPathChar && query.all isQueryChar then .ok () else .error .character

/-- Without a scheme the whole text is the authority. -/
def checkAbsolute (cs : List Char) : Except Fault Unit := do
  let (scheme, rest) := (splitScheme? cs).getD ([], cs)
  if maxSchemeLength < scheme.length then throw .longScheme
  let authority := rest.takeWhile fun c => !endsAuthority c
  checkAuthority authority
  if (splitScheme? cs).isNone then
    if authority.length < rest.length then throw .format
  else
    if authority.isEmpty then throw .format
    checkPathAndQuery (rest.drop authority.length)

def check (text : String) : Except Fault Unit :=
  if maxLength < text.utf8ByteSize then .error .tooLong
  else
    match text.toList with
    | [] => .error .nothing
    | ['*'] => .ok ()
    | ['?'] | ['#'] => .error .character
    | '/' :: rest => checkPathAndQuery ('/' :: rest)
    | cs => checkAbsolute cs

def accepts (text : String) : Bool := (check text).isOk

end Uri
end Net
end FlowObserver
