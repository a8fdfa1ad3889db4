import FlowObserver.Bytes
import FlowObserver.Decimal.Shortest

/-!
# JSON values

Objects keep their fields in order, because what is written out shows that order. An integer is kept
apart from a double of the same value.
-/

namespace FlowObserver

inductive Json where
  | null
  | bool (value : Bool)
  | int (value : Int)
  | real (value : Float)
  | str (value : String)
  | arr (items : List Json)
  | obj (fields : List (String × Json))
  deriving BEq, Repr, Inhabited

namespace Json

instance : Coe String Json := ⟨str⟩
instance : Coe Bool Json := ⟨bool⟩
instance : Coe Nat Json := ⟨fun n => int n⟩
instance : Coe UInt8 Json := ⟨fun n => int n.toNat⟩
instance : Coe UInt16 Json := ⟨fun n => int n.toNat⟩
instance : Coe UInt32 Json := ⟨fun n => int n.toNat⟩
instance : Coe UInt64 Json := ⟨fun n => int n.toNat⟩
instance : Coe (List Json) Json := ⟨arr⟩
instance : Coe (List String) Json := ⟨fun items => arr (items.map str)⟩

def field? (j : Json) (name : String) : Option Json :=
  match j with
  | obj fields => fields.lookup name
  | _ => none

/-- A missing field and an explicit `null` are the same absence. -/
def present? (j : Json) (name : String) : Option Json :=
  match j.field? name with
  | some null => none
  | found => found

def str? : Json → Option String
  | str s => some s
  | _ => none

def bool? : Json → Option Bool
  | bool b => some b
  | _ => none

def nat? : Json → Option Nat
  | int (.ofNat n) => some n
  | _ => none

def items : Json → List Json
  | arr items => items
  | _ => []

def ofOption {α : Type} (f : α → Json) : Option α → Json
  | some a => f a
  | none => null

instance : Coe (Option String) Json := ⟨ofOption str⟩

def escapeChar (c : Char) : List Char :=
  match c with
  | '"' => ['\\', '"']
  | '\\' => ['\\', '\\']
  | '\n' => ['\\', 'n']
  | '\r' => ['\\', 'r']
  | '\t' => ['\\', 't']
  | c =>
    if c.toNat = 8 then ['\\', 'b']
    else if c.toNat = 12 then ['\\', 'f']
    else if c.toNat < 32 then
      ['\\', 'u', '0', '0', Bytes.hexDigit (c.toNat / 16), Bytes.hexDigit (c.toNat % 16)]
    else [c]

/-- Quotes, backslashes and control characters are escaped and all else stands as it is. -/
def quote (s : String) : String :=
  String.ofList ('"' :: s.toList.flatMap escapeChar ++ ['"'])

mutual

/-- One line without blanks. -/
def compact : Json → String
  | null => "null"
  | bool true => "true"
  | bool false => "false"
  | int n => toString n
  | real x => Decimal.withPoint x
  | str s => quote s
  | arr [] => "[]"
  | arr (item :: rest) => "[" ++ compact item ++ compactItems rest ++ "]"
  | obj [] => "\x7b\x7d"
  | obj ((name, value) :: rest) =>
    "\x7b" ++ quote name ++ ":" ++ compact value ++ compactFields rest ++ "\x7d"

def compactItems : List Json → String
  | [] => ""
  | item :: rest => "," ++ compact item ++ compactItems rest

def compactFields : List (String × Json) → String
  | [] => ""
  | (name, value) :: rest => "," ++ quote name ++ ":" ++ compact value ++ compactFields rest

end

end Json
end FlowObserver
