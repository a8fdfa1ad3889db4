import FlowObserver.Yaml.Node
import FlowObserver.Yaml.Scalar

/-!
# Values of YAML documents

What a node denotes. A plain scalar denotes what it looks like, unless a tag says otherwise, and the
keys of a mapping are taken as they are written. Where a key is repeated its last value holds.
-/

namespace FlowObserver
namespace Yaml

inductive ValueError where
  | tooDeep
  /-- A tag that is not one of the standard ones. -/
  | foreignTag (tag : String)
  | badScalar (text expected : String)
  | badKey
  deriving DecidableEq, Repr

def ValueError.message : ValueError → String
  | tooDeep => "recursion limit exceeded"
  | foreignTag tag => "invalid type: enum, expected any valid YAML value (" ++ tag ++ ")"
  | badScalar text expected => s!"invalid value: string \"{text}\", expected {expected}"
  | badKey => "invalid type: expected a string key"

def scalarValue (tag : Option String) (text : String) (plain : Bool) : Except ValueError Json :=
  let expect (expected : String) (value : Option Json) : Except ValueError Json :=
    match value with
    | some value => .ok value
    | none => .error (.badScalar text expected)
  match tag with
  | none => .ok (if plain then resolve text else .str text)
  | some "tag:yaml.org,2002:bool" => expect "a boolean" ((bool? text).map .bool)
  | some "tag:yaml.org,2002:int" => expect "an integer" ((int? text).map .int)
  | some "tag:yaml.org,2002:float" => expect "a float" ((real? text).map .real)
  | some "tag:yaml.org,2002:null" => expect "null" (if isNull text then some .null else none)
  | some tag => if tag.startsWith "!" then .error (.foreignTag tag) else .ok (.str text)

def isForeign (tag : Option String) : Bool := tag.any (·.startsWith "!")

/-- Sets a field; a field that is there already keeps its place. -/
def setField (fields : List (String × Json)) (name : String) (value : Json) : List (String × Json) :=
  if fields.any (·.1 = name) then fields.map fun f => if f.1 = name then (name, value) else f
  else fields ++ [(name, value)]

mutual

/-- What a node denotes; collections may be nested `depth` times. -/
def Node.value (depth : Nat) (n : Node) : Except ValueError Json :=
  match n, depth with
  | .scalar tag text plain, _ => scalarValue tag text plain
  | _, 0 => .error .tooDeep
  | .sequence tag items, depth + 1 =>
    if isForeign tag then .error (.foreignTag (tag.getD ""))
    else (itemValues depth items).map .arr
  | .mapping tag entries, depth + 1 =>
    if isForeign tag then .error (.foreignTag (tag.getD ""))
    else (entryValues depth [] entries).map .obj

def itemValues (depth : Nat) : List Node → Except ValueError (List Json)
  | [] => .ok []
  | n :: rest => do
    let value ← n.value depth
    return value :: (← itemValues depth rest)

def entryValues (depth : Nat) (fields : List (String × Json)) :
    List (Node × Node) → Except ValueError (List (String × Json))
  | [] => .ok fields
  | (.scalar tag name _, n) :: rest => do
    if isForeign tag then throw (.foreignTag (tag.getD ""))
    let value ← n.value depth
    entryValues depth (setField fields name value) rest
  | _ => .error .badKey

end

abbrev maxDepth : Nat := 128

inductive DocumentError where
  | unreadable (failure : Failure)
  | value (e : ValueError)
  | severalDocuments
  deriving DecidableEq, Repr

def DocumentError.message : DocumentError → String
  | unreadable failure => failure.message
  | value e => e.message
  | severalDocuments =>
    "deserializing from YAML containing more than one document is not supported"

def values (text : String) : Except DocumentError (List Json) := do
  let (nodes, failure) := parse text
  let values ← nodes.mapM fun n => (n.value maxDepth).mapError .value
  match failure with
  | some failure => throw (.unreadable failure)
  | none => return values

/-- The value of the only document; a text without one denotes null. -/
def value (text : String) : Except DocumentError Json := do
  match ← values text with
  | [] => return .null
  | [value] => return value
  | _ => throw .severalDocuments

end Yaml
end FlowObserver
