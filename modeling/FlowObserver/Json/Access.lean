import FlowObserver.Json

/-!
# Fields of objects

Reading the fields of an object whose shape is known. A field that is missing, null or of another
kind gives the default.
-/

namespace FlowObserver
namespace Json

def textAt? (j : Json) (name : String) : Option String := (j.present? name).bind str?

def textAt (j : Json) (name : String) (default : String := "") : String :=
  (j.textAt? name).getD default

def natAt? (j : Json) (name : String) : Option Nat := (j.present? name).bind nat?

def natAt (j : Json) (name : String) (default : Nat := 0) : Nat := (j.natAt? name).getD default

def flagAt (j : Json) (name : String) (default : Bool := false) : Bool :=
  ((j.present? name).bind bool?).getD default

def listAt (j : Json) (name : String) : List Json := ((j.present? name).map items).getD []

def textsAt (j : Json) (name : String) : List String := (j.listAt name).filterMap str?

def sub (j : Json) (name : String) : Json := (j.present? name).getD (obj [])

def fields : Json → List (String × Json)
  | obj fields => fields
  | _ => []

def textFields (j : Json) : List (String × String) :=
  j.fields.filterMap fun (name, value) => value.str?.map (name, ·)

end Json
end FlowObserver
