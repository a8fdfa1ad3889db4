import FlowObserver.Flow.Basic

/-!
# Flow filters

What a subscriber asks to see. A criterion that is absent matches every event.
-/

namespace FlowObserver

structure FlowFilter where
  /-- One end of the flow must live in this namespace. -/
  namespaceName : Option String := none
  /-- The verdict's label, in any mix of upper and lower case. -/
  verdict : Option String := none
  deriving DecidableEq, Repr

namespace FlowFilter

def nonempty? (s : String) : Option String := if s = "" then none else some s

def ofTexts (namespaceName verdict : String) : FlowFilter :=
  ⟨nonempty? namespaceName, nonempty? verdict⟩

def acceptsNamespace (f : FlowFilter) (e : FlowEvent) : Bool :=
  match f.namespaceName with
  | none => true
  | some n => e.sourceNamespace = some n || e.destinationNamespace = some n

def acceptsVerdict (f : FlowFilter) (e : FlowEvent) : Bool :=
  match f.verdict with
  | none => true
  | some v => Text.sameUpToCase e.verdictLabel v

def accepts (f : FlowFilter) (e : FlowEvent) : Bool := f.acceptsNamespace e && f.acceptsVerdict e

end FlowFilter
end FlowObserver
