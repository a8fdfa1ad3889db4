import FlowObserver.Link.Policy
import FlowObserver.Table

/-!
# Filters in the kernel

A link has a hook for each direction, and a hook carries filters. The kernel may refuse any call,
which then changes nothing.
-/

namespace FlowObserver

inductive Direction where
  | ingress | egress
  deriving DecidableEq, Repr

namespace Direction

def all : List Direction := [ingress, egress]

def label : Direction → String
  | ingress => "ingress"
  | egress => "egress"

def programName (d : Direction) : String := "flowscope_" ++ d.label

def attachType : Direction → String
  | ingress => "Ingress"
  | egress => "Egress"

end Direction

structure Hook where
  interface : String
  direction : Direction
  deriving DecidableEq, Repr

def Hook.le (a b : Hook) : Bool :=
  a.interface < b.interface ||
    (a.interface = b.interface && (a.direction = .ingress || b.direction = .egress))

def Hook.text (h : Hook) : String := h.interface ++ " " ++ h.direction.label

abbrev FilterId := Nat

inductive KernelCall where
  /-- Makes sure that the interface has hooks. -/
  | prepare (interface : String)
  | purge (hook : Hook)
  | attach (hook : Hook)
  | detach (hook : Hook)
  deriving DecidableEq, Repr

namespace KernelCall

def verb : KernelCall → String
  | prepare _ => "clsact"
  | purge _ => "purge"
  | attach _ => "attach"
  | detach _ => "detach"

def interface : KernelCall → String
  | prepare interface => interface
  | purge hook | attach hook | detach hook => hook.interface

def directionLabel : KernelCall → String
  | prepare _ => "any"
  | purge hook | attach hook | detach hook => hook.direction.label

def text (c : KernelCall) : String := c.verb ++ " " ++ c.interface ++ " " ++ c.directionLabel

def failure (c : KernelCall) (details : String) : LinkError :=
  .traffic c.verb c.interface c.directionLabel details

end KernelCall

structure Kernel where
  filters : Table Hook (List FilterId) := .empty
  nextFilter : FilterId := 1
  /-- All calls so far. -/
  calls : List KernelCall := []
  /-- Whether a call is refused, given how many came before it. -/
  refuses : Nat → KernelCall → Bool := fun _ _ => false

namespace Kernel

def filtersOn (k : Kernel) (hook : Hook) : List FilterId := (k.filters.find? hook).getD []

/-- Logs a call; the error if it is refused. -/
def call (k : Kernel) (c : KernelCall) : Except LinkError Unit × Kernel :=
  (if k.refuses k.calls.length c then .error (c.failure "refused") else .ok (),
    { k with calls := k.calls ++ [c] })

def setFilters (k : Kernel) (hook : Hook) (filters : List FilterId) : Kernel :=
  { k with filters := k.filters.insert hook filters }

def prepare (k : Kernel) (interface : String) : Except LinkError Unit × Kernel :=
  k.call (.prepare interface)

def purge (k : Kernel) (hook : Hook) : Except LinkError Unit × Kernel :=
  match k.call (.purge hook) with
  | (.ok _, k) => (.ok (), k.setFilters hook [])
  | refused => refused

/-- Adds a filter that has not been there before. -/
def attach (k : Kernel) (hook : Hook) : Except LinkError FilterId × Kernel :=
  match k.call (.attach hook) with
  | (.ok _, k) =>
    let id := k.nextFilter
    (.ok id, { k.setFilters hook (k.filtersOn hook ++ [id]) with nextFilter := id + 1 })
  | (.error e, k) => (.error e, k)

def detach (k : Kernel) (hook : Hook) (id : FilterId) : Except LinkError Unit × Kernel :=
  match k.call (.detach hook) with
  | (.ok _, k) =>
    if (k.filtersOn hook).contains id then
      (.ok (), k.setFilters hook ((k.filtersOn hook).filter (· ≠ id)))
    else (.error ((KernelCall.detach hook).failure "link not found"), k)
  | refused => refused

def occupied (k : Kernel) : List (Hook × Nat) :=
  let used := k.filters.entries.filter fun (_, filters) => !filters.isEmpty
  (used.map fun (hook, filters) => (hook, filters.length)).mergeSort fun a b => a.1.le b.1

end Kernel
end FlowObserver
