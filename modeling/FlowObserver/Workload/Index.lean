import FlowObserver.Workload.Basic
import FlowObserver.Table

/-!
# The workload index

Which workload owns an address right now. A second table remembers the last address each pod was
seen with, so that a pod that moves or vanishes releases its old address; an address that another
pod has taken over in the meantime is left alone when a pod moves.
-/

namespace FlowObserver

inductive PodEvent where
  | upsert (pod : Pod)
  | delete (pod : Pod)
  /-- The full listing after a connect; it replaces everything. -/
  | relisted (pods : List Pod)

structure WorkloadIndex where
  owners : Table Net.Address Workload := .empty
  lastAddress : Table PodKey Net.Address := .empty

namespace WorkloadIndex

def lookup (x : WorkloadIndex) (a : Net.Address) : Option Workload := x.owners.find? a

def size (x : WorkloadIndex) : Nat := x.owners.size

/-- Gives up `address` if `key` still owns it. -/
def release (x : WorkloadIndex) (key : PodKey) (address : Net.Address) : WorkloadIndex :=
  match x.owners.find? address with
  | some w => if w.key = key then { x with owners := x.owners.erase address } else x
  | none => x

/-- The address that an upsert takes away from the pod, if it had another one before. -/
def movedFrom (x : WorkloadIndex) (pod : Pod) : Option Net.Address :=
  match x.lastAddress.find? pod.key with
  | some previous => if pod.address = some previous then none else some previous
  | none => none

/-- Binds the pod's address, or forgets the pod when it has none. -/
def bind (x : WorkloadIndex) (pod : Pod) : WorkloadIndex :=
  match pod.address with
  | some a =>
    { owners := x.owners.insert a pod.workload, lastAddress := x.lastAddress.insert pod.key a }
  | none => { x with lastAddress := x.lastAddress.erase pod.key }

def upsert (x : WorkloadIndex) (pod : Pod) : WorkloadIndex :=
  match x.movedFrom pod with
  | some previous => (x.release pod.key previous).bind pod
  | none => x.bind pod

/-- The address a delete is about: the pod's own, else the last one it was seen with. -/
def vacated (x : WorkloadIndex) (pod : Pod) : Option Net.Address :=
  pod.address <|> x.lastAddress.find? pod.key

def delete (x : WorkloadIndex) (pod : Pod) : WorkloadIndex :=
  { owners := match x.vacated pod with
      | some a => x.owners.erase a
      | none => x.owners
    lastAddress := x.lastAddress.erase pod.key }

/-- Binds every listed pod that has an address, then drops what the listing does not name. -/
def relist (x : WorkloadIndex) (pods : List Pod) : WorkloadIndex :=
  let addressed := pods.filter (·.address.isSome)
  let bound := addressed.foldl bind x
  { owners := bound.owners.filter fun a _ => addressed.any (·.address = some a)
    lastAddress := bound.lastAddress.filter fun k _ => addressed.any (·.key = k) }

def apply (x : WorkloadIndex) : PodEvent → WorkloadIndex
  | .upsert pod => x.upsert pod
  | .delete pod => x.delete pod
  | .relisted pods => x.relist pods

end WorkloadIndex
end FlowObserver
