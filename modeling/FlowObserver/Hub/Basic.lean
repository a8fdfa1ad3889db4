import FlowObserver.Flow.Filter
import FlowObserver.Table

/-!
# Fan-out to subscribers

A hub hands every published event to each registered subscription whose filter accepts it. Each
subscription has a bounded queue of its own: when that is full the event is lost for this
subscription alone, and is counted there.

A subscription is *registered* as long as the hub delivers to it and *held* as long as its
consumer keeps the queue. Closing the hub ends the first and leaves the second, so that the
consumer still drains what is queued. Subscribing and publishing are made of two steps each, which
other operations may come between.
-/

namespace FlowObserver

abbrev SubscriptionId := Nat

structure Queue where
  capacity : Nat
  pending : List FlowEvent := []
  dropped : Nat := 0
  deriving DecidableEq, Repr

namespace Queue

/-- A queue holds at least one event. -/
def ofCapacity (capacity : Nat) : Queue := { capacity := max capacity 1 }

def isFull (q : Queue) : Bool := q.capacity ≤ q.pending.length

def offer (q : Queue) (e : FlowEvent) : Queue :=
  if q.isFull then { q with dropped := q.dropped + 1 } else { q with pending := q.pending ++ [e] }

end Queue

inductive Received where
  | event (e : FlowEvent)
  | pending
  | ended
  deriving DecidableEq, Repr

structure Hub where
  nextId : SubscriptionId := 0
  closed : Bool := false
  registered : Table SubscriptionId FlowFilter := .empty
  held : Table SubscriptionId Queue := .empty

namespace Hub

instance : Inhabited Hub := ⟨{}⟩

def subscriberCount (h : Hub) : Nat := h.registered.size

def dropped? (h : Hub) (id : SubscriptionId) : Option Nat := (h.held.find? id).map (·.dropped)

/-- First step: takes an identifier. -/
def allocate (h : Hub) : SubscriptionId × Hub := (h.nextId, { h with nextId := h.nextId + 1 })

/-- Second step: registers the identifier, unless the hub is closed. The queue is held either way. -/
def register (h : Hub) (id : SubscriptionId) (filter : FlowFilter) (capacity : Nat) : Hub :=
  { h with
    registered := if h.closed then h.registered else h.registered.insert id filter
    held := h.held.insert id (.ofCapacity capacity) }

def subscribe (h : Hub) (filter : FlowFilter) (capacity : Nat) : SubscriptionId × Hub :=
  let (id, h) := h.allocate
  (id, h.register id filter capacity)

def unregister (h : Hub) (id : SubscriptionId) : Hub :=
  { h with registered := h.registered.erase id }

/-- The consumer gives its queue away, and with it the registration. -/
def release (h : Hub) (id : SubscriptionId) : Hub :=
  { h.unregister id with held := h.held.erase id }

def wants (h : Hub) (id : SubscriptionId) (e : FlowEvent) : Bool :=
  match h.registered.find? id with
  | some filter => filter.accepts e
  | none => false

/-- First step: offers the event to every queue that wants it. -/
def offer (h : Hub) (e : FlowEvent) : Hub :=
  { h with held := h.held.mapValues fun id q => if h.wants id e then q.offer e else q }

/-- Registrations that want the event and whose queue is gone. -/
def orphans (h : Hub) (e : FlowEvent) : List SubscriptionId :=
  h.registered.keys.filter fun id => h.wants id e && !h.held.contains id

/-- Second step: removes the registrations that were found without a queue. -/
def removeAll (h : Hub) (ids : List SubscriptionId) : Hub := ids.foldl unregister h

def publish (h : Hub) (e : FlowEvent) : Hub := (h.offer e).removeAll (h.orphans e)

/-- The oldest queued event; the end once the queue is empty and nothing more can come. -/
def receive (h : Hub) (id : SubscriptionId) : Received × Hub :=
  match h.held.find? id with
  | none => (.ended, h)
  | some q =>
    match q.pending with
    | e :: rest => (.event e, { h with held := h.held.insert id { q with pending := rest } })
    | [] => (if h.registered.contains id then .pending else .ended, h)

/-- No subscription receives anything from now on; later ones end at once. -/
def closeAll (h : Hub) : Hub := { h with closed := true, registered := .empty }

end Hub
end FlowObserver
