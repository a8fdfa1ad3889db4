import FlowObserver.ServiceMap.Edge
import FlowObserver.Table
import FlowObserver.Time.Duration

/-!
# Edge counts by the second

Flows are counted in one bucket per second, oldest first. A new record drops the buckets at the
front that are older than the retention allows; a query adds up those inside its window.
-/

namespace FlowObserver
namespace ServiceMap

structure Bucket where
  second : Nat
  edges : Table EdgeKey Counts := .empty

def Bucket.count (b : Bucket) (key : EdgeKey) (verdict : Verdict) : Bucket :=
  { b with edges := b.edges.insert key (((b.edges.find? key).getD {}).add (.ofVerdict verdict)) }

structure Buckets where
  /-- Seconds that a bucket is kept; at least one. -/
  retention : Nat
  list : List Bucket := []

namespace Buckets

def ofRetention (retention : Duration) : Buckets := { retention := max 1 retention.seconds }

/-- Drops buckets from the front as long as they are too old. -/
def prune (now retention : Nat) (list : List Bucket) : List Bucket :=
  list.dropWhile fun b => b.second < now - retention

/-- The list with a bucket for `now` at its end. -/
def opened (now : Nat) (list : List Bucket) : List Bucket :=
  match list.getLast? with
  | some last => if last.second = now then list else list ++ [{ second := now }]
  | none => [{ second := now }]

def updateLast (f : Bucket → Bucket) : List Bucket → List Bucket
  | [] => []
  | [b] => [f b]
  | b :: rest => b :: updateLast f rest

/-- Counts an event in the bucket for second `now`. An event without identity at both ends changes
nothing. -/
def record (x : Buckets) (e : FlowEvent) (now : Nat) : Buckets :=
  match EdgeKey.ofEvent? e with
  | none => x
  | some key =>
    let list := prune now x.retention (opened now x.list)
    { x with list := updateLast (·.count key e.flow.verdict) list }

/-- The buckets of the `window` seconds that end with `now`; a window has at least one. -/
def inWindow (x : Buckets) (window now : Nat) : List Bucket :=
  x.list.filter fun b => now - (window - 1) ≤ b.second && b.second ≤ now

def total (buckets : List Bucket) (key : EdgeKey) : Counts :=
  buckets.foldl (fun sum b => sum.add ((b.edges.find? key).getD {})) {}

/-- One edge per key that occurs in the window, in the order of the keys. -/
def edges (x : Buckets) (window now : Nat) : List Edge :=
  let buckets := x.inWindow window now
  let keys := (buckets.flatMap (·.edges.keys)).eraseDups.mergeSort EdgeKey.le
  keys.map fun key => ⟨key, total buckets key⟩

end Buckets
end ServiceMap
end FlowObserver
