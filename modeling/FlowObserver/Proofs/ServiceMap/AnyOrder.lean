import FlowObserver.Proofs.ServiceMap.Totals
import Mathlib.Data.List.MinMax

/-!
# Times in any order

The seconds of a log need not go up. Then one second may have several buckets, and the first bucket
may be newer than later ones, so that older buckets stay behind it. The edges of a window do not
tell: as long as the window reaches back no further than the retention does from the latest second,
they are those of the log.
-/

namespace FlowObserver
namespace ServiceMap
namespace Buckets

/-- The first of the `window` seconds that end with `now`; a window has at least one. -/
def oldest (window now : Nat) : Nat := now - (max window 1 - 1)

/-- The greatest second of a log, wherever in the log it stands. -/
def latest (log : List (FlowEvent × Nat)) : Nat := (log.map (·.2)).foldr max 0

/-- Whether a record is of a flow of this key in one of the `window` seconds that end with `now`. -/
abbrev Counted (window now : Nat) (key : EdgeKey) (r : FlowEvent × Nat) : Prop :=
  EdgeKey.ofEvent? r.1 = some key ∧ oldest window now ≤ r.2 ∧ r.2 ≤ now

variable {log : List (FlowEvent × Nat)} {window now : Nat} {key : EdgeKey}

theorem le_latest {r : FlowEvent × Nat} (h : r ∈ log) : r.2 ≤ latest log :=
  List.le_max_of_le' 0 (List.mem_map_of_mem h) le_rfl

theorem flowsOf_eq (log : List (FlowEvent × Nat)) (window now : Nat) (key : EdgeKey) :
    flowsOf log window now key = (log.filter (Counted window now key)).map (·.1) := by
  have holdest : oldest window now = now - (window - 1) := by
    unfold oldest
    omega
  rw [flowsOf]
  congr 1
  refine List.filter_congr fun r _ => ?_
  simp [Counted, within, holdest]

theorem requests_flowsOf :
    (Counts.ofFlows (flowsOf log window now key)).requests = log.countP (Counted window now key) := by
  change (flowsOf log window now key).length = _
  rw [flowsOf_eq, List.length_map, List.countP_eq_length_filter]

theorem countP_flowsOf (verdict : Verdict) :
    (flowsOf log window now key).countP (·.flow.verdict = verdict) =
      log.countP fun r => Counted window now key r ∧ r.1.flow.verdict = verdict := by
  rw [flowsOf_eq, List.countP_map, List.countP_filter]
  refine List.countP_congr fun r _ => ?_
  simp [and_comm]

theorem flowsOf_ne_nil_iff :
    flowsOf log window now key ≠ [] ↔ ∃ r ∈ log, Counted window now key r := by
  rw [flowsOf_eq, ne_eq, List.map_eq_nil_iff, List.filter_eq_nil_iff]
  simp

/-- In whatever order the times come, the edges of a window that begins no earlier than the
retention before the latest of them are exactly those of the flows that were recorded in its seconds,
one for each key and in the order of the keys, with as many requests, successes and failures as there
are flows, forwarded ones and dropped ones. -/
theorem edges_recordAll_any_order (retention : Duration) (log : List (FlowEvent × Nat))
    (window now : Nat) (hreach : latest log - max 1 retention.seconds ≤ oldest window now) :
    let edges := ((ofRetention retention).recordAll log).edges window now
    (edges.map (·.key.texts)).Pairwise (· < ·) ∧
    (∀ key, key ∈ edges.map (·.key) ↔ ∃ r ∈ log, Counted window now key r) ∧
    ∀ edge ∈ edges,
      edge.counts.requests = log.countP (Counted window now edge.key) ∧
      edge.counts.successes = log.countP (fun r =>
        Counted window now edge.key r ∧ r.1.flow.verdict = .forwarded) ∧
      edge.counts.failures = log.countP (fun r =>
        Counted window now edge.key r ∧ r.1.flow.verdict = .dropped) ∧
      edge.counts.requests = edge.counts.successes + edge.counts.failures ∧
      1 ≤ edge.counts.requests := by
  intro edges
  have hwindow : ∀ r ∈ log, r.2 - max 1 retention.seconds ≤ now - (window - 1) := by
    intro r hr
    have hlatest := le_latest hr
    unfold oldest at hreach
    omega
  refine ⟨edges_sorted _ window now, ?_, ?_⟩
  · intro key
    rw [mem_keys_edges_recordAll retention hwindow, flowsOf_ne_nil_iff]
  · intro edge hedge
    obtain ⟨hflows, hcounts⟩ := (mem_edges_recordAll retention hwindow edge).mp hedge
    rw [hcounts]
    exact ⟨requests_flowsOf, countP_flowsOf .forwarded, countP_flowsOf .dropped,
      (Counts.successes_add_failures _).symm, List.length_pos_iff.mpr hflows⟩

def purchase (verdict : Verdict) : FlowEvent where
  flow := ⟨⟨0x0A000005, 0x0A000009, 43210, 5432, 6⟩, verdict, 0, false⟩
  source := some { name := "shop-1", namespaceName := "default", ownerName := some "shop" }
  destination := some { name := "store-0", namespaceName := "default" }

/-- Seconds that go back and forth, and one that was too old when it came. -/
def straggling : List (FlowEvent × Nat) :=
  [(purchase .forwarded, 9), (purchase .dropped, 7), (purchase .forwarded, 3),
    (purchase .forwarded, 9), (purchase .forwarded, 7)]

theorem edges_recordAll_any_order_straggling :
    latest straggling - max 1 (Duration.ofSeconds 2).seconds ≤ oldest 2 8 ∧
      ∃ edge ∈ ((ofRetention (.ofSeconds 2)).recordAll straggling).edges 2 8,
        edge.key = ⟨"shop", "default", "store-0", "default", "TCP"⟩ ∧
        edge.counts.requests = 2 ∧ edge.counts.successes = 1 ∧ edge.counts.failures = 1 := by
  have hreach : latest straggling - max 1 (Duration.ofSeconds 2).seconds ≤ oldest 2 8 := by decide
  obtain ⟨-, hkeys, hcounts⟩ := edges_recordAll_any_order (.ofSeconds 2) straggling 2 8 hreach
  have hkey := (hkeys ⟨"shop", "default", "store-0", "default", "TCP"⟩).mpr
    ⟨(purchase .dropped, 7), by decide, by decide⟩
  obtain ⟨edge, hedge, hsame⟩ := List.mem_map.mp hkey
  obtain ⟨hrequests, hsuccesses, hfailures, -⟩ := hcounts edge hedge
  rw [hsame] at hrequests hsuccesses hfailures
  exact ⟨hreach, edge, hedge, hsame, hrequests.trans (by decide), hsuccesses.trans (by decide),
    hfailures.trans (by decide)⟩

end Buckets
end ServiceMap
end FlowObserver
