import FlowObserver.Proofs.ServiceMap.Window

/-!
# The edges of a window add up

Each flow between known workloads belongs to one edge, and is counted there as one request and as
one outcome. So the requests of all edges are the flows of the window. A bucket is opened only by a
record in its second; as long as all records lie within the retention of one another, none is
dropped, and any window that covers them sees them all.
-/

namespace FlowObserver
namespace ServiceMap

def identified (e : FlowEvent) : Bool := e.source.isSome && e.destination.isSome

theorem isSome_ofEvent? (e : FlowEvent) : (EdgeKey.ofEvent? e).isSome = identified e := by
  unfold EdgeKey.ofEvent? identified
  cases e.source <;> cases e.destination <;> rfl

/-- The edges count each flow between known workloads once, as a success or as a failure. -/
structure Tallies (edges : List Edge) (events : List FlowEvent) : Prop where
  requests : (edges.map (·.counts.requests)).sum = events.countP identified
  outcomes : ∀ edge ∈ edges, edge.counts.successes + edge.counts.failures = edge.counts.requests

/-- Counted key by key, the elements of a list are as many as they are. -/
theorem sum_count_eq_length {α : Type} [DecidableEq α] {keys xs : List α} (hkeys : keys.Nodup)
    (hmem : ∀ x, x ∈ keys ↔ x ∈ xs) : (keys.map fun key => xs.count key).sum = xs.length := by
  have hperm : keys.Perm xs.dedup := by
    rw [List.perm_ext_iff_of_nodup hkeys xs.nodup_dedup]
    intro x
    rw [hmem, List.mem_dedup]
  rw [(hperm.map _).sum_eq, List.sum_map_count_dedup_eq_length]

theorem Counts.successes_add_failures (flows : List FlowEvent) :
    (ofFlows flows).successes + (ofFlows flows).failures = (ofFlows flows).requests := by
  induction flows using List.reverseRecOn with
  | nil => rfl
  | append_singleton flows e ih =>
    rw [ofFlows_concat]
    cases e.flow.verdict <;> simp only [add, ofVerdict] <;> omega

namespace Buckets

def keysWithin (log : List (FlowEvent × Nat)) (window now : Nat) : List EdgeKey :=
  (log.filter fun r => within window now r.2).filterMap fun r => EdgeKey.ofEvent? r.1

variable {log : List (FlowEvent × Nat)} {window now : Nat} {retention : Duration}

theorem length_flowsOf (log : List (FlowEvent × Nat)) (window now : Nat) (key : EdgeKey) :
    (flowsOf log window now key).length = (keysWithin log window now).count key := by
  rw [flowsOf, List.length_map, keysWithin, List.count_filterMap, List.countP_filter,
    ← List.countP_eq_length_filter]
  exact List.countP_congr fun r _ => by simp

theorem length_keysWithin (log : List (FlowEvent × Nat)) (window now : Nat) :
    (keysWithin log window now).length =
      ((log.filter fun r => within window now r.2).map (·.1)).countP identified := by
  rw [keysWithin, List.length_filterMap_eq_countP, List.countP_map]
  exact List.countP_congr fun r _ => by rw [isSome_ofEvent?]; rfl

theorem nodup_keys_edges (x : Buckets) (window now : Nat) :
    ((x.edges window now).map (·.key)).Nodup := by
  have hsorted := x.edges_sorted window now
  rw [List.pairwise_map] at hsorted
  refine List.pairwise_map.mpr (hsorted.imp fun {a b} hlt hsame => ?_)
  rw [hsame] at hlt
  exact List.lt_irrefl _ hlt

/-- The edges of a window that reaches back no further than the retention count its flows. -/
theorem tallies_recordAll
    (hreach : ∀ r ∈ log, r.2 - max 1 retention.seconds ≤ now - (window - 1)) :
    Tallies (((ofRetention retention).recordAll log).edges window now)
      ((log.filter fun r => within window now r.2).map (·.1)) := by
  have hedges := mem_edges_recordAll retention hreach
  have hflows := mem_keys_edges_recordAll retention hreach
  have hnodup := nodup_keys_edges ((ofRetention retention).recordAll log) window now
  generalize ((ofRetention retention).recordAll log).edges window now = edges
    at hedges hflows hnodup ⊢
  have hcounts : ∀ edge ∈ edges, edge.counts.requests =
      (keysWithin log window now).count edge.key := by
    intro edge hedge
    rw [((hedges edge).mp hedge).2, ← length_flowsOf]
    rfl
  have hkeys : ∀ key, key ∈ edges.map (·.key) ↔ key ∈ keysWithin log window now := by
    intro key
    rw [hflows, ← List.count_pos_iff, ← length_flowsOf, List.length_pos_iff]
  constructor
  · rw [List.map_congr_left hcounts, ← length_keysWithin, ← sum_count_eq_length hnodup hkeys,
      List.map_map]
    rfl
  · intro edge hedge
    rw [((hedges edge).mp hedge).2]
    exact Counts.successes_add_failures _

theorem exists_mem_of_mem_recordAll {b : Bucket}
    (hb : b ∈ ((ofRetention retention).recordAll log).list) : ∃ r ∈ log, r.2 = b.second := by
  induction log using List.reverseRecOn generalizing b with
  | nil => exact absurd hb List.not_mem_nil
  | append_singleton log r ih =>
    rw [recordAll_concat] at hb
    set x := (ofRetention retention).recordAll log
    have hbefore : b ∈ x.list → ∃ r' ∈ log ++ [r], r'.2 = b.second := by
      intro h
      obtain ⟨r', hr', hsecond⟩ := ih h
      exact ⟨r', List.mem_append_left _ hr', hsecond⟩
    cases hkey : EdgeKey.ofEvent? r.1 with
    | none =>
      rw [x.record_of_unidentified r.1 r.2 hkey] at hb
      exact hbefore hb
    | some key =>
      obtain ⟨front, last, hsecond, hlist, hrecord⟩ := x.exists_record r.1 r.2 hkey
      rw [hrecord, List.mem_append, List.mem_singleton] at hb
      rcases hb with hb | rfl
      · have hfront : b ∈ front := (List.dropWhile_suffix _).subset hb
        apply hbefore
        rcases hlist with hlist | ⟨hlist, -⟩
        · exact hlist ▸ List.mem_append_left _ hfront
        · exact hlist ▸ hfront
      · exact ⟨r, List.mem_append_right _ (List.mem_singleton_self r), hsecond.symm⟩

/-- A window that covers all records sees every bucket. -/
theorem inWindow_eq_list {first last : Nat} (hlog : ∀ r ∈ log, first ≤ r.2 ∧ r.2 ≤ last)
    (hfirst : now - (window - 1) ≤ first) (hlast : last ≤ now) :
    ((ofRetention retention).recordAll log).inWindow window now =
      ((ofRetention retention).recordAll log).list := by
  rw [inWindow, List.filter_eq_self]
  intro b hb
  obtain ⟨r, hr, hsecond⟩ := exists_mem_of_mem_recordAll hb
  have hbounds := hlog r hr
  rw [Bool.and_eq_true, decide_eq_true_iff, decide_eq_true_iff]
  omega

/-- If all records lie within the retention of one another, a window that covers them counts them,
however far it reaches. -/
theorem tallies_of_covers {first last : Nat} (hlog : ∀ r ∈ log, first ≤ r.2 ∧ r.2 ≤ last)
    (hkept : last ≤ first + max 1 retention.seconds) (hfirst : now - (window - 1) ≤ first)
    (hlast : last ≤ now) :
    Tallies (((ofRetention retention).recordAll log).edges window now) (log.map (·.1)) := by
  -- the narrowest window that covers them reaches back no further than the retention
  have hnarrow : Tallies (((ofRetention retention).recordAll log).edges (last - first + 1) last)
      ((log.filter fun r => within (last - first + 1) last r.2).map (·.1)) := by
    apply tallies_recordAll
    intro r hr
    have hbounds := hlog r hr
    omega
  have hall : (log.filter fun r => within (last - first + 1) last r.2) = log := by
    rw [List.filter_eq_self]
    intro r hr
    have hbounds := hlog r hr
    rw [within, Bool.and_eq_true, decide_eq_true_iff, decide_eq_true_iff]
    omega
  have hsame : ((ofRetention retention).recordAll log).edges window now =
      ((ofRetention retention).recordAll log).edges (last - first + 1) last := by
    unfold edges
    rw [inWindow_eq_list hlog hfirst hlast, inWindow_eq_list hlog (by omega) le_rfl]
  rwa [hsame, ← congrArg (List.map _) hall]

end Buckets
end ServiceMap
end FlowObserver
