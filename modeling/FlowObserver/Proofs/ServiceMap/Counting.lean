import FlowObserver.ServiceMap.Basic
import Mathlib.Tactic

/-!
# What a window of buckets counts

A record counts one flow in the last bucket, after it opened that bucket where it was missing and
dropped others at the front. What is dropped is older than the retention allows. So the window of a
query counts exactly the flows that were recorded in its seconds, as long as it reaches back no
further than the retention; in which order the times came has no part in this.
-/

namespace FlowObserver

namespace Text

variable {a b c : List String}

theorem listLe_iff : listLe a b = true ↔ ¬b < a := by
  induction a generalizing b with
  | nil => exact iff_of_true rfl (List.not_lt_nil b)
  | cons x a ih =>
    cases b with
    | nil => exact iff_of_false Bool.false_ne_true (not_not_intro (List.nil_lt_cons _ _))
    | cons y b =>
      rw [listLe, Bool.or_eq_true, Bool.and_eq_true, decide_eq_true_iff, decide_eq_true_iff, ih,
        List.cons_lt_cons_iff]
      by_cases hxy : x < y
      · have hne : y ≠ x := fun h => String.lt_irrefl x (h ▸ hxy)
        simp [hxy, hne, String.lt_asymm hxy]
      · by_cases hyx : y < x
        · have hne : x ≠ y := fun h => String.lt_irrefl x (h ▸ hyx)
          simp [hxy, hyx, hne]
        · obtain rfl : x = y :=
            String.le_antisymm (String.not_lt.mp hyx) (String.not_lt.mp hxy)
          simp only [String.lt_irrefl, false_or, true_and]

theorem listLe_trans (hab : listLe a b = true) (hbc : listLe b c = true) : listLe a c = true := by
  rw [listLe_iff, List.not_lt] at *
  exact List.le_trans hab hbc

theorem listLe_total : (listLe a b || listLe b a) = true := by
  rw [Bool.or_eq_true, listLe_iff, listLe_iff, List.not_lt, List.not_lt]
  exact List.le_total a b

end Text

namespace ServiceMap

theorem EdgeKey.texts_injective {a b : EdgeKey} (h : a.texts = b.texts) : a = b := by
  cases a
  cases b
  simpa [texts] using h

theorem nodup_eraseDups {α : Type} [DecidableEq α] (xs : List α) : xs.eraseDups.Nodup := by
  match xs with
  | [] => exact List.nodup_nil
  | x :: rest =>
    rw [List.eraseDups_cons, List.nodup_cons]
    exact ⟨by simp, nodup_eraseDups _⟩
termination_by xs.length
decreasing_by exact Nat.lt_succ_of_le (List.length_filter_le _ _)

namespace Buckets

/-- The keys of the edges are in strict order, so that no key has two edges. -/
theorem edges_sorted (x : Buckets) (window now : Nat) :
    ((x.edges window now).map (·.key.texts)).Pairwise (· < ·) := by
  unfold edges
  dsimp only
  rw [List.map_map, List.pairwise_map]
  set keys := ((x.inWindow window now).flatMap (·.edges.keys)).eraseDups with hkeys
  have hle : (keys.mergeSort EdgeKey.le).Pairwise fun a b => a.le b = true := by
    apply List.pairwise_mergeSort
    · exact fun a b c => Text.listLe_trans
    · exact fun a b => Text.listLe_total
  have hne : (keys.mergeSort EdgeKey.le).Nodup := List.nodup_mergeSort.mpr (nodup_eraseDups _)
  refine (hle.and hne).imp fun {a b} h => ?_
  obtain ⟨hab, hdiffer⟩ := h
  rw [EdgeKey.le, Text.listLe_iff, List.not_lt] at hab
  by_contra hnot
  rw [Function.comp_apply, Function.comp_apply, List.not_lt] at hnot
  exact hdiffer (EdgeKey.texts_injective (List.le_antisymm hab hnot))

end Buckets

namespace Counts

/-- How many flows there are, how many of them were let through and how many were not. -/
def ofFlows (flows : List FlowEvent) : Counts where
  requests := flows.length
  successes := flows.countP (·.flow.verdict = .forwarded)
  failures := flows.countP (·.flow.verdict = .dropped)

theorem add_empty (a : Counts) : a.add {} = a := rfl

theorem add_assoc (a b c : Counts) : (a.add b).add c = a.add (b.add c) := by
  simp [add, Nat.add_assoc]

theorem ofFlows_concat (flows : List FlowEvent) (e : FlowEvent) :
    ofFlows (flows ++ [e]) = (ofFlows flows).add (ofVerdict e.flow.verdict) := by
  cases h : e.flow.verdict <;> simp [ofFlows, add, ofVerdict, h]

end Counts

namespace Buckets

theorem total_concat (buckets : List Bucket) (b : Bucket) (key : EdgeKey) :
    total (buckets ++ [b]) key = (total buckets key).add ((b.edges.find? key).getD {}) := by
  rw [total, List.foldl_append]
  rfl

theorem find?_count (b : Bucket) (key other : EdgeKey) (verdict : Verdict) :
    ((b.count key verdict).edges.find? other).getD {} =
      ((b.edges.find? other).getD {}).add (if other = key then .ofVerdict verdict else {}) := by
  rw [Bucket.count, Table.find?_insert]
  split_ifs with h
  · rw [h]
    rfl
  · rfl

theorem mem_keys_count (b : Bucket) (key other : EdgeKey) (verdict : Verdict) :
    other ∈ (b.count key verdict).edges.keys ↔ other ∈ b.edges.keys ∨ other = key := by
  rw [← not_iff_not, ← Table.find?_eq_none_iff, Bucket.count, Table.find?_insert, not_or,
    ← Table.find?_eq_none_iff]
  split_ifs with h <;> simp [h]

variable (x : Buckets) (e : FlowEvent) (now : Nat)

theorem updateLast_concat (f : Bucket → Bucket) (front : List Bucket) (b : Bucket) :
    updateLast f (front ++ [b]) = front ++ [f b] := by
  induction front with
  | nil => rfl
  | cons first rest ih =>
    rw [List.cons_append, List.cons_append, ← ih]
    cases rest <;> rfl

theorem exists_opened (list : List Bucket) :
    ∃ front b, opened now list = front ++ [b] ∧ b.second = now ∧
      (list = front ++ [b] ∨ list = front ∧ b.edges = .empty) := by
  unfold opened
  cases hlast : list.getLast? with
  | none =>
    rw [List.getLast?_eq_none_iff] at hlast
    exact ⟨[], _, rfl, rfl, .inr ⟨hlast, rfl⟩⟩
  | some last =>
    obtain ⟨front, rfl⟩ := List.getLast?_eq_some_iff.mp hlast
    dsimp only
    split_ifs with hsecond
    · exact ⟨front, last, rfl, hsecond, .inl rfl⟩
    · exact ⟨_, _, rfl, rfl, .inr ⟨rfl, rfl⟩⟩

/-- The bucket for the present is never dropped. -/
theorem prune_concat (retention : Nat) (front : List Bucket) {b : Bucket} (h : b.second = now) :
    prune now retention (front ++ [b]) = prune now retention front ++ [b] := by
  unfold prune
  have hkept : ¬b.second < now - retention := by omega
  rw [List.dropWhile_append]
  split_ifs with hempty
  · rw [List.isEmpty_iff.mp hempty]
    simp [hkept]
  · rfl

theorem record_of_unidentified (h : EdgeKey.ofEvent? e = none) : x.record e now = x := by
  rw [record, h]

/-- All that a record does: the last bucket, which is for the present, counts the flow, and buckets
at the front may be dropped. -/
theorem exists_record {key : EdgeKey} (h : EdgeKey.ofEvent? e = some key) :
    ∃ front b, b.second = now ∧
      (x.list = front ++ [b] ∨ x.list = front ∧ b.edges = .empty) ∧
      (x.record e now).list = prune now x.retention front ++ [b.count key e.flow.verdict] := by
  obtain ⟨front, b, hopened, hsecond, hlist⟩ := exists_opened now x.list
  refine ⟨front, b, hsecond, hlist, ?_⟩
  rw [record, h]
  dsimp only
  rw [hopened, prune_concat now x.retention front hsecond, updateLast_concat]

theorem retention_record : (x.record e now).retention = x.retention := by
  unfold record
  cases EdgeKey.ofEvent? e <;> rfl

def within (window now second : Nat) : Bool := now - (window - 1) ≤ second && second ≤ now

def visible (window now : Nat) (list : List Bucket) : List Bucket :=
  list.filter fun b => within window now b.second

theorem inWindow_eq (window : Nat) : x.inWindow window now = visible window now x.list := rfl

variable {x e now} {log : List (FlowEvent × Nat)} {window second : Nat} {key : EdgeKey}

theorem visible_concat (list : List Bucket) (b : Bucket) :
    visible window now (list ++ [b]) =
      visible window now list ++ if within window now b.second then [b] else [] := by
  rw [visible, List.filter_append, List.filter_singleton]
  cases within window now b.second <;> rfl

theorem visible_prune {retention : Nat} (hreach : second - retention ≤ now - (window - 1))
    (list : List Bucket) :
    visible window now (prune second retention list) = visible window now list := by
  induction list with
  | nil => rfl
  | cons b rest ih =>
    rw [prune, List.dropWhile_cons]
    split_ifs with hold
    · have hout : ¬within window now b.second = true := by
        simp only [within, Bool.and_eq_true, decide_eq_true_eq] at hold ⊢
        omega
      rw [visible, visible, List.filter_cons, if_neg hout]
      exact ih
    · rfl

theorem exists_inWindow_record (h : EdgeKey.ofEvent? e = some key)
    (hreach : second - x.retention ≤ now - (window - 1)) :
    ∃ seen b,
      (x.inWindow window now = seen ++ (if within window now second then [b] else []) ∨
        x.inWindow window now = seen ∧ b.edges = .empty) ∧
      (x.record e second).inWindow window now =
        seen ++ if within window now second then [b.count key e.flow.verdict] else [] := by
  obtain ⟨front, b, rfl, hlist, hrecord⟩ := x.exists_record e second h
  refine ⟨visible window now front, b, ?_, ?_⟩
  · rw [inWindow_eq, ← visible_concat]
    rcases hlist with hlist | ⟨hlist, hempty⟩
    · exact .inl (congrArg _ hlist)
    · exact .inr ⟨congrArg _ hlist, hempty⟩
  · rw [inWindow_eq, hrecord, visible_concat, visible_prune hreach]
    rfl

/-- The flows of a key that were recorded in the seconds of a window. -/
def flowsOf (log : List (FlowEvent × Nat)) (window now : Nat) (key : EdgeKey) : List FlowEvent :=
  (log.filter fun r => EdgeKey.ofEvent? r.1 = some key && within window now r.2).map (·.1)

theorem flowsOf_concat (log : List (FlowEvent × Nat)) (e : FlowEvent) (second window now : Nat)
    (key : EdgeKey) :
    flowsOf (log ++ [(e, second)]) window now key =
      flowsOf log window now key ++
        if EdgeKey.ofEvent? e = some key ∧ within window now second = true then [e] else [] := by
  rw [flowsOf, flowsOf, List.filter_append, List.map_append]
  congr 1
  by_cases h : EdgeKey.ofEvent? e = some key <;> by_cases hw : within window now second = true <;>
    simp [h, hw]

/-- The window of a query sees the keys and the counts of the flows that were recorded in it. -/
structure Exact (x : Buckets) (log : List (FlowEvent × Nat)) (window now : Nat) : Prop where
  keys : ∀ key, (∃ b ∈ x.inWindow window now, key ∈ b.edges.keys) ↔
    flowsOf log window now key ≠ []
  totals : ∀ key, total (x.inWindow window now) key = .ofFlows (flowsOf log window now key)

theorem Exact.of_same {later : Buckets} {log' : List (FlowEvent × Nat)} (h : Exact x log window now)
    (hsame : later.inWindow window now = x.inWindow window now)
    (hflows : ∀ key, flowsOf log' window now key = flowsOf log window now key) :
    Exact later log' window now :=
  ⟨fun key => by rw [hsame, hflows, h.keys], fun key => by rw [hsame, hflows, h.totals]⟩

theorem Exact.record (h : Exact x log window now)
    (hreach : second - x.retention ≤ now - (window - 1)) :
    Exact (x.record e second) (log ++ [(e, second)]) window now := by
  cases hown : EdgeKey.ofEvent? e with
  | none =>
    rw [x.record_of_unidentified e second hown]
    exact h.of_same rfl fun key => by simp [flowsOf_concat, hown]
  | some own =>
    obtain ⟨seen, b, hbefore, hafter⟩ := exists_inWindow_record hown hreach
    by_cases hw : within window now second = true
    · simp only [hw, if_true] at hbefore hafter
      have hflows : ∀ key, flowsOf (log ++ [(e, second)]) window now key =
          flowsOf log window now key ++ if key = own then [e] else [] := by
        intro key
        simp [flowsOf_concat, hown, hw, eq_comm]
      -- a bucket that was opened for this record has counted nothing so far
      have hkeys : ∀ key, (∃ b' ∈ x.inWindow window now, key ∈ b'.edges.keys) ↔
          (∃ b' ∈ seen, key ∈ b'.edges.keys) ∨ key ∈ b.edges.keys := by
        intro key
        rcases hbefore with hbefore | ⟨hbefore, hempty⟩
        · rw [hbefore]
          simp [or_and_right, exists_or]
        · rw [hbefore, hempty]
          simp [Table.keys, Table.empty]
      have htotals : ∀ key, total (x.inWindow window now) key =
          (total seen key).add ((b.edges.find? key).getD {}) := by
        intro key
        rcases hbefore with hbefore | ⟨hbefore, hempty⟩
        · rw [hbefore, total_concat]
        · rw [hbefore, hempty]
          rfl
      refine ⟨fun key => ?_, fun key => ?_⟩
      · have hadded : ¬(if key = own then [e] else []) = [] ↔ key = own := by
          split_ifs with hkey <;> simp [hkey]
        rw [hafter, hflows, Ne, List.append_eq_nil_iff, not_and_or, hadded, ← Ne, ← h.keys, hkeys]
        simp [or_and_right, exists_or, mem_keys_count, or_assoc]
      · rw [hafter, total_concat, find?_count, ← Counts.add_assoc, ← htotals, h.totals, hflows]
        split_ifs
        · rw [Counts.ofFlows_concat]
        · rw [Counts.add_empty, List.append_nil]
    · rw [if_neg hw, List.append_nil] at hbefore hafter
      refine h.of_same ?_ fun key => by simp [flowsOf_concat, hw]
      rcases hbefore with hbefore | ⟨hbefore, -⟩ <;> rw [hafter, hbefore]

def recordAll (x : Buckets) (log : List (FlowEvent × Nat)) : Buckets :=
  log.foldl (fun x r => x.record r.1 r.2) x

theorem recordAll_concat (x : Buckets) (log : List (FlowEvent × Nat)) (r : FlowEvent × Nat) :
    x.recordAll (log ++ [r]) = (x.recordAll log).record r.1 r.2 :=
  List.foldl_concat ..

theorem retention_recordAll (x : Buckets) (log : List (FlowEvent × Nat)) :
    (x.recordAll log).retention = x.retention := by
  induction log using List.reverseRecOn with
  | nil => rfl
  | append_singleton log r ih => rw [recordAll_concat, retention_record, ih]

theorem exact_recordAll (retention : Duration)
    (hreach : ∀ r ∈ log, r.2 - max 1 retention.seconds ≤ now - (window - 1)) :
    Exact ((ofRetention retention).recordAll log) log window now := by
  induction log using List.reverseRecOn with
  | nil => exact ⟨fun key => by simp [flowsOf, inWindow, recordAll, ofRetention], fun key => rfl⟩
  | append_singleton log r ih =>
    rw [List.forall_mem_append, List.forall_mem_singleton] at hreach
    rw [recordAll_concat]
    refine (ih hreach.1).record ?_
    rw [retention_recordAll]
    exact hreach.2

/-- A window that reaches back no further than the retention has an edge for each key that was
recorded in it, with the counts of its flows. -/
theorem mem_edges_recordAll (retention : Duration)
    (hreach : ∀ r ∈ log, r.2 - max 1 retention.seconds ≤ now - (window - 1)) (edge : Edge) :
    edge ∈ ((ofRetention retention).recordAll log).edges window now ↔
      flowsOf log window now edge.key ≠ [] ∧
        edge.counts = .ofFlows (flowsOf log window now edge.key) := by
  obtain ⟨hkeys, htotals⟩ := exact_recordAll retention hreach
  rw [← hkeys, ← htotals]
  simp only [edges, List.mem_map, List.mem_mergeSort, List.mem_eraseDups, List.mem_flatMap]
  constructor
  · rintro ⟨key, hkey, rfl⟩
    exact ⟨hkey, rfl⟩
  · rintro ⟨hkey, hcounts⟩
    exact ⟨edge.key, hkey, by rw [← hcounts]⟩

theorem mem_keys_edges_recordAll (retention : Duration)
    (hreach : ∀ r ∈ log, r.2 - max 1 retention.seconds ≤ now - (window - 1)) (key : EdgeKey) :
    key ∈ (((ofRetention retention).recordAll log).edges window now).map (·.key) ↔
      flowsOf log window now key ≠ [] := by
  have hedges := mem_edges_recordAll retention hreach
  rw [List.mem_map]
  constructor
  · rintro ⟨edge, hedge, rfl⟩
    exact ((hedges edge).mp hedge).1
  · intro hflows
    exact ⟨⟨key, .ofFlows (flowsOf log window now key)⟩, (hedges _).mpr ⟨hflows, rfl⟩, rfl⟩

end Buckets
end ServiceMap
end FlowObserver
