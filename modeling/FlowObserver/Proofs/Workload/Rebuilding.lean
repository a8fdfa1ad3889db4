import FlowObserver.Proofs.Workload.Healing
import FlowObserver.Proofs.Workload.History
import FlowObserver.Workload.Signals

/-!
# A listing builds the index anew

A listing that names each pod at most once leaves the very bindings that its pods would leave if
they were added one by one to an empty index, whatever the index held before. Nothing tells the two
indexes apart later, neither by what they hold nor by what they tell.
-/

namespace FlowObserver

section

variable {κ ν : Type} [DecidableEq κ] {t u : Table κ ν}

theorem Table.mem_entries_iff (t : Table κ ν) (k : κ) (v : ν) :
    (k, v) ∈ t.entries ↔ t.find? k = some v := by
  obtain ⟨entries, hnodup⟩ := t
  induction entries with
  | nil => simp [find?]
  | cons e rest ih =>
    obtain ⟨k', v'⟩ := e
    obtain ⟨hnot, hrest⟩ := List.nodup_cons.mp hnodup
    have ih := ih hrest
    simp only [find?, List.lookup_cons, List.mem_cons, Prod.mk.injEq] at ih ⊢
    by_cases hk : k = k'
    · subst hk
      have hmem : (k, v) ∉ rest := fun hmem => hnot (List.mem_map.mpr ⟨_, hmem, rfl⟩)
      simp [hmem, eq_comm]
    · simp [hk, beq_eq_false_iff_ne.mpr hk, ih]

/-- Tables in which the same is found have the same entries, but for the order. -/
theorem Table.perm_of_find?_eq (h : ∀ k, t.find? k = u.find? k) : t.entries.Perm u.entries := by
  rw [List.perm_ext_iff_of_nodup (t.nodup.of_map _) (u.nodup.of_map _)]
  rintro ⟨k, v⟩
  rw [Table.mem_entries_iff, Table.mem_entries_iff, h]

end

namespace WorkloadIndex

/-- Both bind the same addresses and the same pods, to the same. -/
structure SameEntries (x y : WorkloadIndex) : Prop where
  owners : x.owners.entries.Perm y.owners.entries
  lastAddress : x.lastAddress.entries.Perm y.lastAddress.entries

variable {x y : WorkloadIndex}

theorem Alike.sameEntries (h : x.Alike y) : x.SameEntries y :=
  ⟨Table.perm_of_find?_eq h.lookup, Table.perm_of_find?_eq h.lastAddress⟩

theorem Alike.lookingUp_eq (h : x.Alike y) (a : Net.Address) : x.lookingUp a = y.lookingUp a := by
  rw [lookingUp, lookingUp, h.lookup]

/-- Indexes that nothing tells apart tell the same of a change. -/
theorem Alike.signals_applying (h : x.Alike y) (e : PodEvent) :
    (x.applying e).signals = (y.applying e).signals := by
  have hsize : (x.apply e).size = (y.apply e).size := (h.apply e).sameEntries.owners.length_eq
  have hchange : x.changeSignals e = y.changeSignals e := by
    cases e with
    | upsert pod => rw [changeSignals, changeSignals, movedFrom, movedFrom, h.lastAddress]
    | delete pod => rw [changeSignals, changeSignals, vacated, vacated, h.lastAddress]
    | relisted pods => rfl
  rw [applying, applying, hchange, hsize]

theorem Alike.replay_later (h : x.Alike y) (later : List PodEvent) :
    (later.foldl WorkloadIndex.apply x).Alike (later.foldl WorkloadIndex.apply y) := by
  induction later generalizing x y with
  | nil => exact h
  | cons e rest ih => exact ih (h.apply e)

theorem upsert_of_unseen {pod : Pod} (h : x.lastAddress.find? pod.key = none) :
    x.upsert pod = x.bind pod := by
  rw [upsert, movedFrom, h]

/-- Each pod comes to an index that has not seen it, so no address is given up on the way. -/
theorem replay_upserts {pods : List Pod} (honce : (pods.map Pod.key).Nodup) :
    (∀ a, (replay (pods.map .upsert)).lookup a = (listedAt pods a).map (·.workload)) ∧
      ∀ key, (replay (pods.map .upsert)).lastAddress.find? key = listedAddress pods key := by
  induction pods using List.reverseRecOn with
  | nil => exact ⟨fun a => rfl, fun key => rfl⟩
  | append_singleton pods pod ih =>
    obtain ⟨honce, hnew⟩ := once_of_concat honce
    obtain ⟨hlookup, hlast⟩ := ih honce
    have hunseen : (replay (pods.map .upsert)).lastAddress.find? pod.key = none := by
      rw [hlast, listedAddress_eq_none hnew]
    rw [List.map_append, List.map_singleton, replay_concat, apply, upsert_of_unseen hunseen]
    constructor
    · intro a
      rw [lookup_bind, hlookup, listedAt_concat]
      split_ifs <;> rfl
    · intro key
      rw [lastAddress_bind, hlast, listedAddress_concat hnew]

theorem alike_rebuilt (x : WorkloadIndex) {pods : List Pod} (honce : (pods.map Pod.key).Nodup) :
    (x.relist pods).Alike (replay (pods.map .upsert)) := by
  obtain ⟨hlookup, hlast⟩ := replay_upserts honce
  constructor
  · intro a
    rw [lookup_relist, hlookup]
  · intro key
    rw [lastAddress_relist, hlast]

/-- After a listing that names each pod at most once, both tables hold what they would hold if its
pods had been added to an empty index in this order: an address leads to the last pod that is listed
there, and a pod was last seen where it is listed, or nowhere. Whatever comes later leaves the same
entries in both, and tells the same of both. -/
theorem relist_eq_rebuild (x : WorkloadIndex) {pods : List Pod}
    (honce : (pods.map Pod.key).Nodup) :
    let relisted := x.apply (.relisted pods)
    let rebuilt := replay (pods.map .upsert)
    relisted.SameEntries rebuilt ∧
    (∀ a, relisted.lookup a = (listedAt pods a).map (·.workload)) ∧
    (∀ pod ∈ pods, relisted.lastAddress.find? pod.key = pod.address) ∧
    (∀ key, key ∉ pods.map Pod.key → relisted.lastAddress.find? key = none) ∧
    ∀ later : List PodEvent,
      let y := later.foldl apply relisted
      let z := later.foldl apply rebuilt
      y.SameEntries z ∧ (∀ a, y.lookingUp a = z.lookingUp a) ∧
        ∀ e, (y.applying e).signals = (z.applying e).signals := by
  intro relisted rebuilt
  have halike : relisted.Alike rebuilt := alike_rebuilt x honce
  refine ⟨halike.sameEntries, fun a => x.lookup_relist a pods, fun pod hpod => ?_,
    fun key hkey => ?_, fun later => ?_⟩
  · exact (x.lastAddress_relist pod.key pods).trans (listedAddress_of_mem honce pod hpod)
  · exact (x.lastAddress_relist key pods).trans (listedAddress_eq_none hkey)
  · have hlater := halike.replay_later later
    exact ⟨hlater.sameEntries, hlater.lookingUp_eq, hlater.signals_applying⟩

open WatchSession (shopPod strayTables)

/-- Two pods at one address, one that moved to where another was, and one without an address. -/
def crowdedListing : List Pod :=
  [shopPod "web-1" (some (.v4 6)), shopPod "web-2" (some (.v4 5)), shopPod "web-3" (some (.v4 6)),
    shopPod "web-4" none]

theorem relist_eq_rebuild_crowded :
    (crowdedListing.map Pod.key).Nodup ∧
      let relisted := strayTables.apply (.relisted crowdedListing)
      relisted.SameEntries (replay (crowdedListing.map .upsert)) ∧
        relisted.lookup (.v4 6) = some { name := "web-3", namespaceName := "shop" } ∧
        relisted.lastAddress.find? ⟨"shop", "web-1"⟩ = some (.v4 6) ∧
        relisted.lastAddress.find? ⟨"shop", "web-4"⟩ = none := by
  have honce : (crowdedListing.map Pod.key).Nodup := by decide
  obtain ⟨hsame, hlookup, hlisted, -, -⟩ := relist_eq_rebuild strayTables honce
  have hfirst : shopPod "web-1" (some (.v4 6)) ∈ crowdedListing := by decide
  have hlast : shopPod "web-4" none ∈ crowdedListing := by decide
  exact ⟨honce, hsame, hlookup (.v4 6), hlisted _ hfirst, hlisted _ hlast⟩

end WorkloadIndex
end FlowObserver
