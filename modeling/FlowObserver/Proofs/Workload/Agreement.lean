import FlowObserver.Proofs.Workload.History

/-!
# Agreement of the two tables

The tables agree where a pod that an address leads to has that address as its last one. The reverse
need not hold: a pod whose address was taken over keeps it as its last one. Upserts and listings
keep or restore the agreement. A delete breaks it exactly when it names one address while its pod
holds another: that address stays behind, and nothing remembers whose it was.
-/

namespace FlowObserver
namespace WorkloadIndex

def Agrees (x : WorkloadIndex) : Prop :=
  ∀ a w, x.lookup a = some w → x.lastAddress.find? w.key = some a

/-- A delete of `pod` would name another address than one that the pod still holds. -/
def Strays (x : WorkloadIndex) (pod : Pod) : Prop :=
  ∃ named held, pod.address = some named ∧ x.Owns pod.key held ∧ held ≠ named

variable {x : WorkloadIndex}

theorem agrees_empty : Agrees {} := by
  intro a w h
  cases h

theorem Agrees.last_eq_of_owns (hx : x.Agrees) {key : PodKey} {a : Net.Address}
    (h : x.Owns key a) : x.lastAddress.find? key = some a := by
  obtain ⟨w, hw, rfl⟩ := h
  exact hx a w hw

theorem Agrees.owns_unique (hx : x.Agrees) {key : PodKey} {a b : Net.Address}
    (ha : x.Owns key a) (hb : x.Owns key b) : a = b := by
  have h := hx.last_eq_of_owns ha
  rw [hx.last_eq_of_owns hb] at h
  exact (Option.some.inj h).symm

theorem Agrees.upsert (hx : x.Agrees) (pod : Pod) : (x.upsert pod).Agrees := by
  intro a w hw
  rw [lastAddress_upsert]
  by_cases ha : pod.address = some a
  · rw [lookup_upsert_self x ha] at hw
    cases hw
    rw [if_pos (show pod.workload.key = pod.key from rfl), ha]
  · by_cases hlast : x.lastAddress.find? pod.key = some a ∧ x.Owns pod.key a
    · rw [lookup_upsert_moved x ha hlast.1 hlast.2] at hw
      cases hw
    · rw [lookup_upsert_of_not x ha fun h h' => hlast ⟨h, h'⟩] at hw
      have hne : w.key ≠ pod.key := by
        intro hk
        have howns : x.Owns pod.key a := ⟨w, hw, hk⟩
        exact hlast ⟨hx.last_eq_of_owns howns, howns⟩
      rw [if_neg hne]
      exact hx a w hw

/-- After a stray delete the pod is still there. -/
theorem Strays.owns_delete {pod : Pod} (h : x.Strays pod) :
    ∃ a, (x.delete pod).Owns pod.key a := by
  obtain ⟨named, held, hnamed, ⟨w, hw, hk⟩, hne⟩ := h
  have hvacated : x.vacated pod = some named := by rw [vacated, hnamed]; rfl
  refine ⟨held, w, ?_, hk⟩
  rw [lookup_delete, hvacated, if_neg fun h => hne (Option.some.inj h).symm, hw]

theorem Agrees.delete_iff (hx : x.Agrees) (pod : Pod) :
    (x.delete pod).Agrees ↔ ¬x.Strays pod := by
  constructor
  · intro hagrees hstray
    obtain ⟨a, howns⟩ := hstray.owns_delete
    have hlast := hagrees.last_eq_of_owns howns
    rw [lastAddress_delete, if_pos rfl] at hlast
    cases hlast
  · intro hstray a w hw
    rw [lookup_delete] at hw
    split_ifs at hw with hv
    have hlast := hx a w hw
    rw [lastAddress_delete, if_neg, hlast]
    intro hk
    -- the delete would have taken `a`, unless it names another address
    cases hp : pod.address with
    | none =>
      apply hv
      rw [vacated, hp, ← hk, hlast]
      rfl
    | some named =>
      refine hstray ⟨named, a, hp, ⟨w, hw, hk⟩, ?_⟩
      rintro rfl
      apply hv
      rw [vacated, hp]
      rfl

theorem agrees_relist (x : WorkloadIndex) {pods : List Pod} (hpods : (pods.map Pod.key).Nodup) :
    (x.relist pods).Agrees := by
  intro a w hw
  rw [lookup_relist] at hw
  obtain ⟨p, hp, rfl⟩ := Option.map_eq_some_iff.mp hw
  have hmem := List.mem_reverse.mp (List.mem_of_find?_eq_some hp)
  have haddress : p.address = some a := by simpa using List.find?_some hp
  rw [lastAddress_relist]
  change listedAddress pods p.key = some a
  rw [listedAddress_of_mem hpods p hmem, haddress]

/-- Every listing names each pod at most once. -/
def ListsOnce (events : List PodEvent) : Prop :=
  ∀ pods, .relisted pods ∈ events → (pods.map Pod.key).Nodup

/-- No delete of the history strays. -/
def Straight (events : List PodEvent) : Prop :=
  ∀ before pod, before ++ [.delete pod] <+: events → ¬(replay before).Strays pod

/-- The most recent event about the pod is a delete. -/
def Deleted (key : PodKey) (events : List PodEvent) : Prop :=
  ∃ before pod after, pod.key = key ∧ events = before ++ .delete pod :: after ∧
    ∀ e ∈ after, ¬e.Names key

theorem lastKnown_of_deleted {key : PodKey} {events : List PodEvent} (h : Deleted key events) :
    lastKnown key events = none := by
  obtain ⟨before, pod, after, rfl, rfl, hafter⟩ := h
  rw [← List.singleton_append, ← List.append_assoc]
  apply lastKnown_append_eq_none _ hafter
  rw [lastKnown_concat, PodEvent.leaves, if_pos rfl]
  rfl

theorem ListsOnce.restrict {events h : List PodEvent} (hl : ListsOnce events)
    (hh : h <+: events) : ListsOnce h :=
  fun pods hp => hl pods (hh.subset hp)

theorem listsOnce_of_not_mem {events : List PodEvent} (h : ∀ pods, .relisted pods ∉ events) :
    ListsOnce events :=
  fun pods hp => absurd hp (h pods)

theorem Straight.restrict {events h : List PodEvent} (hs : Straight events) (hh : h <+: events) :
    Straight h :=
  fun before pod hb => hs before pod (hb.trans hh)

/-- A delete that names no address cannot stray. -/
theorem straight_of_unnamed {events : List PodEvent}
    (h : ∀ pod, .delete pod ∈ events → pod.address = none) : Straight events := by
  rintro before pod hb ⟨named, held, hnamed, -, -⟩
  have hmem : .delete pod ∈ events := hb.subset (by simp)
  rw [h pod hmem] at hnamed
  cases hnamed

theorem Straight.agrees_replay {events : List PodEvent} (hlisted : ListsOnce events)
    (hs : Straight events) : (replay events).Agrees := by
  induction events using List.reverseRecOn with
  | nil => exact agrees_empty
  | append_singleton events e ih =>
    have hx : (replay events).Agrees :=
      ih (hlisted.restrict (List.prefix_append _ _)) (hs.restrict (List.prefix_append _ _))
    rw [replay_concat]
    cases e with
    | upsert pod => exact hx.upsert pod
    | delete pod => exact (hx.delete_iff pod).mpr (hs events pod List.prefix_rfl)
    | relisted pods => exact agrees_relist _ (hlisted pods (by simp))

/-- The tables agree all along a history if and only if no delete strays, and that is also what it
takes that a deleted pod is never found. No pod is found under two addresses then. -/
theorem agree_throughout_iff (events : List PodEvent) (hlisted : ListsOnce events) :
    ((∀ h, h <+: events → (replay h).Agrees) ↔ Straight events) ∧
    ((∀ h, h <+: events → ∀ key, Deleted key h → ∀ a, ¬(replay h).Owns key a) ↔
      Straight events) ∧
    (Straight events → ∀ h, h <+: events → ∀ key a b,
      (replay h).Owns key a → (replay h).Owns key b → a = b) := by
  have hagrees : Straight events → ∀ h, h <+: events → (replay h).Agrees := fun hs h hh =>
    (hs.restrict hh).agrees_replay (hlisted.restrict hh)
  refine ⟨⟨?_, hagrees⟩, ⟨?_, ?_⟩, ?_⟩
  · intro hall before pod hb
    have hbefore := hall before ((List.prefix_append _ _).trans hb)
    have hafter := hall _ hb
    rw [replay_concat] at hafter
    exact (hbefore.delete_iff pod).mp hafter
  · intro hall before pod hb hstray
    obtain ⟨a, howns⟩ := hstray.owns_delete
    have hdeleted : Deleted pod.key (before ++ [.delete pod]) :=
      ⟨before, pod, [], rfl, rfl, by simp⟩
    refine hall _ hb pod.key hdeleted a ?_
    rwa [replay_concat]
  · intro hs h hh key hdeleted a howns
    have hlast := (hagrees hs h hh).last_eq_of_owns howns
    rw [lastAddress_replay, lastKnown_of_deleted hdeleted] at hlast
    cases hlast
  · intro hs h hh key a b
    exact (hagrees hs h hh).owns_unique

/-- A pod takes the address of another, which is deleted; then all pods are listed anew. -/
def relisting : List PodEvent :=
  [.upsert ⟨{ name := "web-1", namespaceName := "shop" }, some (.v4 5)⟩,
    .upsert ⟨{ name := "web-2", namespaceName := "shop" }, some (.v4 5)⟩,
    .delete ⟨{ name := "web-1", namespaceName := "shop" }, none⟩,
    .relisted [⟨{ name := "web-2", namespaceName := "shop" }, some (.v4 6)⟩,
      ⟨{ name := "web-3", namespaceName := "shop" }, some (.v4 5)⟩]]

theorem straight_relisting : Straight relisting :=
  straight_of_unnamed (by simp [relisting])

theorem agree_throughout_relisting :
    ListsOnce relisting ∧ ∀ h, h <+: relisting → (replay h).Agrees := by
  have hlisted : ListsOnce relisting := by
    intro pods hp
    simp only [relisting, List.mem_cons, reduceCtorEq, false_or, List.not_mem_nil, or_false,
      PodEvent.relisted.injEq] at hp
    rw [hp]
    decide
  exact ⟨hlisted, (agree_throughout_iff relisting hlisted).1.mpr straight_relisting⟩

/-- A delete that names an address which is not the pod's leaves its real address behind. -/
theorem delete_of_other_address_breaks_agreement :
    ¬∀ events, ListsOnce events → ∀ h, h <+: events → (replay h).Agrees := by
  intro hall
  have hagrees := hall
    [.upsert ⟨{ name := "web-1", namespaceName := "shop" }, some (.v4 5)⟩,
      .delete ⟨{ name := "web-1", namespaceName := "shop" }, some (.v4 9)⟩]
    (by simp [ListsOnce]) _ List.prefix_rfl (.v4 5)
    { name := "web-1", namespaceName := "shop" } (by decide)
  revert hagrees
  decide

end WorkloadIndex
end FlowObserver
