import FlowObserver.Proofs.Workload.Changes

/-!
# Histories of pod events

What the events up to now say about where a pod is, read off their list alone. The index remembers
exactly that as the pod's last address, listings included.
-/

namespace FlowObserver
namespace PodEvent

/-- Where the event leaves a pod, which may be nowhere; none if it leaves the pod alone. -/
def leaves (key : PodKey) : PodEvent → Option (Option Net.Address)
  | .upsert pod => if pod.key = key then some pod.address else none
  | .delete pod => if pod.key = key then some none else none
  | .relisted pods => some (WorkloadIndex.listedAddress pods key)

/-- The event is about this pod; a listing is about the pods that it lists. -/
def Names (key : PodKey) : PodEvent → Prop
  | .upsert pod | .delete pod => pod.key = key
  | .relisted pods => ∃ p ∈ pods, p.key = key

theorem leaves_of_not_names {key : PodKey} {e : PodEvent} (h : ¬e.Names key) :
    e.leaves key = none ∨ e.leaves key = some none := by
  cases e with
  | upsert pod => exact Or.inl (if_neg h)
  | delete pod => exact Or.inl (if_neg h)
  | relisted pods =>
    refine Or.inr (congrArg some (Option.not_isSome_iff_eq_none.mp ?_))
    rw [WorkloadIndex.isSome_listedAddress_iff]
    rintro ⟨p, hp, hk, -⟩
    exact h ⟨p, hp, hk⟩

end PodEvent

namespace WorkloadIndex

def replay (events : List PodEvent) : WorkloadIndex := events.foldl apply {}

@[simp] theorem replay_nil : replay [] = {} := rfl

theorem replay_concat (events : List PodEvent) (e : PodEvent) :
    replay (events ++ [e]) = (replay events).apply e := by
  simp [replay]

/-- Where the most recent event about a pod leaves it. -/
def lastKnown (key : PodKey) (events : List PodEvent) : Option Net.Address :=
  (events.reverse.findSome? (·.leaves key)).join

theorem lastKnown_concat (key : PodKey) (events : List PodEvent) (e : PodEvent) :
    lastKnown key (events ++ [e]) = (e.leaves key).getD (lastKnown key events) := by
  unfold lastKnown
  rw [List.reverse_append, List.reverse_singleton, List.singleton_append, List.findSome?_cons]
  cases e.leaves key <;> rfl

theorem lastKnown_append_eq_none {key : PodKey} {before after : List PodEvent}
    (h : lastKnown key before = none) (hafter : ∀ e ∈ after, ¬e.Names key) :
    lastKnown key (before ++ after) = none := by
  induction after using List.reverseRecOn with
  | nil => rwa [List.append_nil]
  | append_singleton after e ih =>
    have ih := ih fun e' he' => hafter e' (List.mem_append_left _ he')
    rw [← List.append_assoc, lastKnown_concat, ih]
    rcases PodEvent.leaves_of_not_names (hafter e (by simp)) with he | he <;> rw [he] <;> rfl

theorem lastAddress_apply (x : WorkloadIndex) (e : PodEvent) (key : PodKey) :
    (x.apply e).lastAddress.find? key = (e.leaves key).getD (x.lastAddress.find? key) := by
  cases e with
  | upsert pod =>
    rw [apply, lastAddress_upsert, PodEvent.leaves]
    by_cases h : pod.key = key
    · rw [if_pos h.symm, if_pos h, Option.getD_some]
    · rw [if_neg (Ne.symm h), if_neg h, Option.getD_none]
  | delete pod =>
    rw [apply, lastAddress_delete, PodEvent.leaves]
    by_cases h : pod.key = key
    · rw [if_pos h.symm, if_pos h, Option.getD_some]
    · rw [if_neg (Ne.symm h), if_neg h, Option.getD_none]
  | relisted pods => rw [apply, lastAddress_relist, PodEvent.leaves, Option.getD_some]

/-- The second table holds what the history says, after any history. -/
theorem lastAddress_replay (events : List PodEvent) (key : PodKey) :
    (replay events).lastAddress.find? key = lastKnown key events := by
  induction events using List.reverseRecOn with
  | nil => rfl
  | append_singleton events e ih => rw [replay_concat, lastAddress_apply, lastKnown_concat, ih]

/-- The address that a delete is about: the one it names, else where the pod was last. -/
def effectiveAddress (before : List PodEvent) (pod : Pod) : Option Net.Address :=
  pod.address <|> lastKnown pod.key before

theorem vacated_replay (events : List PodEvent) (pod : Pod) :
    (replay events).vacated pod = effectiveAddress events pod := by
  rw [vacated, lastAddress_replay, effectiveAddress]

end WorkloadIndex
end FlowObserver
