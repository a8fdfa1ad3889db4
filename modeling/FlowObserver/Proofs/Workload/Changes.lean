import FlowObserver.Workload.Index
import Mathlib.Tactic

/-!
# What a change does to the workload index

Every operation in two equations, one for who owns an address and one for the last address of a
pod. A listing is determined by its last pod at an address and by its last addressed entry for a
key, whatever the index held before.
-/

namespace FlowObserver

theorem Table.find?_filter_keys {κ ν : Type} [DecidableEq κ] (t : Table κ ν) (p : κ → Bool)
    (k : κ) : (t.filter fun k' _ => p k').find? k = if p k then t.find? k else none :=
  lookup_filter t.entries p k

namespace WorkloadIndex

variable (x : WorkloadIndex) (pod : Pod) (a : Net.Address) (key : PodKey)

/-- A lookup of `a` finds the pod with this key. -/
def Owns (x : WorkloadIndex) (key : PodKey) (a : Net.Address) : Prop :=
  ∃ w, x.lookup a = some w ∧ w.key = key

@[simp] theorem lastAddress_release (b : Net.Address) :
    (x.release key b).lastAddress = x.lastAddress := by
  unfold release
  split
  · split_ifs <;> rfl
  · rfl

theorem lookup_release_self_of_owns {key : PodKey} {a : Net.Address} (h : x.Owns key a) :
    (x.release key a).lookup a = none := by
  obtain ⟨w, hw, hk⟩ := h
  rw [lookup] at hw
  rw [release, hw]
  dsimp only
  rw [if_pos hk, lookup, Table.find?_erase, if_pos rfl]

theorem lookup_release_of_not {key : PodKey} {a b : Net.Address} (h : a = b → ¬x.Owns key a) :
    (x.release key b).lookup a = x.lookup a := by
  unfold release
  split
  · rename_i w hw
    split_ifs with hk
    · have hab : a ≠ b := fun hab => h hab ⟨w, hab ▸ hw, hk⟩
      rw [lookup, Table.find?_erase, if_neg hab, lookup]
    · rfl
  · rfl

theorem lookup_bind :
    (x.bind pod).lookup a = if pod.address = some a then some pod.workload else x.lookup a := by
  unfold bind
  cases hp : pod.address with
  | none => simp [lookup]
  | some b =>
    simp only [lookup, Table.find?_insert, Option.some.injEq]
    exact if_congr eq_comm rfl rfl

theorem lastAddress_bind :
    (x.bind pod).lastAddress.find? key =
      if key = pod.key then pod.address else x.lastAddress.find? key := by
  unfold bind
  cases hp : pod.address with
  | none => exact Table.find?_erase _ _ _
  | some b => exact Table.find?_insert _ _ _ _

theorem movedFrom_eq_some_iff :
    x.movedFrom pod = some a ↔
      x.lastAddress.find? pod.key = some a ∧ pod.address ≠ some a := by
  unfold movedFrom
  cases x.lastAddress.find? pod.key with
  | none => simp
  | some b =>
    dsimp only
    split_ifs with h <;> grind

theorem lookup_upsert_self {pod : Pod} {a : Net.Address} (h : pod.address = some a) :
    (x.upsert pod).lookup a = some pod.workload := by
  unfold upsert
  split <;> rw [lookup_bind, if_pos h]

/-- The address that the pod was last seen with is given up, if the pod still owns it. -/
theorem lookup_upsert_moved {pod : Pod} {a : Net.Address} (h : pod.address ≠ some a)
    (hlast : x.lastAddress.find? pod.key = some a) (howns : x.Owns pod.key a) :
    (x.upsert pod).lookup a = none := by
  have hm : x.movedFrom pod = some a := (movedFrom_eq_some_iff x pod a).mpr ⟨hlast, h⟩
  rw [upsert, hm]
  dsimp only
  rw [lookup_bind, if_neg h, lookup_release_self_of_owns x howns]

theorem lookup_upsert_of_not {pod : Pod} {a : Net.Address} (h : pod.address ≠ some a)
    (howns : x.lastAddress.find? pod.key = some a → ¬x.Owns pod.key a) :
    (x.upsert pod).lookup a = x.lookup a := by
  unfold upsert
  split
  · rename_i b hb
    have hlast := ((movedFrom_eq_some_iff x pod b).mp hb).1
    rw [lookup_bind, if_neg h]
    exact x.lookup_release_of_not fun hab => howns (hab ▸ hlast)
  · rw [lookup_bind, if_neg h]

theorem lastAddress_upsert :
    (x.upsert pod).lastAddress.find? key =
      if key = pod.key then pod.address else x.lastAddress.find? key := by
  unfold upsert
  split <;> simp only [lastAddress_bind, lastAddress_release]

theorem lookup_delete :
    (x.delete pod).lookup a = if x.vacated pod = some a then none else x.lookup a := by
  unfold delete
  cases hv : x.vacated pod with
  | none => simp [lookup]
  | some b =>
    simp only [lookup, Table.find?_erase, Option.some.injEq]
    exact if_congr eq_comm rfl rfl

theorem lastAddress_delete :
    (x.delete pod).lastAddress.find? key =
      if key = pod.key then none else x.lastAddress.find? key :=
  Table.find?_erase _ _ _

/-- The last listed pod with the address. -/
def listedAt (pods : List Pod) (a : Net.Address) : Option Pod :=
  pods.reverse.find? fun p => p.address = some a

/-- The address of the last listed pod with this key that has one. -/
def listedAddress (pods : List Pod) (key : PodKey) : Option Net.Address :=
  (pods.reverse.find? fun p => p.key = key ∧ p.address.isSome).bind (·.address)

variable (pods : List Pod)

theorem lookup_foldl_bind :
    (pods.foldl bind x).lookup a =
      ((listedAt pods a).map (·.workload)).or (x.lookup a) := by
  induction pods generalizing x with
  | nil => rfl
  | cons pod rest ih =>
    rw [List.foldl_cons, ih, lookup_bind]
    unfold listedAt
    rw [List.reverse_cons, List.find?_append]
    cases hrest : rest.reverse.find? fun p => p.address = some a with
    | some p => rfl
    | none => by_cases h : pod.address = some a <;> simp [h]

theorem lastAddress_foldl_bind (hpods : ∀ p ∈ pods, p.address.isSome = true) :
    (pods.foldl bind x).lastAddress.find? key =
      (listedAddress pods key).or (x.lastAddress.find? key) := by
  induction pods generalizing x with
  | nil => rfl
  | cons pod rest ih =>
    have hpod := hpods pod List.mem_cons_self
    have hrest := fun p hp => hpods p (List.mem_cons_of_mem _ hp)
    rw [List.foldl_cons, ih _ hrest, lastAddress_bind]
    unfold listedAddress
    rw [List.reverse_cons, List.find?_append]
    cases hlast : rest.reverse.find? fun p => p.key = key ∧ p.address.isSome with
    | some p =>
      have hp := List.find?_some hlast
      simp only [decide_eq_true_eq] at hp
      obtain ⟨b, hb⟩ := Option.isSome_iff_exists.mp hp.2
      simp [hb]
    | none =>
      obtain ⟨b, hb⟩ := Option.isSome_iff_exists.mp hpod
      by_cases h : pod.key = key
      · subst h
        simp [hb]
      · have h' : key ≠ pod.key := Ne.symm h
        simp [h, h']

theorem listedAt_filter_isSome :
    listedAt (pods.filter (·.address.isSome)) a = listedAt pods a := by
  unfold listedAt
  rw [← List.filter_reverse, List.find?_filter]
  congr 1
  funext p
  by_cases h : p.address = some a <;> simp [h]

theorem listedAddress_filter_isSome :
    listedAddress (pods.filter (·.address.isSome)) key = listedAddress pods key := by
  unfold listedAddress
  rw [← List.filter_reverse, List.find?_filter]
  congr 2
  funext p
  by_cases h : p.address.isSome = true <;> simp [h]

theorem isSome_listedAt_iff :
    (listedAt pods a).isSome = true ↔ ∃ p ∈ pods, p.address = some a := by
  simp [listedAt]

theorem isSome_listedAddress_iff :
    (listedAddress pods key).isSome = true ↔
      ∃ p ∈ pods, p.key = key ∧ p.address.isSome = true := by
  unfold listedAddress
  constructor
  · intro h
    obtain ⟨b, hb⟩ := Option.isSome_iff_exists.mp h
    obtain ⟨p, hp, -⟩ := Option.bind_eq_some_iff.mp hb
    have hmem := List.mem_reverse.mp (List.mem_of_find?_eq_some hp)
    exact ⟨p, hmem, by simpa using List.find?_some hp⟩
  · rintro ⟨p, hp, hk⟩
    cases hf : pods.reverse.find? fun p => p.key = key ∧ p.address.isSome with
    | none => simpa [hk] using List.find?_eq_none.mp hf p (List.mem_reverse.mpr hp)
    | some q =>
      have hq := List.find?_some hf
      simp only [decide_eq_true_eq] at hq
      simpa using hq.2

/-- A listing decides every address, whatever was there before. -/
theorem lookup_relist : (x.relist pods).lookup a = (listedAt pods a).map (·.workload) := by
  rw [← listedAt_filter_isSome]
  unfold relist
  generalize pods.filter (·.address.isSome) = addressed
  have hany : addressed.any (·.address = some a) = (listedAt addressed a).isSome := by
    rw [Bool.eq_iff_iff, isSome_listedAt_iff, List.any_eq_true]
    simp
  dsimp only [lookup]
  rw [Table.find?_filter_keys, hany, ← lookup, lookup_foldl_bind]
  cases listedAt addressed a <;> simp

/-- A listing decides the last address of every pod. -/
theorem lastAddress_relist : (x.relist pods).lastAddress.find? key = listedAddress pods key := by
  rw [← listedAddress_filter_isSome]
  unfold relist
  have hpods : ∀ p ∈ pods.filter (·.address.isSome), p.address.isSome = true := fun p hp =>
    (List.mem_filter.mp hp).2
  generalize pods.filter (·.address.isSome) = addressed at hpods ⊢
  have hany : addressed.any (·.key = key) = (listedAddress addressed key).isSome := by
    rw [Bool.eq_iff_iff, isSome_listedAddress_iff, List.any_eq_true]
    simp only [decide_eq_true_eq]
    exact exists_congr fun p => and_congr_right fun hp => (and_iff_left (hpods p hp)).symm
  dsimp only
  rw [Table.find?_filter_keys, hany, lastAddress_foldl_bind x key addressed hpods]
  cases listedAddress addressed key <;> simp

theorem listedAt_concat :
    listedAt (pods ++ [pod]) a = if pod.address = some a then some pod else listedAt pods a := by
  rw [listedAt, List.reverse_append, List.reverse_singleton, List.singleton_append,
    List.find?_cons]
  split_ifs with h
  · rw [decide_eq_true h]
  · rw [decide_eq_false h]
    rfl

theorem listedAddress_eq_none {pods : List Pod} {key : PodKey} (h : key ∉ pods.map Pod.key) :
    listedAddress pods key = none := by
  rw [← Option.not_isSome_iff_eq_none, isSome_listedAddress_iff]
  rintro ⟨pod, hpod, hkey, -⟩
  exact h (hkey ▸ List.mem_map_of_mem hpod)

theorem listedAddress_concat {pods : List Pod} {pod : Pod} (h : pod.key ∉ pods.map Pod.key)
    (key : PodKey) :
    listedAddress (pods ++ [pod]) key =
      if key = pod.key then pod.address else listedAddress pods key := by
  have hunlisted := listedAddress_eq_none h
  unfold listedAddress at hunlisted ⊢
  rw [List.reverse_append, List.reverse_singleton, List.singleton_append, List.find?_cons]
  split_ifs with hkey
  · rw [hkey]
    cases haddress : pod.address with
    | none => simpa using hunlisted
    | some a => simp [haddress]
  · rw [decide_eq_false fun h => hkey h.1.symm]

/-- What is known of a list that names each pod at most once, up to its last pod. -/
theorem once_of_concat {pods : List Pod} {pod : Pod}
    (honce : ((pods ++ [pod]).map Pod.key).Nodup) :
    (pods.map Pod.key).Nodup ∧ pod.key ∉ pods.map Pod.key := by
  rw [List.map_append, List.map_singleton, List.nodup_append] at honce
  obtain ⟨honce, -, hdistinct⟩ := honce
  exact ⟨honce, fun hmem => hdistinct _ hmem _ List.mem_cons_self rfl⟩

/-- A listed pod was last seen where it is listed. -/
theorem listedAddress_of_mem {pods : List Pod} (honce : (pods.map Pod.key).Nodup) :
    ∀ pod ∈ pods, listedAddress pods pod.key = pod.address := by
  induction pods using List.reverseRecOn with
  | nil => exact List.forall_mem_nil _
  | append_singleton pods last ih =>
    obtain ⟨honce, hnew⟩ := once_of_concat honce
    rw [List.forall_mem_append, List.forall_mem_singleton]
    constructor
    · intro pod hpod
      have hkey : pod.key ≠ last.key := fun hkey => hnew (hkey ▸ List.mem_map_of_mem hpod)
      rw [listedAddress_concat hnew, if_neg hkey, ih honce pod hpod]
    · rw [listedAddress_concat hnew, if_pos rfl]

end WorkloadIndex
end FlowObserver
