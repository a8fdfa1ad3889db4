/-!
# Finite maps in insertion order

A table binds each key once and keeps its entries in the order in which the keys first came. It is
read through `find?`; every operation has one equation for it.
-/

namespace FlowObserver

structure Table (κ ν : Type) where
  entries : List (κ × ν)
  nodup : (entries.map Prod.fst).Nodup

namespace Table

variable {κ ν : Type}

def empty : Table κ ν := ⟨[], List.nodup_nil⟩

instance : Inhabited (Table κ ν) := ⟨empty⟩

def keys (t : Table κ ν) : List κ := t.entries.map Prod.fst

def values (t : Table κ ν) : List ν := t.entries.map Prod.snd

def size (t : Table κ ν) : Nat := t.entries.length

def filter (t : Table κ ν) (keep : κ → ν → Bool) : Table κ ν :=
  ⟨t.entries.filter fun e => keep e.1 e.2,
    t.nodup.sublist (List.Sublist.map _ List.filter_sublist)⟩

def mapValues {μ : Type} (t : Table κ ν) (f : κ → ν → μ) : Table κ μ :=
  ⟨t.entries.map fun e => (e.1, f e.1 e.2), by
    simpa [List.map_map, Function.comp_def] using t.nodup⟩

variable [DecidableEq κ]

def find? (t : Table κ ν) (k : κ) : Option ν := t.entries.lookup k

def contains (t : Table κ ν) (k : κ) : Bool := (t.find? k).isSome

def erase (t : Table κ ν) (k : κ) : Table κ ν := t.filter fun k' _ => k' ≠ k

def replace (entries : List (κ × ν)) (k : κ) (v : ν) : List (κ × ν) :=
  entries.map fun e => if e.1 = k then (k, v) else e

theorem keys_replace (entries : List (κ × ν)) (k : κ) (v : ν) :
    (replace entries k v).map Prod.fst = entries.map Prod.fst := by
  simp only [replace, List.map_map]
  apply List.map_congr_left
  intro e _
  by_cases h : e.1 = k <;> simp [h]

/-- A key that is bound already keeps its place. -/
def insert (t : Table κ ν) (k : κ) (v : ν) : Table κ ν :=
  if h : k ∈ t.keys then ⟨replace t.entries k v, by rw [keys_replace]; exact t.nodup⟩
  else ⟨t.entries ++ [(k, v)], by
    rw [List.map_append, List.nodup_append]
    refine ⟨t.nodup, by simp, ?_⟩
    intro a ha b hb hab
    simp only [List.map_cons, List.map_nil, List.mem_singleton] at hb
    exact h (hb ▸ hab ▸ ha)⟩

theorem find?_eq_none_iff (t : Table κ ν) (k : κ) : t.find? k = none ↔ k ∉ t.keys := by
  simp only [find?, keys, List.lookup_eq_none_iff, List.mem_map, not_exists, not_and]
  constructor
  · intro h e he hk
    simpa [hk] using h e he
  · intro h e he
    exact bne_iff_ne.mpr fun hk => h e he hk.symm

theorem lookup_filter (entries : List (κ × ν)) (p : κ → Bool) (k : κ) :
    (entries.filter fun e => p e.1).lookup k = if p k then entries.lookup k else none := by
  induction entries with
  | nil => simp
  | cons e rest ih =>
    obtain ⟨a, v⟩ := e
    by_cases ha : p a
    · by_cases hk : k = a
      · subst hk
        simp [ha]
      · simp [ha, List.lookup_cons, ih, beq_eq_false_iff_ne.mpr hk]
    · by_cases hk : k = a
      · subst hk
        simp [ha, ih]
      · simp [ha, ih, List.lookup_cons, beq_eq_false_iff_ne.mpr hk]

theorem find?_erase (t : Table κ ν) (k k' : κ) :
    (t.erase k).find? k' = if k' = k then none else t.find? k' := by
  have := lookup_filter t.entries (fun a => decide (a ≠ k)) k'
  simp only [find?, erase, filter]
  rw [this]
  by_cases h : k' = k <;> simp [h]

theorem lookup_replace (entries : List (κ × ν)) (k k' : κ) (v : ν) :
    (replace entries k v).lookup k' =
      if k' = k then (entries.lookup k).map fun _ => v else entries.lookup k' := by
  induction entries with
  | nil => simp [replace]
  | cons e rest ih =>
    obtain ⟨a, w⟩ := e
    simp only [replace, List.map_cons] at ih ⊢
    by_cases ha : a = k
    · subst ha
      by_cases hk : k' = a
      · subst hk; simp
      · simp [List.lookup_cons, beq_eq_false_iff_ne.mpr hk, ih, hk]
    · by_cases hk : k' = k
      · subst hk
        have hne : (k' == a) = false := beq_eq_false_iff_ne.mpr fun h => ha h.symm
        simp [ha, List.lookup_cons, hne, ih]
      · by_cases hka : k' = a
        · subst hka; simp [hk]
        · simp [ha, List.lookup_cons, beq_eq_false_iff_ne.mpr hka, ih, hk]

theorem find?_insert (t : Table κ ν) (k k' : κ) (v : ν) :
    (t.insert k v).find? k' = if k' = k then some v else t.find? k' := by
  unfold insert
  split
  · rename_i h
    simp only [find?, lookup_replace]
    by_cases hk : k' = k
    · have hsome : t.entries.lookup k ≠ none := fun hn =>
        (find?_eq_none_iff t k).mp hn h
      obtain ⟨w, hw⟩ := Option.ne_none_iff_exists'.mp hsome
      simp [hk, hw]
    · simp [hk]
  · rename_i h
    have hnone : t.entries.lookup k = none := (find?_eq_none_iff t k).mpr h
    simp only [find?, List.lookup_append, List.lookup_cons, List.lookup_nil]
    by_cases hk : k' = k
    · subst hk; simp [hnone]
    · simp [hk, beq_eq_false_iff_ne.mpr hk]

theorem find?_mapValues {μ : Type} (t : Table κ ν) (f : κ → ν → μ) (k : κ) :
    (t.mapValues f).find? k = (t.find? k).map (f k) := by
  simp only [find?, mapValues]
  induction t.entries with
  | nil => rfl
  | cons e rest ih =>
    obtain ⟨a, v⟩ := e
    by_cases hk : k = a
    · subst hk
      simp
    · simp [List.lookup_cons, beq_eq_false_iff_ne.mpr hk, ih]

@[simp] theorem find?_empty (k : κ) : (empty : Table κ ν).find? k = none := rfl

end Table
end FlowObserver
