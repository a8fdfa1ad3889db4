import FlowObserver.Settings.Formats
import Mathlib

/-!
# What decides layers

A mapping of a layer keeps its fields in the order of their names. What it holds under a name
follows from what the document, or the two layers that it is made of, hold under that name. Whatever
lays layers over each other in this way does it as `sortFields` and `overlay` do (`layer_eq`,
`merge_eq`), which are an instance of it (`standard_layered`).
-/

namespace FlowObserver
namespace Settings

def isScalar : Json → Bool
  | .arr _ | .obj _ => false
  | _ => true

theorem ne_obj_of_isScalar {j : Json} (h : isScalar j = true) (fields : List (String × Json)) :
    j ≠ .obj fields := by
  rintro rfl
  cases h

/-- In every mapping each name stands in the relation `r` to all names behind it. -/
inductive Named (r : String → String → Prop) : Json → Prop
  | scalar {j : Json} (h : isScalar j = true) : Named r j
  | arr {items : List Json} (h : ∀ j ∈ items, Named r j) : Named r (.arr items)
  | obj {fields : List (String × Json)} (hnames : (fields.map (·.1)).Pairwise r)
      (h : ∀ f ∈ fields, Named r f.2) : Named r (.obj fields)

abbrev Distinct : Json → Prop := Named (· ≠ ·)

abbrev Ordered : Json → Prop := Named (· < ·)

def Ascending (fields : List (String × Json)) : Prop := (fields.map (·.1)).Pairwise (· < ·)

/-- What is documented of layers. Where two mappings meet, fields of one name are merged, and all
others are kept; in any other case the layer above replaces the one below. -/
structure Formats.Layered (formats : Formats) : Prop where
  layer_scalar : ∀ j, isScalar j = true → formats.layer j = j
  layer_arr : ∀ items, formats.layer (.arr items) = .arr (items.map formats.layer)
  layer_obj : ∀ fields, Distinct (.obj fields) → ∃ held, formats.layer (.obj fields) = .obj held ∧
    Ascending held ∧ ∀ name, held.lookup name = (fields.lookup name).map formats.layer
  merge_obj : ∀ fields others, Ascending fields → Ascending others → ∃ merged,
    formats.merge (.obj fields) (.obj others) = .obj merged ∧ Ascending merged ∧
      ∀ name, merged.lookup name =
        Option.merge formats.merge (fields.lookup name) (others.lookup name)
  merge_below : ∀ below above, (∀ fields, below ≠ .obj fields) → formats.merge below above = above
  merge_above : ∀ below above, (∀ fields, above ≠ .obj fields) → formats.merge below above = above

theorem Ascending.nodup {fields : List (String × Json)} (h : Ascending fields) :
    (fields.map (·.1)).Nodup := List.Pairwise.imp ne_of_lt h

section Lookup

variable {fields others : List (String × Json)} {name : String} {j : Json}

theorem mem_of_lookup (h : fields.lookup name = some j) : (name, j) ∈ fields := by
  obtain ⟨before, after, rfl, -⟩ := List.lookup_eq_some_iff.mp h
  exact List.mem_append_right _ List.mem_cons_self

theorem lookup_of_mem (hdistinct : (fields.map (·.1)).Nodup) {f : String × Json}
    (hf : f ∈ fields) : fields.lookup f.1 = some f.2 := by
  obtain ⟨before, after, rfl⟩ := List.append_of_mem hf
  refine List.lookup_eq_some_iff.mpr ⟨before, after, rfl, fun g hg => ?_⟩
  rw [List.map_append, List.nodup_append] at hdistinct
  have hne := hdistinct.2.2 g.1 (List.mem_map_of_mem hg) f.1 (by simp)
  simpa using hne.symm

theorem mem_iff_lookup (hdistinct : (fields.map (·.1)).Nodup) :
    (name, j) ∈ fields ↔ fields.lookup name = some j :=
  ⟨fun h => lookup_of_mem hdistinct h, mem_of_lookup⟩

theorem lookup_eq_none (h : name ∉ fields.map (·.1)) : fields.lookup name = none := by
  refine List.lookup_eq_none_iff.mpr fun f hf => ?_
  have hne : name ≠ f.1 := fun heq => h (heq ▸ List.mem_map_of_mem hf)
  simpa using hne

theorem lookup_perm (hperm : fields.Perm others) (hdistinct : (fields.map (·.1)).Nodup) :
    fields.lookup name = others.lookup name := by
  have hothers : (others.map (·.1)).Nodup := (hperm.map _).nodup_iff.mp hdistinct
  refine Option.ext fun j => ?_
  rw [← mem_iff_lookup hdistinct, ← mem_iff_lookup hothers, hperm.mem_iff]

theorem lookup_map (g : String × Json → Json) : (fields.map fun f => (f.1, g f)).lookup name =
    (fields.lookup name).map fun j => g (name, j) := by
  induction fields with
  | nil => rfl
  | cons f fields ih =>
    obtain ⟨other, j⟩ := f
    rw [List.map_cons, List.lookup_cons, List.lookup_cons]
    by_cases h : name = other
    · subst h
      simp
    · rw [beq_false_of_ne h]
      exact ih

/-- Fields in the order of their names are decided by what is found under each name. -/
theorem Ascending.eq_of_lookup (h : Ascending fields) (h' : Ascending others)
    (hlookup : ∀ name, fields.lookup name = others.lookup name) : fields = others := by
  have hperm : fields.Perm others := by
    refine (List.perm_ext_iff_of_nodup (.of_map _ h.nodup) (.of_map _ h'.nodup)).mpr fun f => ?_
    rw [mem_iff_lookup h.nodup, mem_iff_lookup h'.nodup, hlookup]
  exact hperm.eq_of_pairwise (fun f g _ _ hfg hgf => absurd hfg (lt_asymm hgf))
    (List.pairwise_map.mp h) (List.pairwise_map.mp h')

end Lookup

theorem perm_sorted (fields : List (String × Json)) : (sorted fields).Perm fields :=
  List.mergeSort_perm _ _

theorem mem_sorted {f : String × Json} {fields : List (String × Json)} :
    f ∈ sorted fields ↔ f ∈ fields := List.mem_mergeSort

theorem ascending_sorted {fields : List (String × Json)} (h : (fields.map (·.1)).Nodup) :
    Ascending (sorted fields) := by
  have hle : (sorted fields).Pairwise fun f g => f.1 ≤ g.1 := by
    refine (List.pairwise_mergeSort ?_ ?_ fields).imp of_decide_eq_true
    · intro f g k hfg hgk
      rw [decide_eq_true_eq] at *
      exact String.le_trans hfg hgk
    · intro f g
      simpa using String.le_total f.1 g.1
  have hne : (sorted fields).Pairwise fun f g => f.1 ≠ g.1 :=
    List.pairwise_map.mp (((perm_sorted fields).map _).nodup_iff.mpr h)
  exact List.pairwise_map.mpr (hle.imp₂ (fun f g => lt_of_le_of_ne) hne)

theorem lookup_sorted {fields : List (String × Json)} (h : (fields.map (·.1)).Nodup)
    (name : String) : (sorted fields).lookup name = fields.lookup name :=
  (lookup_perm (perm_sorted fields).symm h).symm

theorem sortEntries_eq_map (fields : List (String × Json)) :
    sortEntries fields = fields.map fun f => (f.1, sortFields f.2) := by
  induction fields with
  | nil => rfl
  | cons field fields ih => rw [sortEntries, ih, List.map_cons]

theorem sortItems_eq_map (items : List Json) : sortItems items = items.map sortFields := by
  induction items with
  | nil => rfl
  | cons item items ih => rw [sortItems, ih, List.map_cons]

theorem sortFields_obj (fields : List (String × Json)) :
    sortFields (.obj fields) = .obj (sorted (sortEntries fields)) := by rw [sortFields]

theorem sortFields_scalar {j : Json} (h : isScalar j = true) : sortFields j = j := by
  cases j <;> simp_all [sortFields, isScalar]

theorem map_fst_sortEntries (fields : List (String × Json)) :
    (sortEntries fields).map (·.1) = fields.map (·.1) := by
  rw [sortEntries_eq_map, List.map_map]
  rfl

theorem lookup_sortEntries {fields : List (String × Json)} (h : (fields.map (·.1)).Nodup)
    (name : String) : Ascending (sorted (sortEntries fields)) ∧
      (sorted (sortEntries fields)).lookup name = (fields.lookup name).map sortFields := by
  rw [← map_fst_sortEntries] at h
  refine ⟨ascending_sorted h, ?_⟩
  rw [lookup_sorted h, sortEntries_eq_map, lookup_map]

theorem Named.sort {j : Json} (h : Distinct j) : Ordered (sortFields j) := by
  induction h with
  | scalar h =>
    rw [sortFields_scalar h]
    exact .scalar h
  | @arr items _ ih =>
    rw [sortFields, sortItems_eq_map]
    exact .arr (List.forall_mem_map.mpr ih)
  | @obj fields hnames _ ih =>
    rw [sortFields_obj]
    refine .obj (lookup_sortEntries hnames "").1 fun g hg => ?_
    rw [mem_sorted, sortEntries_eq_map] at hg
    obtain ⟨f, hf, rfl⟩ := List.mem_map.mp hg
    exact ih f hf

def covered (others : List (String × Json)) (f : String × Json) : Json :=
  match others.lookup f.1 with
  | some above => overlay f.2 above
  | none => f.2

theorem overlayEntries_eq_map (fields others : List (String × Json)) :
    overlayEntries fields others = fields.map fun f => (f.1, covered others f) := by
  induction fields with
  | nil => rfl
  | cons field fields ih =>
    rw [overlayEntries, ih, List.map_cons]
    rfl

def added (fields others : List (String × Json)) : List (String × Json) :=
  others.filter fun f => !fields.any (·.1 = f.1)

theorem mem_added {fields others : List (String × Json)} {f : String × Json} :
    f ∈ added fields others ↔ f ∈ others ∧ f.1 ∉ fields.map (·.1) := by
  rw [added, List.mem_filter, Bool.not_eq_true', List.any_eq_false, List.mem_map, not_exists]
  simp [not_and]

/-- All fields of two mappings, before they are sorted. -/
def joined (fields others : List (String × Json)) : List (String × Json) :=
  fields.map (fun f => (f.1, covered others f)) ++ added fields others

theorem overlay_obj (fields others : List (String × Json)) :
    overlay (.obj fields) (.obj others) = .obj (sorted (joined fields others)) := by
  rw [overlay, overlayEntries_eq_map]
  rfl

section Joined

variable {fields others : List (String × Json)}

theorem nodup_joined (h : (fields.map (·.1)).Nodup) (h' : (others.map (·.1)).Nodup) :
    ((joined fields others).map (·.1)).Nodup := by
  rw [joined, List.map_append, List.map_map]
  refine List.nodup_append.mpr ⟨h, (List.filter_sublist.map _).nodup h', fun a ha b hb => ?_⟩
  obtain ⟨g, hg, rfl⟩ := List.mem_map.mp hb
  exact fun heq => (mem_added.mp hg).2 (heq ▸ ha)

theorem lookup_added (h' : (others.map (·.1)).Nodup) {name : String}
    (hname : name ∉ fields.map (·.1)) :
    (added fields others).lookup name = others.lookup name := by
  refine Option.ext fun j => ?_
  have hnodup : ((added fields others).map (·.1)).Nodup := (List.filter_sublist.map _).nodup h'
  rw [← mem_iff_lookup hnodup, ← mem_iff_lookup h', mem_added, and_iff_left hname]

theorem lookup_joined (h' : (others.map (·.1)).Nodup) (name : String) :
    (joined fields others).lookup name =
      Option.merge overlay (fields.lookup name) (others.lookup name) := by
  rw [joined, List.lookup_append, lookup_map]
  by_cases hname : name ∈ fields.map (·.1)
  case pos =>
    obtain ⟨j, hj⟩ : ∃ j, fields.lookup name = some j := by
      refine Option.ne_none_iff_exists'.mp fun hnone => ?_
      obtain ⟨f, hf, rfl⟩ := List.mem_map.mp hname
      simpa using List.lookup_eq_none_iff.mp hnone f hf
    cases habove : others.lookup name <;> simp [hj, covered, habove, Option.merge]
  case neg =>
    rw [lookup_eq_none hname, lookup_added h' hname]
    cases others.lookup name <;> rfl

end Joined

theorem overlay_of_below {below : Json} (h : ∀ fields, below ≠ .obj fields) (above : Json) :
    overlay below above = above := by
  cases below with
  | obj fields => exact absurd rfl (h fields)
  | _ => simp [overlay]

theorem overlay_of_above {above : Json} (h : ∀ fields, above ≠ .obj fields) (below : Json) :
    overlay below above = above := by
  cases above with
  | obj fields => exact absurd rfl (h fields)
  | _ => cases below <;> simp [overlay]

theorem Named.overlay {below above : Json} (h : Ordered below) (h' : Ordered above) :
    Ordered (overlay below above) := by
  induction h generalizing above with
  | scalar h =>
    rwa [overlay_of_below (ne_obj_of_isScalar h)]
  | arr => rwa [overlay_of_below (by simp)]
  | @obj fields hnames hfields ih =>
    cases h' with
    | scalar h =>
      rw [overlay_of_above (ne_obj_of_isScalar h)]
      exact .scalar h
    | arr h =>
      rw [overlay_of_above (by simp)]
      exact .arr h
    | @obj others hnames' hothers =>
      have hnodup := nodup_joined (Ascending.nodup hnames) (Ascending.nodup hnames')
      rw [overlay_obj]
      refine .obj (ascending_sorted hnodup) fun g hg => ?_
      rcases List.mem_append.mp (mem_sorted.mp hg) with hbelow | hadded
      case inl =>
        obtain ⟨f, hf, rfl⟩ := List.mem_map.mp hbelow
        unfold covered
        cases habove : others.lookup f.1 with
        | none => exact hfields f hf
        | some j => exact ih f hf (hothers _ (mem_of_lookup habove))
      case inr => exact hothers g (mem_added.mp hadded).1

theorem standard_layered : Formats.standard.Layered where
  layer_scalar _ h := sortFields_scalar h
  layer_arr items := by
    change sortFields (.arr items) = _
    rw [sortFields, sortItems_eq_map]
    rfl
  layer_obj fields h := by
    cases h with
    | scalar h => cases h
    | obj hnames =>
      exact ⟨_, sortFields_obj fields, (lookup_sortEntries hnames "").1,
        fun name => (lookup_sortEntries hnames name).2⟩
  merge_obj fields others h h' := by
    have hnodup := nodup_joined h.nodup h'.nodup
    refine ⟨_, overlay_obj fields others, ascending_sorted hnodup, fun name => ?_⟩
    rw [lookup_sorted hnodup, lookup_joined h'.nodup]
    rfl
  merge_below _ above h := overlay_of_below h above
  merge_above below _ h := overlay_of_above h below

section Layered

variable {formats : Formats} (hformats : formats.Layered)

include hformats

theorem layer_eq {j : Json} (h : Distinct j) : formats.layer j = sortFields j := by
  induction h with
  | scalar h => rw [hformats.layer_scalar _ h, sortFields_scalar h]
  | arr _ ih =>
    rw [hformats.layer_arr, sortFields, sortItems_eq_map, List.map_congr_left ih]
  | @obj fields hnames hfields ih =>
    obtain ⟨held, hlayer, hascending, hlookup⟩ := hformats.layer_obj fields (.obj hnames hfields)
    rw [hlayer, sortFields_obj]
    refine congrArg _ (hascending.eq_of_lookup (lookup_sortEntries hnames "").1 fun name => ?_)
    rw [hlookup, (lookup_sortEntries hnames name).2]
    exact Option.map_congr fun j hj => ih (name, j) (mem_of_lookup hj)

theorem merge_eq {below above : Json} (h : Ordered below) (h' : Ordered above) :
    formats.merge below above = overlay below above := by
  induction h generalizing above with
  | scalar h =>
    have hbelow := ne_obj_of_isScalar h
    rw [hformats.merge_below _ _ hbelow, overlay_of_below hbelow]
  | arr => rw [hformats.merge_below _ _ (by simp), overlay_of_below (by simp)]
  | @obj fields hnames hfields ih =>
    cases h' with
    | scalar h =>
      have habove := ne_obj_of_isScalar h
      rw [hformats.merge_above _ _ habove, overlay_of_above habove]
    | arr => rw [hformats.merge_above _ _ (by simp), overlay_of_above (by simp)]
    | @obj others hnames' hothers =>
      obtain ⟨merged, hmerge, hascending, hlookup⟩ :=
        hformats.merge_obj fields others hnames hnames'
      have hdistinct' := Ascending.nodup hnames'
      have hnodup := nodup_joined (Ascending.nodup hnames) hdistinct'
      rw [hmerge, overlay_obj]
      refine congrArg _ (hascending.eq_of_lookup (ascending_sorted hnodup) fun name => ?_)
      rw [hlookup, lookup_sorted hnodup, lookup_joined hdistinct']
      cases hbelow : fields.lookup name with
      | none => cases others.lookup name <;> rfl
      | some j =>
        cases habove : others.lookup name with
        | none => rfl
        | some above =>
          have hmeet := ih (name, j) (mem_of_lookup hbelow) (hothers _ (mem_of_lookup habove))
          exact congrArg some hmeet

/-- Layers over a document come to what `overlay` makes of them. -/
theorem foldl_merge_eq {j : Json} (h : Distinct j) {layers : List Json}
    (hlayers : ∀ l ∈ layers, Ordered l) :
    layers.foldl formats.merge (formats.layer j) = layers.foldl overlay (sortFields j) := by
  have hfold (base : Json) (hbase : Ordered base) :
      layers.foldl formats.merge base = layers.foldl overlay base := by
    induction layers generalizing base with
    | nil => rfl
    | cons l layers ih =>
      obtain ⟨hl, hlayers⟩ := List.forall_mem_cons.mp hlayers
      rw [List.foldl_cons, List.foldl_cons, merge_eq hformats hbase hl]
      exact ih hlayers _ (hbase.overlay hl)
  rw [layer_eq hformats h]
  exact hfold _ h.sort

end Layered

end Settings
end FlowObserver
