import FlowObserver.Proofs.Settings.Merging
import FlowObserver.Proofs.Time.ReadBack
import FlowObserver.Proofs.Yaml.Nodes

/-!
# What is documented of formats

Nothing is known of the formats of settings but that units make up durations, that documents are
read as they were written, and how layers are merged (`Formats.Documented`). The standard formats are
of this kind (`standard_documented`).
-/

namespace FlowObserver
namespace Settings

/-- A document of values of one line, of lists of these and of mappings is read as it was written,
also as a layer. A layer from a file has each name once in a mapping. -/
structure Formats.Documented (formats : Formats) : Prop extends formats.Layered where
  duration : formats.duration.Documented
  readDocument_writeDocument : ∀ fields, Yaml.Written Yaml.maxDepth (.obj fields) →
    formats.readDocument (formats.writeDocument fields) = .ok (.obj fields)
  readLayer_writeDocument : ∀ fields, Yaml.Written Yaml.maxDepth (.obj fields) →
    formats.readLayer (formats.writeDocument fields) = .ok (formats.layer (.obj fields))
  ordered_readLayer : ∀ text j, formats.readLayer text = .ok j → Ordered j

theorem isScalar_resolve (text : String) : isScalar (Yaml.resolve text) = true := by
  unfold Yaml.resolve
  repeat' split
  all_goals rfl

theorem isScalar_scalarValue {tag : Option String} {text : String} {plain : Bool} {j : Json}
    (h : Yaml.scalarValue tag text plain = .ok j) : isScalar j = true := by
  unfold Yaml.scalarValue at h
  split at h
  · cases h
    split
    · exact isScalar_resolve text
    · rfl
  · cases hbool : Yaml.bool? text with
    | none => simp [hbool] at h
    | some b =>
      obtain rfl : .bool b = j := by simpa [hbool] using h
      rfl
  · cases hint : Yaml.int? text with
    | none => simp [hint] at h
    | some n =>
      obtain rfl : .int n = j := by simpa [hint] using h
      rfl
  · cases hreal : Yaml.real? text with
    | none => simp [hreal] at h
    | some x =>
      obtain rfl : .real x = j := by simpa [hreal] using h
      rfl
  · cases hnull : Yaml.isNull text with
    | false => simp [hnull] at h
    | true =>
      obtain rfl : .null = j := by simpa [hnull] using h
      rfl
  · split at h
    · cases h
    · cases h
      rfl

theorem nodup_setField {fields : List (String × Json)} (h : (fields.map (·.1)).Nodup)
    (name : String) (value : Json) : ((Yaml.setField fields name value).map (·.1)).Nodup := by
  unfold Yaml.setField
  split
  case isTrue =>
    have hnames : (fields.map fun f => if f.1 = name then (name, value) else f).map (·.1) =
        fields.map (·.1) := by
      rw [List.map_map]
      refine List.map_congr_left fun f _ => ?_
      by_cases hf : f.1 = name <;> simp [hf]
    rwa [hnames]
  case isFalse hnew =>
    rw [List.map_append]
    refine List.nodup_append.mpr ⟨h, List.nodup_singleton _, fun a ha b hb => ?_⟩
    obtain ⟨f, hf, rfl⟩ := List.mem_map.mp ha
    obtain rfl := List.mem_singleton.mp hb
    exact fun heq => hnew (List.any_eq_true.mpr ⟨f, hf, by simpa using heq⟩)

theorem mem_setField {fields : List (String × Json)} {name : String} {value : Json}
    {f : String × Json} (h : f ∈ Yaml.setField fields name value) :
    f ∈ fields ∨ f = (name, value) := by
  unfold Yaml.setField at h
  split at h
  · obtain ⟨g, hg, rfl⟩ := List.mem_map.mp h
    split
    · exact .inr rfl
    · exact .inl hg
  · simpa using h

theorem mapError_eq_ok {ε ε' α : Type} {f : ε → ε'} {x : Except ε α} {a : α} :
    x.mapError f = .ok a ↔ x = .ok a := by
  cases x <;> simp [Except.mapError]

theorem map_eq_ok {ε α β : Type} {f : α → β} {x : Except ε α} {b : β} :
    x.map f = .ok b ↔ ∃ a, x = .ok a ∧ f a = b := by
  cases x <;> simp [Except.map]

theorem bind_eq_ok {ε α β : Type} {x : Except ε α} {f : α → Except ε β} {b : β} :
    x >>= f = .ok b ↔ ∃ a, x = .ok a ∧ f a = .ok b := by
  cases x with
  | ok a => exact ⟨fun h => ⟨a, rfl, h⟩, by rintro ⟨_, ⟨⟩, h⟩; exact h⟩
  | error r => exact ⟨nofun, by rintro ⟨_, ⟨⟩, _⟩⟩

section Node

variable {depth : Nat} (hvalue : ∀ n j, Yaml.Node.value depth n = .ok j → Distinct j)

include hvalue

theorem distinct_itemValues {nodes : List Yaml.Node} {items : List Json}
    (h : Yaml.itemValues depth nodes = .ok items) : ∀ j ∈ items, Distinct j := by
  induction nodes generalizing items with
  | nil =>
    rw [Yaml.itemValues] at h
    cases h
    simp
  | cons n nodes ih =>
    rw [Yaml.itemValues] at h
    obtain ⟨j, hn, h⟩ := bind_eq_ok.mp h
    obtain ⟨rest, hrest, h⟩ := bind_eq_ok.mp h
    cases h
    exact List.forall_mem_cons.mpr ⟨hvalue n j hn, ih hrest⟩

/-- A name that comes again replaces the value it had, and so it stays the only one. -/
theorem distinct_entryValues {entries : List (Yaml.Node × Yaml.Node)}
    {fields result : List (String × Json)} (hfields : Distinct (.obj fields))
    (h : Yaml.entryValues depth fields entries = .ok result) : Distinct (.obj result) := by
  induction entries generalizing fields with
  | nil =>
    rw [Yaml.entryValues] at h
    cases h
    exact hfields
  | cons entry entries ih =>
    obtain ⟨key, n⟩ := entry
    cases key with
    | sequence tag items => simp [Yaml.entryValues] at h
    | mapping tag inner => simp [Yaml.entryValues] at h
    | scalar tag name plain =>
      rw [Yaml.entryValues] at h
      split at h
      · cases h
      obtain ⟨j, hn, h⟩ := bind_eq_ok.mp h
      refine ih ?_ h
      cases hfields with
      | scalar h => cases h
      | obj hnames hinner =>
        refine .obj (nodup_setField hnames name j) fun f hf => ?_
        rcases mem_setField hf with hf | rfl
        · exact hinner f hf
        · exact hvalue n j hn

end Node

theorem distinct_value (depth : Nat) : ∀ n j, Yaml.Node.value depth n = .ok j → Distinct j := by
  induction depth with
  | zero =>
    intro n j h
    cases n with
    | scalar tag text plain =>
      exact .scalar (isScalar_scalarValue (by simpa [Yaml.Node.value] using h))
    | sequence tag items => simp [Yaml.Node.value] at h
    | mapping tag entries => simp [Yaml.Node.value] at h
  | succ depth ih =>
    intro n j h
    cases n with
    | scalar tag text plain =>
      exact .scalar (isScalar_scalarValue (by simpa [Yaml.Node.value] using h))
    | sequence tag items =>
      rw [Yaml.Node.value] at h
      split at h
      · cases h
      obtain ⟨values, hvalues, rfl⟩ := map_eq_ok.mp h
      exact .arr (distinct_itemValues ih hvalues)
    | mapping tag entries =>
      rw [Yaml.Node.value] at h
      split at h
      · cases h
      obtain ⟨fields, hfields, rfl⟩ := map_eq_ok.mp h
      exact distinct_entryValues ih (.obj .nil (by simp)) hfields

theorem distinct_documentOf {text : String} {j : Json} (h : documentOf text = .ok j) :
    Distinct j := by
  have hempty : Distinct (.obj []) := .obj .nil (by simp)
  unfold documentOf at h
  split at h
  · cases h
  · cases h
    exact hempty
  · split at h
    · cases h
      exact hempty
    · exact distinct_value _ _ _ (mapError_eq_ok.mp h)
    · split at h <;> cases h
    · cases h
  · cases h

theorem documentOf_document {fields : List (String × Json)}
    (h : Yaml.Written Yaml.maxDepth (.obj fields)) :
    documentOf (Yaml.document fields) = .ok (.obj fields) := by
  have hvalue := Yaml.value_nodeOf h
  rw [Yaml.nodeOf] at hvalue
  rw [documentOf, Yaml.parse_document h, Yaml.nodeOf]
  dsimp only
  rw [hvalue]
  rfl

theorem standard_documented : Formats.standard.Documented where
  toLayered := standard_layered
  duration := Duration.human_documented
  readDocument_writeDocument fields h := by
    change (Yaml.value (Yaml.document fields)).mapError _ = _
    rw [Yaml.value_document h]
    rfl
  readLayer_writeDocument fields h := by
    change (documentOf (Yaml.document fields)).map sortFields = _
    rw [documentOf_document h]
    rfl
  ordered_readLayer text j h := by
    obtain ⟨document, hdocument, rfl⟩ := map_eq_ok.mp h
    exact (distinct_documentOf hdocument).sort

end Settings
end FlowObserver
