import FlowObserver.Proofs.Settings.Layering

/-!
# Fields of groups

A field of a group is read into one part of it, which no other field changes. So the duration that a
document holds at some place is the one that its reader returns there
(`Field.readsDuration`, `Field.readsDuration_within`).
-/

namespace FlowObserver
namespace Settings

theorem below_eq_ok {α : Type} {name : String} {x : Accepted α} {a : α} :
    below name x = .ok a ↔ x = .ok a := mapError_eq_ok

namespace Group

variable {σ α : Type} {g : Group σ} {name : String} {get : σ → α}
  {reader : Origin → Json → Accepted α}

/-- The field `name` of a group is what `get` gives: it is read by `reader`, and no other field of
the group changes it. -/
structure Field (g : Group σ) (name : String) (get : σ → α)
    (reader : Origin → Json → Accepted α) : Prop where
  known : name ∈ g.fieldNames
  set : ∀ origin j s, get <$> g.set origin name j s = reader origin j
  keep : ∀ other ∈ g.fieldNames, other ≠ name → ∀ origin j s,
    get <$> g.set origin other j s = (fun _ => get s) <$> g.set origin other j s

/-- What holds of all values that the fields of that name are read as holds in the end, if there is
such a field or it held before. -/
theorem Field.holds_of_read (hfield : g.Field name get reader) {P : α → Prop} {origin : Origin}
    {fields : List (String × Json)} {s t : σ}
    (hread : ∀ f ∈ fields, f.1 = name → ∀ a, reader origin f.2 = .ok a → P a)
    (hthere : (∃ f ∈ fields, f.1 = name) ∨ P (get s))
    (h : g.read origin s (.obj fields) = .ok t) : P (get t) := by
  induction fields generalizing s with
  | nil =>
    obtain rfl : s = t := by simpa [read_nil] using h
    simpa using hthere
  | cons field fields ih =>
    obtain ⟨other, j⟩ := field
    have hrest := fun f hf => hread f (List.mem_cons_of_mem _ hf)
    rw [read_cons] at h
    split at h
    case isTrue hknown =>
      obtain ⟨s', hset, h⟩ := bind_eq_ok.mp h
      rw [below_eq_ok] at hset
      by_cases hname : other = name
      case pos =>
        subst hname
        have hvalue := hfield.set origin j s
        rw [hset] at hvalue
        exact ih hrest (.inr (hread _ List.mem_cons_self rfl _ hvalue.symm)) h
      case neg =>
        have hkept := hfield.keep other hknown hname origin j s
        rw [hset] at hkept
        have hkept : get s' = get s := Except.ok.inj hkept
        refine ih hrest ?_ h
        simpa [hname, hkept] using hthere
    case isFalse hunknown =>
      have hname : other ≠ name := fun heq => hunknown (heq ▸ hfield.known)
      refine ih hrest ?_ h
      simpa [hname] using hthere

/-- Whatever document holds a duration at `path`, it is this that `get` gives once the group is
read. -/
def ReadsDuration (g : Group σ) (spelling : Duration.Spelling) (path : List String)
    (get : σ → Duration) : Prop :=
  ∀ origin j d s t, Holds path (d.toJson spelling) j → g.read origin s j = .ok t → get t = d

variable {spelling : Duration.Spelling}

theorem Field.readsDuration (hspelling : spelling.Documented) {get : σ → Duration}
    (hfield : g.Field name get fun _ => readDuration spelling) :
    g.ReadsDuration spelling [name] get := by
  intro origin j d s t hj h
  match j with
  | .obj fields =>
    obtain ⟨hthere, hall⟩ := hj
    refine hfield.holds_of_read (P := (· = d)) (fun f hf hname e he => ?_) (.inl hthere) h
    rw [show f.2 = d.toJson spelling from hall f hf hname, readDuration_toJson hspelling] at he
    exact (Except.ok.inj he).symm
  | .null | .bool _ | .int _ | .real _ | .str _ | .arr _ => exact hj.elim

theorem Field.readsDuration_within {τ : Type} {inner : Group τ} {start : τ} {sub : σ → τ}
    {path : List String} {get : τ → Duration}
    (hfield : g.Field name sub fun origin => inner.read origin start)
    (hinner : inner.ReadsDuration spelling path get) :
    g.ReadsDuration spelling (name :: path) fun s => get (sub s) := by
  intro origin j d s t hj h
  match j with
  | .obj fields =>
    obtain ⟨hthere, hall⟩ := hj
    exact hfield.holds_of_read (P := fun u => get u = d)
      (fun f hf hname u hu => hinner origin f.2 d start u (hall f hf hname) hu) (.inl hthere) h
  | .null | .bool _ | .int _ | .real _ | .str _ | .arr _ => exact hj.elim

end Group

end Settings
end FlowObserver
