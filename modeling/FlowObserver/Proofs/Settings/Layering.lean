import FlowObserver.Proofs.Settings.Reading

/-!
# What layers leave alone

A layer covers what it names and nothing else. Where every layer is silent, the value of the lowest
one stays, and it is this value that is read.
-/

namespace FlowObserver
namespace Settings

variable {spelling : Duration.Spelling}

/-- The field at `path` is there, and is `v` wherever it is there. -/
def Holds : List String → Json → Json → Prop
  | [], v, j => j = v
  | name :: path, v, .obj fields =>
    (∃ f ∈ fields, f.1 = name) ∧ ∀ f ∈ fields, f.1 = name → Holds path v f.2
  | _ :: _, _, _ => False

/-- No field lies at `path`, nor anything but fields on the way to it. -/
def Silent : List String → Json → Prop
  | name :: path, .obj fields => ∀ f ∈ fields, f.1 = name → Silent path f.2
  | _, _ => False

theorem Holds.sort {path : List String} {v j : Json} (h : Holds path v j) :
    Holds path (sortFields v) (sortFields j) := by
  induction path generalizing j with
  | nil => exact congrArg sortFields h
  | cons name path ih =>
    cases j with
    | obj fields =>
      obtain ⟨⟨f, hf, hname⟩, hall⟩ := h
      rw [sortFields_obj, sortEntries_eq_map]
      refine ⟨⟨_, mem_sorted.mpr (List.mem_map_of_mem hf), hname⟩, fun g hg hgname => ?_⟩
      obtain ⟨f, hf, rfl⟩ := List.mem_map.mp (mem_sorted.mp hg)
      exact ih (hall f hf hgname)
    | _ => exact h.elim

theorem Holds.overlay {path : List String} {v below above : Json} (h : Holds path v below)
    (hsilent : Silent path above) : Holds path v (overlay below above) := by
  induction path generalizing below above with
  | nil => exact hsilent.elim
  | cons name path ih =>
    match below, above with
    | .obj fields, .obj others =>
      obtain ⟨⟨f, hf, hname⟩, hall⟩ := h
      rw [overlay_obj]
      refine ⟨⟨_, mem_sorted.mpr (List.mem_append_left _ (List.mem_map_of_mem hf)), hname⟩,
        fun g hg hgname => ?_⟩
      rcases List.mem_append.mp (mem_sorted.mp hg) with hkept | hadded
      case inl =>
        obtain ⟨f, hf, rfl⟩ := List.mem_map.mp hkept
        unfold covered
        cases habove : others.lookup f.1 with
        | none => exact hall f hf hgname
        | some w => exact ih (hall f hf hgname) (hsilent _ (mem_of_lookup habove) hgname)
      case inr =>
        -- a field that is added has a name that is not below
        refine absurd ?_ (mem_added.mp hadded).2
        rw [hgname, ← hname]
        exact List.mem_map_of_mem hf
    | .obj _, .null | .obj _, .bool _ | .obj _, .int _ | .obj _, .real _ | .obj _, .str _
    | .obj _, .arr _ => exact hsilent.elim
    | .null, _ | .bool _, _ | .int _, _ | .real _, _ | .str _, _ | .arr _, _ => exact h.elim

theorem Holds.layers {path : List String} {v below : Json} {layers : List Json}
    (h : Holds path v below) (hsilent : ∀ j ∈ layers, Silent path j) :
    Holds path v (layers.foldl Settings.overlay below) := by
  induction layers generalizing below with
  | nil => exact h
  | cons layer layers ih =>
    have hlayer := hsilent layer List.mem_cons_self
    exact ih (h.overlay hlayer) fun j hj => hsilent j (List.mem_cons_of_mem _ hj)

/-- Nothing of `below` is left under `above`. -/
def Covers (above below : Json) : Prop :=
  overlay (sortFields below) (sortFields above) = sortFields above

theorem covers_of_not_obj {above : Json} (h : ∀ fields, above ≠ .obj fields) (below : Json) :
    Covers above below := by
  refine overlay_of_above (fun fields => ?_) _
  cases above with
  | obj fields => exact absurd rfl (h fields)
  | _ => simp [sortFields]

theorem holds_field {name : String} {path : List String} {v j : Json}
    {fields : List (String × Json)} (hdistinct : (fields.map (·.1)).Nodup)
    (hj : fields.lookup name = some j) (h : Holds path v j) :
    Holds (name :: path) v (.obj fields) := by
  refine ⟨⟨(name, j), mem_of_lookup hj, rfl⟩, fun f hf hname => ?_⟩
  have hlookup := lookup_of_mem hdistinct hf
  rw [hname, hj] at hlookup
  exact Option.some.inj hlookup ▸ h

/-- A mapping covers one with the same fields if each of its values covers the one below it. -/
theorem covers_obj {fields others : List (String × Json)}
    (hnames : fields.map (·.1) = others.map (·.1)) (hdistinct : (others.map (·.1)).Nodup)
    (hcovers : ∀ f ∈ fields, ∀ j, others.lookup f.1 = some j → Covers j f.2) :
    Covers (.obj others) (.obj fields) := by
  have hbelow := lookup_sortEntries (hnames ▸ hdistinct)
  have habove := lookup_sortEntries hdistinct
  have hnodup := nodup_joined (hbelow "").1.nodup (habove "").1.nodup
  rw [Covers, sortFields_obj, sortFields_obj, overlay_obj]
  refine congrArg _ ((ascending_sorted hnodup).eq_of_lookup (habove "").1 fun name => ?_)
  rw [lookup_sorted hnodup, lookup_joined (habove "").1.nodup, (hbelow name).2, (habove name).2]
  by_cases hname : name ∈ others.map (·.1)
  case pos =>
    obtain ⟨o, ho, rfl⟩ := List.mem_map.mp hname
    obtain ⟨f, hf, hsame⟩ := List.mem_map.mp (hnames ▸ hname)
    have hlookup := lookup_of_mem hdistinct ho
    rw [hlookup, ← hsame, lookup_of_mem (hnames ▸ hdistinct) hf]
    exact congrArg some (hcovers f hf o.2 (hsame ▸ hlookup))
  case neg => rw [lookup_eq_none hname, lookup_eq_none (hnames ▸ hname)]; rfl

/-- A mapping of plain values covers whatever has the same fields. -/
theorem covers_flat {fields others : List (String × Json)}
    (hnames : fields.map (·.1) = others.map (·.1)) (hdistinct : (others.map (·.1)).Nodup)
    (hflat : ∀ o ∈ others, ∀ fields, o.2 ≠ .obj fields) : Covers (.obj others) (.obj fields) :=
  covers_obj hnames hdistinct fun f _ _ hj => covers_of_not_obj (hflat _ (mem_of_lookup hj)) f.2

theorem covers_toJson (s t : Settings) : Covers (s.toJson spelling) (t.toJson spelling) := by
  have hattach : Covers (.obj (attachFields s.attach)) (.obj (attachFields t.attach)) :=
    covers_flat rfl (by simp [attachFields]) (by simp [attachFields, strings])
  have hpipeline : Covers (.obj (pipelineFields spelling s.pipeline))
      (.obj (pipelineFields spelling t.pipeline)) :=
    covers_flat rfl (by simp [pipelineFields]) (by simp [pipelineFields, Duration.toJson])
  have hdistribution : Covers (.obj (distributionFields s.distribution))
      (.obj (distributionFields t.distribution)) :=
    covers_flat rfl (by simp [distributionFields]) (by simp [distributionFields])
  have hkubernetes : Covers (.obj (kubernetesFields spelling s.kubernetes))
      (.obj (kubernetesFields spelling t.kubernetes)) :=
    covers_flat rfl (by simp [kubernetesFields]) (by simp [kubernetesFields, Duration.toJson])
  have hservice : Covers (.obj (serviceFields s.service)) (.obj (serviceFields t.service)) :=
    covers_flat rfl (by simp [serviceFields]) (by simp [serviceFields])
  have hmetrics : Covers (.obj (metricsFields s.metrics)) (.obj (metricsFields t.metrics)) :=
    covers_flat rfl (by simp [metricsFields]) (by simp [metricsFields])
  have hserviceMap : Covers (.obj (serviceMapFields spelling s.serviceMap))
      (.obj (serviceMapFields spelling t.serviceMap)) :=
    covers_flat rfl (by simp [serviceMapFields]) (by simp [serviceMapFields, Duration.toJson])
  refine covers_obj rfl (by simp [toFields_eq]) ?_
  simp [toFields_eq, List.lookup_cons, covers_of_not_obj, Duration.toJson, hattach, hpipeline,
    hdistribution, hkubernetes, hservice, hmetrics, hserviceMap]

theorem distinct_toJson (s : Settings) : Distinct (s.toJson spelling) := by
  have hstr (text : String) : Distinct (.str text) := .scalar rfl
  have hbool (b : Bool) : Distinct (.bool b) := .scalar rfl
  have hint (n : Int) : Distinct (.int n) := .scalar rfl
  have hduration (d : Duration) : Distinct (d.toJson spelling) := .scalar rfl
  have hstrings (items : List String) : Distinct (strings items) :=
    .arr (List.forall_mem_map.mpr fun _ _ => .scalar rfl)
  have hattach : Distinct (.obj (attachFields s.attach)) :=
    .obj (by simp [attachFields]) (by simp [attachFields, hstr, hstrings])
  have hpipeline : Distinct (.obj (pipelineFields spelling s.pipeline)) :=
    .obj (by simp [pipelineFields]) (by simp [pipelineFields, hint, hduration])
  have hdistribution : Distinct (.obj (distributionFields s.distribution)) :=
    .obj (by simp [distributionFields]) (by simp [distributionFields, hint])
  have hkubernetes : Distinct (.obj (kubernetesFields spelling s.kubernetes)) :=
    .obj (by simp [kubernetesFields]) (by simp [kubernetesFields, hbool, hduration])
  have hservice : Distinct (.obj (serviceFields s.service)) :=
    .obj (by simp [serviceFields]) (by simp [serviceFields, hstr, hint])
  have hmetrics : Distinct (.obj (metricsFields s.metrics)) :=
    .obj (by simp [metricsFields]) (by simp [metricsFields, hbool, hstr, hint])
  have hserviceMap : Distinct (.obj (serviceMapFields spelling s.serviceMap)) :=
    .obj (by simp [serviceMapFields]) (by simp [serviceMapFields, hbool, hduration])
  refine .obj (by simp [toFields_eq]) ?_
  simp [toFields_eq, hstr, hduration, hattach, hpipeline, hdistribution, hkubernetes, hservice,
    hmetrics, hserviceMap]

/-- A log level as the only field of a layer replaces the one below. -/
theorem overlay_level (s : Settings) (l : Severity) :
    overlay (sortFields (s.toJson spelling)) (sortFields (.obj [("log_level", l.label)])) =
      sortFields ({ s with logLevel := l }.toJson spelling) := by
  simp [sortFields_toJson, sortFields_obj [_], sortEntries, sortFields_str, overlay, overlayEntries,
    List.lookup_cons, sorted, List.mergeSort, List.MergeSort.Internal.splitInTwo]

def flagFields (l : Severity) : List (String × Json) := [("log_level", l.label)]

theorem distinct_flagFields (l : Severity) : Distinct (.obj (flagFields l)) :=
  .obj (by simp [flagFields]) (by simpa [flagFields] using .scalar rfl)

/-- Settings with the level that was asked for. -/
def atLevel (s : Settings) (level : Option Severity) : Settings :=
  { s with logLevel := level.getD s.logLevel }

theorem InRange.atLevel {s : Settings} (h : s.InRange) (level : Option Severity) :
    (s.atLevel level).InRange := ⟨h.handoffCapacity, h.maxConsecutiveFailures, h.subscriberCapacity⟩

section Formats

variable {formats : Formats} (hformats : formats.Documented)

def flagLayers (formats : Formats) (level : Option Severity) : List Json :=
  level.toList.map fun l => formats.layer (.obj (flagFields l))

include hformats

theorem flagLayers_eq (level : Option Severity) :
    flagLayers formats level = level.toList.map fun l => sortFields (.obj (flagFields l)) :=
  List.map_congr_left fun l _ => layer_eq hformats.toLayered (distinct_flagFields l)

theorem ordered_flagLayers (level : Option Severity) :
    ∀ j ∈ flagLayers formats level, Ordered j := by
  rw [flagLayers_eq hformats]
  exact List.forall_mem_map.mpr fun l _ => (distinct_flagFields l).sort

/-- What layers that keep to the order of names are read as. -/
theorem ofLayers_eq (s : Settings) {layers : List Json} (hlayers : ∀ j ∈ layers, Ordered j) :
    ofLayers formats s layers = ofDocument formats.duration .layers
      (layers.foldl overlay (sortFields (s.toJson formats.duration))) := by
  rw [ofLayers, foldl_merge_eq hformats.toLayered (distinct_toJson s) hlayers]

theorem foldl_flagLayers (s : Settings) (level : Option Severity) :
    (flagLayers formats level).foldl overlay (sortFields (s.toJson formats.duration)) =
      sortFields ((s.atLevel level).toJson formats.duration) := by
  rw [flagLayers_eq hformats]
  cases level with
  | none => rfl
  | some l => exact overlay_level s l

/-- Defaults that nothing but the level covers come back as they are. -/
theorem ofLayers_flagLayers {s : Settings} (h : s.InRange) (level : Option Severity) :
    ofLayers formats s (flagLayers formats level) = .ok (s.atLevel level) := by
  rw [ofLayers_eq hformats s (ordered_flagLayers hformats level), foldl_flagLayers hformats]
  exact (read_toJson hformats.duration (h.atLevel level)).2

/-- Settings that are a layer of their own leave nothing of those below. -/
theorem ofLayers_toJson {s : Settings} (h : s.InRange) (defaults : Settings)
    (level : Option Severity) :
    ofLayers formats defaults
        (formats.layer (s.toJson formats.duration) :: flagLayers formats level) =
      .ok (s.atLevel level) := by
  have hlayers : ∀ j ∈ sortFields (s.toJson formats.duration) :: flagLayers formats level,
      Ordered j :=
    List.forall_mem_cons.mpr ⟨(distinct_toJson s).sort, ordered_flagLayers hformats level⟩
  rw [layer_eq hformats.toLayered (distinct_toJson s), ofLayers_eq hformats defaults hlayers,
    List.foldl_cons, show overlay _ _ = _ from covers_toJson s defaults, foldl_flagLayers hformats]
  exact (read_toJson hformats.duration (h.atLevel level)).2

end Formats

end Settings
end FlowObserver
