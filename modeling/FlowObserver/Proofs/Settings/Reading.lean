import FlowObserver.Proofs.Settings.Formats
import FlowObserver.Settings.Layers

/-!
# Reading written settings

Each setting is read back from the value that it is written as, and a group of settings from its
fields. Main result: all settings are read back from their document, whether its fields stand in the
order of writing or in that of their names (`read_toJson`).
-/

namespace FlowObserver
namespace Settings

variable {spelling : Duration.Spelling}

theorem readNat_lt {limit n : Nat} (h : n < limit) (typeName : String) :
    readNat limit typeName (.int n) = .ok n := by
  have hn : (0 : Int) ≤ n ∧ (n : Int) < limit := ⟨by omega, by omega⟩
  rw [readNat, if_pos hn, Int.toNat_natCast]

theorem readPort_toNat (p : UInt16) : readPort (.int p.toNat) = .ok p := by
  rw [readPort, readNat_lt p.toNat_lt]
  simp [Except.map]

theorem readDuration_toJson (h : spelling.Documented) (d : Duration) :
    readDuration spelling (d.toJson spelling) = .ok d := by
  simp only [readDuration, Duration.toJson, readString, readText, bind, Except.bind, h.read_write d]
  rfl

theorem readLevel_label (l : Severity) : readLevel (.str l.label) = .ok l := by
  cases l <;> rfl

theorem readStrings_strings (items : List String) : readStrings (strings items) = .ok items := by
  have hread (n : Nat) : ((items.map Json.str).zipIdx n).mapM
      (fun p => below (toString p.2) (readString p.1)) = .ok items := by
    induction items generalizing n with
    | nil => rfl
    | cons item items ih =>
      rw [List.map_cons, List.zipIdx_cons, List.mapM_cons, ih]
      rfl
  exact hread 0

theorem readMode_label (origin : Origin) (m : AttachMode) :
    readVariant origin "AttachMode" AttachMode.ofLabel? ["fixed", "discover"] (.str m.label) =
      .ok m := by
  cases m <;> rfl

theorem readFormat_label (origin : Origin) (f : LogFormat) :
    readVariant origin "LogFormat" LogFormat.ofLabel? ["full", "json"] (.str f.label) = .ok f := by
  cases f <;> rfl

theorem sortFields_str (s : String) : sortFields (.str s) = .str s := by simp [sortFields]

theorem sortFields_bool (b : Bool) : sortFields (.bool b) = .bool b := by simp [sortFields]

theorem sortFields_int (n : Int) : sortFields (.int n) = .int n := by simp [sortFields]

theorem sortFields_duration (d : Duration) :
    sortFields (d.toJson spelling) = d.toJson spelling := sortFields_str _

theorem sortFields_strings (items : List String) : sortFields (strings items) = strings items := by
  have hitems : sortItems (items.map .str) = items.map .str := by
    induction items with
    | nil => rfl
    | cons item items ih => rw [List.map_cons, sortItems, sortFields_str, ih]
  rw [strings, sortFields, hitems]

namespace Group

variable {σ : Type} (g : Group σ) (origin : Origin)

theorem read_nil (s : σ) : g.read origin s (.obj []) = .ok s := rfl

theorem read_cons (s : σ) (name : String) (j : Json) (fields : List (String × Json)) :
    g.read origin s (.obj ((name, j) :: fields)) =
      if name ∈ g.fieldNames then
        below name (g.set origin name j s) >>= fun t => g.read origin t (.obj fields)
      else g.read origin s (.obj fields) := by
  by_cases hname : name ∈ g.fieldNames <;> simp [read, setAll, hname]

end Group

def attachFields (s : AttachSettings) : List (String × Json) :=
  [("mode", s.mode.label), ("interface", s.interface), ("patterns", strings s.patterns),
   ("kinds", strings s.kinds)]

def pipelineFields (spelling : Duration.Spelling) (s : PipelineSettings) : List (String × Json) :=
  [("handoff_capacity", s.handoffCapacity), ("handoff_timeout", s.handoffTimeout.toJson spelling),
   ("backoff_initial", s.backoffInitial.toJson spelling),
   ("backoff_max", s.backoffMax.toJson spelling),
   ("max_consecutive_failures", s.maxConsecutiveFailures),
   ("loss_poll_interval", s.lossPollInterval.toJson spelling)]

def distributionFields (s : DistributionSettings) : List (String × Json) :=
  [("subscriber_capacity", s.subscriberCapacity)]

def kubernetesFields (spelling : Duration.Spelling) (s : KubernetesSettings) :
    List (String × Json) :=
  [("enabled", s.enabled), ("watch_reconnect_delay", s.watchReconnectDelay.toJson spelling)]

def serviceFields (s : ListenSettings) : List (String × Json) :=
  [("listen_address", s.address), ("port", s.port.toNat)]

def metricsFields (s : MetricsSettings) : List (String × Json) :=
  [("enabled", s.enabled), ("listen_address", s.listen.address), ("port", s.listen.port.toNat)]

def serviceMapFields (spelling : Duration.Spelling) (s : ServiceMapSettings) :
    List (String × Json) :=
  [("enabled", s.enabled), ("default_window", s.defaultWindow.toJson spelling),
   ("retention", s.retention.toJson spelling)]

theorem toFields_eq (s : Settings) : s.toFields spelling =
    [("log_level", .str s.logLevel.label), ("log_format", .str s.logFormat.label),
     ("attach", .obj (attachFields s.attach)), ("ebpf_object_path", .str s.objectPath),
     ("pipeline", .obj (pipelineFields spelling s.pipeline)),
     ("distribution", .obj (distributionFields s.distribution)),
     ("kubernetes", .obj (kubernetesFields spelling s.kubernetes)),
     ("grpc", .obj (serviceFields s.service)), ("metrics", .obj (metricsFields s.metrics)),
     ("servicemap", .obj (serviceMapFields spelling s.serviceMap)),
     ("shutdown_timeout", s.shutdownTimeout.toJson spelling)] := rfl

/-- A group is read from its fields as they stand or sorted. -/
def ReadsBack {σ : Type} (g : Group σ) (fields : List (String × Json)) (t : σ) : Prop :=
  ∀ origin s, g.read origin s (.obj fields) = .ok t ∧
    g.read origin s (sortFields (.obj fields)) = .ok t

section Groups

theorem readsBack_attach (s : AttachSettings) : ReadsBack attachGroup (attachFields s) s := by
  intro origin before
  simp [attachFields, sortFields_obj, sortEntries, sortFields_str, sortFields_strings, sorted,
    List.mergeSort, List.MergeSort.Internal.splitInTwo, Group.read_cons, Group.read_nil,
    attachGroup, readMode_label, readStrings_strings]
  exact ⟨rfl, rfl⟩

theorem readsBack_pipeline (h : spelling.Documented) {s : PipelineSettings}
    (hcapacity : s.handoffCapacity < UInt64.size)
    (hfailures : s.maxConsecutiveFailures < UInt32.size) :
    ReadsBack (pipelineGroup spelling) (pipelineFields spelling s) s := by
  intro origin before
  simp [pipelineFields, sortFields_obj, sortEntries, sortFields_int, sortFields_duration, sorted,
    List.mergeSort, List.MergeSort.Internal.splitInTwo, Group.read_cons, Group.read_nil,
    pipelineGroup, readSize, readNat_lt, hcapacity, hfailures, readDuration_toJson h]
  exact ⟨rfl, rfl⟩

theorem readsBack_distribution {s : DistributionSettings}
    (hcapacity : s.subscriberCapacity < UInt64.size) :
    ReadsBack distributionGroup (distributionFields s) s := by
  intro origin before
  simp [distributionFields, sortFields_obj, sortEntries, sortFields_int, sorted, Group.read_cons,
    Group.read_nil, distributionGroup, readSize, readNat_lt, hcapacity]
  rfl

theorem readsBack_kubernetes (h : spelling.Documented) (s : KubernetesSettings) :
    ReadsBack (kubernetesGroup spelling) (kubernetesFields spelling s) s := by
  intro origin before
  simp [kubernetesFields, sortFields_obj, sortEntries, sortFields_bool, sortFields_duration, sorted,
    List.mergeSort, List.MergeSort.Internal.splitInTwo, Group.read_cons, Group.read_nil,
    kubernetesGroup, readBool, readDuration_toJson h]
  rfl

theorem readsBack_service (s : ListenSettings) : ReadsBack serviceGroup (serviceFields s) s := by
  intro origin before
  simp [serviceFields, sortFields_obj, sortEntries, sortFields_str, sortFields_int, sorted,
    List.mergeSort, List.MergeSort.Internal.splitInTwo, Group.read_cons, Group.read_nil,
    serviceGroup, readString, readText, readPort_toNat]
  rfl

theorem readsBack_metrics (s : MetricsSettings) : ReadsBack metricsGroup (metricsFields s) s := by
  intro origin before
  simp [metricsFields, sortFields_obj, sortEntries, sortFields_bool, sortFields_str, sortFields_int,
    sorted, List.mergeSort, List.MergeSort.Internal.splitInTwo, Group.read, Group.setAll,
    metricsGroup, readBool, readString, readText, readPort_toNat]
  rfl

theorem readsBack_serviceMap (h : spelling.Documented) (s : ServiceMapSettings) :
    ReadsBack (serviceMapGroup spelling) (serviceMapFields spelling s) s := by
  intro origin before
  simp [serviceMapFields, sortFields_obj, sortEntries, sortFields_bool, sortFields_duration, sorted,
    List.mergeSort, List.MergeSort.Internal.splitInTwo, Group.read_cons, Group.read_nil,
    serviceMapGroup, readBool, readDuration_toJson h]
  exact ⟨rfl, rfl⟩

end Groups

/-- The numbers that are not settings of one type only are those that their types can hold. -/
structure InRange (s : Settings) : Prop where
  handoffCapacity : s.pipeline.handoffCapacity < UInt64.size
  maxConsecutiveFailures : s.pipeline.maxConsecutiveFailures < UInt32.size
  subscriberCapacity : s.distribution.subscriberCapacity < UInt64.size

theorem sortFields_toJson (s : Settings) : sortFields (s.toJson spelling) = .obj
    [("attach", sortFields (.obj (attachFields s.attach))),
     ("distribution", sortFields (.obj (distributionFields s.distribution))),
     ("ebpf_object_path", .str s.objectPath),
     ("grpc", sortFields (.obj (serviceFields s.service))),
     ("kubernetes", sortFields (.obj (kubernetesFields spelling s.kubernetes))),
     ("log_format", .str s.logFormat.label), ("log_level", .str s.logLevel.label),
     ("metrics", sortFields (.obj (metricsFields s.metrics))),
     ("pipeline", sortFields (.obj (pipelineFields spelling s.pipeline))),
     ("servicemap", sortFields (.obj (serviceMapFields spelling s.serviceMap))),
     ("shutdown_timeout", s.shutdownTimeout.toJson spelling)] := by
  simp [toJson, toFields_eq, sortFields_obj (_ :: _), sortEntries, sortFields_str,
    sortFields_duration, sorted, List.mergeSort, List.MergeSort.Internal.splitInTwo]

theorem readsBack_root (hspelling : spelling.Documented) {s : Settings} (h : s.InRange) :
    ReadsBack (rootGroup spelling) (s.toFields spelling) s := by
  intro origin before
  have hattach := readsBack_attach s.attach
  have hpipeline := readsBack_pipeline hspelling h.handoffCapacity h.maxConsecutiveFailures
  have hdistribution := readsBack_distribution h.subscriberCapacity
  have hkubernetes := readsBack_kubernetes hspelling s.kubernetes
  have hservice := readsBack_service s.service
  have hmetrics := readsBack_metrics s.metrics
  have hserviceMap := readsBack_serviceMap hspelling s.serviceMap
  constructor
  · simp [toFields_eq, Group.read_cons, Group.read_nil, rootGroup, readLevel_label, readFormat_label,
      readText, readDuration_toJson hspelling, (hattach _ _).1, (hpipeline _ _).1, (hdistribution _ _).1,
      (hkubernetes _ _).1, (hservice _ _).1, (hmetrics _ _).1, (hserviceMap _ _).1]
    rfl
  · change (rootGroup spelling).read origin before (sortFields (s.toJson spelling)) = _
    simp [sortFields_toJson, Group.read_cons, Group.read_nil, rootGroup, readLevel_label,
      readFormat_label, readText, readDuration_toJson hspelling, (hattach _ _).2, (hpipeline _ _).2,
      (hdistribution _ _).2, (hkubernetes _ _).2, (hservice _ _).2, (hmetrics _ _).2,
      (hserviceMap _ _).2]
    rfl

/-- Settings are read back from their document, as it is written and as a layer. -/
theorem read_toJson (hspelling : spelling.Documented) {s : Settings} (h : s.InRange) :
    ofDocument spelling .whole (s.toJson spelling) = .ok s ∧
      ofDocument spelling .layers (sortFields (s.toJson spelling)) = .ok s := by
  have hread := readsBack_root hspelling h
  constructor
  · rw [toJson, ofDocument, (hread _ _).1]
    rfl
  · have hlayer := (hread .layers {}).2
    rw [← toJson, sortFields_toJson] at hlayer
    rw [sortFields_toJson, ofDocument, hlayer]
    rfl

end Settings
end FlowObserver
