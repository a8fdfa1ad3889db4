import FlowObserver.Proofs.Files.Names
import FlowObserver.Proofs.Settings.Fields
import FlowObserver.Proofs.Settings.Text

/-!
# Durations in settings

A duration is read as the one that it was written from, and no layer changes a duration that it does
not mention. Main result: in all formats that keep to what is documented of them, the durations of
the settings survive being written and read, as defaults, as a document and as a text
(`durations_survive`).
-/

namespace FlowObserver
namespace Settings

structure DurationField where
  path : List String
  get : Settings → Duration

def durationFields : List DurationField :=
  [⟨["pipeline", "handoff_timeout"], (·.pipeline.handoffTimeout)⟩,
   ⟨["pipeline", "backoff_initial"], (·.pipeline.backoffInitial)⟩,
   ⟨["pipeline", "backoff_max"], (·.pipeline.backoffMax)⟩,
   ⟨["pipeline", "loss_poll_interval"], (·.pipeline.lossPollInterval)⟩,
   ⟨["kubernetes", "watch_reconnect_delay"], (·.kubernetes.watchReconnectDelay)⟩,
   ⟨["servicemap", "default_window"], (·.serviceMap.defaultWindow)⟩,
   ⟨["servicemap", "retention"], (·.serviceMap.retention)⟩,
   ⟨["shutdown_timeout"], (·.shutdownTimeout)⟩]

section Fields

variable (spelling : Duration.Spelling)

theorem field_pipeline :
    (rootGroup spelling).Field "pipeline" (·.pipeline)
      fun origin => (pipelineGroup spelling).read origin {} where
  known := by simp [rootGroup]
  set := by simp [rootGroup]
  keep := by simp [rootGroup]

theorem field_kubernetes :
    (rootGroup spelling).Field "kubernetes" (·.kubernetes)
      fun origin => (kubernetesGroup spelling).read origin {} where
  known := by simp [rootGroup]
  set := by simp [rootGroup]
  keep := by simp [rootGroup]

theorem field_serviceMap :
    (rootGroup spelling).Field "servicemap" (·.serviceMap)
      fun origin => (serviceMapGroup spelling).read origin {} where
  known := by simp [rootGroup]
  set := by simp [rootGroup]
  keep := by simp [rootGroup]

theorem field_shutdownTimeout :
    (rootGroup spelling).Field "shutdown_timeout" (·.shutdownTimeout)
      fun _ => readDuration spelling where
  known := by simp [rootGroup]
  set := by simp [rootGroup]
  keep := by simp [rootGroup]

theorem field_handoffTimeout :
    (pipelineGroup spelling).Field "handoff_timeout" (·.handoffTimeout)
      fun _ => readDuration spelling where
  known := by simp [pipelineGroup]
  set := by simp [pipelineGroup]
  keep := by simp [pipelineGroup]

theorem field_backoffInitial :
    (pipelineGroup spelling).Field "backoff_initial" (·.backoffInitial)
      fun _ => readDuration spelling where
  known := by simp [pipelineGroup]
  set := by simp [pipelineGroup]
  keep := by simp [pipelineGroup]

theorem field_backoffMax :
    (pipelineGroup spelling).Field "backoff_max" (·.backoffMax) fun _ => readDuration spelling where
  known := by simp [pipelineGroup]
  set := by simp [pipelineGroup]
  keep := by simp [pipelineGroup]

theorem field_lossPollInterval :
    (pipelineGroup spelling).Field "loss_poll_interval" (·.lossPollInterval)
      fun _ => readDuration spelling where
  known := by simp [pipelineGroup]
  set := by simp [pipelineGroup]
  keep := by simp [pipelineGroup]

theorem field_watchReconnectDelay :
    (kubernetesGroup spelling).Field "watch_reconnect_delay" (·.watchReconnectDelay)
      fun _ => readDuration spelling where
  known := by simp [kubernetesGroup]
  set := by simp [kubernetesGroup]
  keep := by simp [kubernetesGroup]

theorem field_defaultWindow :
    (serviceMapGroup spelling).Field "default_window" (·.defaultWindow)
      fun _ => readDuration spelling where
  known := by simp [serviceMapGroup]
  set := by simp [serviceMapGroup]
  keep := by simp [serviceMapGroup]

theorem field_retention :
    (serviceMapGroup spelling).Field "retention" (·.retention) fun _ => readDuration spelling where
  known := by simp [serviceMapGroup]
  set := by simp [serviceMapGroup]
  keep := by simp [serviceMapGroup]

end Fields

theorem rootGroup_reads {spelling : Duration.Spelling} (h : spelling.Documented) :
    ∀ f ∈ durationFields, (rootGroup spelling).ReadsDuration spelling f.path f.get := by
  have hpipeline := field_pipeline spelling
  have hkubernetes := field_kubernetes spelling
  have hserviceMap := field_serviceMap spelling
  simp only [durationFields, List.forall_mem_cons]
  exact ⟨hpipeline.readsDuration_within ((field_handoffTimeout spelling).readsDuration h),
    hpipeline.readsDuration_within ((field_backoffInitial spelling).readsDuration h),
    hpipeline.readsDuration_within ((field_backoffMax spelling).readsDuration h),
    hpipeline.readsDuration_within ((field_lossPollInterval spelling).readsDuration h),
    hkubernetes.readsDuration_within ((field_watchReconnectDelay spelling).readsDuration h),
    hserviceMap.readsDuration_within ((field_defaultWindow spelling).readsDuration h),
    hserviceMap.readsDuration_within ((field_retention spelling).readsDuration h),
    (field_shutdownTimeout spelling).readsDuration h, List.forall_mem_nil _⟩

theorem holds_toJson (spelling : Duration.Spelling) (s : Settings) :
    ∀ f ∈ durationFields, Holds f.path ((f.get s).toJson spelling) (s.toJson spelling) := by
  have hroot : (rootGroup .human).fieldNames.Nodup := by decide
  have hpipeline : (pipelineGroup .human).fieldNames.Nodup := by decide
  have hkubernetes : (kubernetesGroup .human).fieldNames.Nodup := by decide
  have hserviceMap : (serviceMapGroup .human).fieldNames.Nodup := by decide
  simp only [durationFields, List.forall_mem_cons]
  exact ⟨holds_field hroot rfl (holds_field hpipeline rfl rfl),
    holds_field hroot rfl (holds_field hpipeline rfl rfl),
    holds_field hroot rfl (holds_field hpipeline rfl rfl),
    holds_field hroot rfl (holds_field hpipeline rfl rfl),
    holds_field hroot rfl (holds_field hkubernetes rfl rfl),
    holds_field hroot rfl (holds_field hserviceMap rfl rfl),
    holds_field hroot rfl (holds_field hserviceMap rfl rfl),
    holds_field hroot rfl rfl, List.forall_mem_nil _⟩

theorem read_of_ofDocument {spelling : Duration.Spelling} {origin : Origin} {j : Json}
    {t : Settings} (h : ofDocument spelling origin j = .ok t) :
    (rootGroup spelling).read origin {} j = .ok t := by
  obtain ⟨s, hread, h⟩ := bind_eq_ok.mp h
  suffices hst : s = t from hst ▸ hread
  split at h
  next =>
    split at h
    · cases h
    · exact Except.ok.inj h
  next => cases h
  next => exact Except.ok.inj h

section Loading

variable {formats : Formats} {files : Files} {path : String}

theorem loadOver_none (defaults : Settings) (files : Files) (level : Option Severity) :
    loadOver formats defaults files none level =
      (ofLayers formats defaults (flagLayers formats level)).mapError .refused := rfl

theorem loadOver_some {file : Json} (h : readFile formats files path = .ok file)
    (defaults : Settings) (level : Option Severity) :
    loadOver formats defaults files (some path) level =
      (ofLayers formats defaults (file :: flagLayers formats level)).mapError .refused := by
  rw [loadOver, Option.toList_some, List.mapM_cons, h]
  rfl

variable (hformats : formats.Documented)

include hformats

theorem silent_flagLayers (level : Option Severity) :
    ∀ f ∈ durationFields, ∀ j ∈ flagLayers formats level, Silent f.path j := by
  rw [flagLayers_eq hformats]
  simp [durationFields, flagFields, sortFields, sorted, sortEntries, Silent]

theorem ordered_readFile {file : Json} (h : readFile formats files path = .ok file) :
    Ordered file := by
  unfold readFile at h
  split at h
  · cases h
  · cases h
  · split at h
    case h_1 | h_2 =>
      replace h := mapError_eq_ok.mp h
      split at h
      · exact hformats.ordered_readLayer _ _ h
      · cases h
    case h_3 => cases h

/-- Each duration that no layer mentions is that of the defaults. -/
theorem get_of_ofLayers {s t : Settings} {layers : List Json} (hlayers : ∀ j ∈ layers, Ordered j)
    (h : ofLayers formats s layers = .ok t) {f : DurationField} (hf : f ∈ durationFields)
    (hsilent : ∀ j ∈ layers, Silent f.path j) : f.get t = f.get s := by
  have hbelow : Holds f.path ((f.get s).toJson formats.duration)
      (sortFields (s.toJson formats.duration)) := by
    have hsorted := (holds_toJson formats.duration s f hf).sort
    rwa [sortFields_duration] at hsorted
  rw [ofLayers_eq hformats s hlayers] at h
  exact rootGroup_reads hformats.duration f hf _ _ _ _ _ (hbelow.layers hsilent)
    (read_of_ofDocument h)

end Loading

/-- In formats of which no more is known than what is documented, every duration is read as the one
that it was written from. So are the durations in settings, which nothing but a file that mentions
them changes: as defaults under a level that is asked for and under a file, as a document, and as a
text, of its own or in a file over whatever defaults. -/
theorem durations_survive {formats : Formats} (hformats : formats.Documented) (d : Duration)
    {s : Settings} (h : s.InRange) (files : Files) (level : Option Severity) :
    readDuration formats.duration (d.toJson formats.duration) = .ok d ∧
    loadOver formats s files none level = .ok (s.atLevel level) ∧
    (∀ path t, loadOver formats s files (some path) level = .ok t →
      ∃ file, readFile formats files path = .ok file ∧
        ∀ f ∈ durationFields, Silent f.path file → f.get t = f.get s) ∧
    ofDocument formats.duration .whole (s.toJson formats.duration) = .ok s ∧
    (s.OfLines → ofYaml formats (s.toYaml formats) = .ok s ∧
      ∀ defaults path, files.entryAt? path = some (.file (Bytes.ofText (s.toYaml formats))) →
        Files.extension? path ∈ [some "yaml", some "yml"] →
        loadOver formats defaults files (some path) level = .ok (s.atLevel level)) := by
  refine ⟨readDuration_toJson hformats.duration d, ?_, ?_, (read_toJson hformats.duration h).1,
    fun hlines => ⟨ofYaml_toYaml hformats h hlines, ?_⟩⟩
  · rw [loadOver_none, ofLayers_flagLayers hformats h]
    rfl
  · intro path t hload
    cases hfile : readFile formats files path with
    | error e =>
      rw [loadOver, Option.toList_some, List.mapM_cons, hfile] at hload
      cases hload
    | ok file =>
      rw [loadOver_some hfile, mapError_eq_ok] at hload
      have hlayers : ∀ j ∈ file :: flagLayers formats level, Ordered j :=
        List.forall_mem_cons.mpr
          ⟨ordered_readFile hformats hfile, ordered_flagLayers hformats level⟩
      refine ⟨file, rfl, fun f hf hsilent => get_of_ofLayers hformats hlayers hload hf ?_⟩
      exact List.forall_mem_cons.mpr ⟨hsilent, silent_flagLayers hformats level f hf⟩
  · intro defaults path hfile hextension
    have hwritten : Yaml.Written Yaml.maxDepth (s.toJson formats.duration) :=
      written_toJson hformats.duration h hlines
    rw [loadOver_some (readFile_writeDocument hformats hwritten hfile hextension), ← toJson,
      ofLayers_toJson hformats h]
    rfl

/-- Durations with all their units, with none, and with gaps between the units. -/
def uneven : Settings where
  pipeline :=
    { handoffTimeout := .greatest
      backoffInitial := .zero
      backoffMax := .clamped (Duration.nanosPerYear + 1)
      lossPollInterval := .clamped (2 * Duration.nanosPerMonth + 999) }
  kubernetes := { watchReconnectDelay := .clamped (nanosPerSecond - 1) }
  serviceMap := { defaultWindow := .clamped (Duration.nanosPerDay - 1), retention := .greatest }
  shutdownTimeout := .greatest

/-- One file with all settings and one with nothing but a level. -/
def unevenFiles : Files :=
  [(["settings.yaml"], .file (Bytes.ofText (uneven.toYaml .standard))),
   (["level.yml"], .file (Bytes.ofText (Yaml.document (flagFields .warn))))]

theorem durations_survive_uneven :
    readDuration .human (Duration.greatest.toJson .human) = .ok .greatest ∧
    loadOver .standard uneven unevenFiles none (some .debug) = .ok (uneven.atLevel (some .debug)) ∧
    (∀ f ∈ durationFields, f.get (uneven.atLevel (some .warn)) = f.get uneven) ∧
    ofDocument .human .whole (uneven.toJson .human) = .ok uneven ∧
    ofYaml .standard (uneven.toYaml .standard) = .ok uneven ∧
    loadOver .standard {} unevenFiles (some "settings.yaml") (some .debug) =
      .ok (uneven.atLevel (some .debug)) := by
  have hrange : uneven.InRange := ⟨by decide, by decide, by decide⟩
  have hlines : uneven.OfLines :=
    ⟨by decide, by decide, by decide, by decide, by decide, by decide⟩
  have hsettings : Files.steps "settings.yaml" = ["settings.yaml"] :=
    Files.steps_of_name (by decide) (by decide) (by decide) (by decide)
  have hlevel : Files.steps "level.yml" = ["level.yml"] :=
    Files.steps_of_name (by decide) (by decide) (by decide) (by decide)
  have hsettingsFile : unevenFiles.entryAt? "settings.yaml" =
      some (.file (Bytes.ofText (uneven.toYaml .standard))) :=
    Files.entryAt?_of_name hsettings (by decide) (by decide) rfl rfl
  have hlevelFile : unevenFiles.entryAt? "level.yml" =
      some (.file (Bytes.ofText (Yaml.document (flagFields .warn)))) :=
    Files.entryAt?_of_name hlevel (by decide) (by decide) rfl rfl
  have hyaml : Files.extension? "settings.yaml" = some "yaml" :=
    Files.extension?_of_name "settings" "yaml" hsettings rfl (by decide) (by decide) (by decide)
  have hyml : Files.extension? "level.yml" = some "yml" :=
    Files.extension?_of_name "level" "yml" hlevel rfl (by decide) (by decide) (by decide)
  have hquiet : readFile .standard unevenFiles "level.yml" =
      .ok (Formats.standard.layer (.obj (flagFields .warn))) := by
    have hwritten : Yaml.Written Yaml.maxDepth (.obj (flagFields .warn)) :=
      written_named ["log_level"] rfl (by decide)
        (by simp [flagFields, written_str (s := Severity.warn.label) (by decide)])
    exact readFile_writeDocument standard_documented hwritten hlevelFile (by simp [hyml])
  have hload : loadOver .standard uneven unevenFiles (some "level.yml") none =
      .ok (uneven.atLevel (some .warn)) := by
    rw [loadOver_some hquiet]
    change (ofLayers .standard uneven (flagLayers .standard (some .warn))).mapError _ = _
    rw [ofLayers_flagLayers standard_documented hrange]
    rfl
  obtain ⟨hread, hdefaults, -, hwhole, htext⟩ :=
    durations_survive standard_documented .greatest hrange unevenFiles (some .debug)
  obtain ⟨-, -, hfile, -⟩ :=
    durations_survive standard_documented .greatest hrange unevenFiles none
  refine ⟨hread, hdefaults, fun f hf => ?_, hwhole, (htext hlines).1,
    (htext hlines).2 {} "settings.yaml" hsettingsFile (by simp [hyaml])⟩
  obtain ⟨file, hcontent, hkept⟩ := hfile "level.yml" _ hload
  obtain rfl : file = Formats.standard.layer (.obj (flagFields .warn)) :=
    Except.ok.inj (hcontent.symm.trans hquiet)
  exact hkept f hf (silent_flagLayers standard_documented (some .warn) f hf _
    (List.mem_singleton_self _))

end Settings
end FlowObserver
