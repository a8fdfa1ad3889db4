import FlowObserver.Proofs.Settings.Reading

/-!
# Settings as text

The text of settings is read back if all names in them are lines of printable text, as written
durations are. Main results: settings are read from their text (`ofYaml_toYaml`), and a document is
the content of a file that it was written to (`readFile_writeDocument`).
-/

namespace FlowObserver

namespace Duration

theorem ofLine_of_isUnitLetter {c : Char} (h : isUnitLetter c = true) :
    Yaml.isPrintable c = true ∧ Yaml.isBreak c = false := by
  rw [isUnitLetter, Bool.or_eq_true, decide_eq_true_eq] at h
  rcases h with hletter | rfl
  · exact Yaml.ofLine_of_isAlphanum (by rw [Char.isAlphanum, hletter, Bool.true_or])
  · decide

theorem Spelling.Documented.oneLine_write {spelling : Spelling} (h : spelling.Documented)
    (d : Duration) : Yaml.OneLine (spelling.write d) := by
  by_cases hzero : d.nanos = 0
  case pos =>
    obtain rfl : d = zero := Duration.ext hzero
    rw [h.write_zero]
    decide
  case neg =>
    rw [h.write_nonzero d hzero]
    intro c hc
    have hrow : c ∈ Amount.row d.written :=
      toList_line (written_ne_nil hzero) ▸ List.mem_cons_of_mem _ hc
    obtain ⟨a, ha, hc⟩ := List.mem_flatMap.mp hrow
    rcases List.mem_cons.mp hc with rfl | hc
    · decide
    rcases List.mem_append.mp hc with hdigit | hletter
    · have hdigit := Nat.isDigit_of_mem_toDigits (by decide) (by decide) hdigit
      exact Yaml.ofLine_of_isAlphanum (by rw [Char.isAlphanum, hdigit, Bool.or_true])
    · exact ofLine_of_isUnitLetter ((d.readable_written a ha).isUnitLetter c hletter)

end Duration

namespace Settings

structure OfLines (s : Settings) : Prop where
  interface : Yaml.OneLine s.attach.interface
  patterns : ∀ pattern ∈ s.attach.patterns, Yaml.OneLine pattern
  kinds : ∀ kind ∈ s.attach.kinds, Yaml.OneLine kind
  objectPath : Yaml.OneLine s.objectPath
  service : Yaml.OneLine s.service.address
  metrics : Yaml.OneLine s.metrics.listen.address

open Yaml

section Written

variable {depth : Nat} {spelling : Duration.Spelling}

theorem written_str {s : String} (h : OneLine s) : Written depth (.str s) := .leaf (.str h)

theorem written_bool (b : Bool) : Written depth (.bool b) := .leaf (.bool b)

theorem written_duration (h : spelling.Documented) (d : Duration) :
    Written depth (d.toJson spelling) := .leaf (.str (h.oneLine_write d))

theorem written_nat {limit n : Nat} (h : n < limit) (hlimit : limit ≤ wideLimit) :
    Written depth (.int n) := .leaf (.nat (h.trans_le hlimit))

theorem written_strings {items : List String} (h : ∀ s ∈ items, OneLine s) :
    Written (depth + 1) (strings items) := by
  refine .list fun j hj => ?_
  obtain ⟨s, hs, rfl⟩ := List.mem_map.mp hj
  exact .str (h s hs)

theorem written_named {fields : List (String × Json)} (names : List String)
    (hnames : fields.map (·.1) = names)
    (hkeys : names ≠ [] ∧ names.Nodup ∧ ∀ name ∈ names, IsKey name)
    (hvalues : ∀ f ∈ fields, Written depth f.2) : Written (depth + 1) (.obj fields) := by
  subst hnames
  obtain ⟨hne, hdistinct, hkeys⟩ := hkeys
  exact .mapping (List.map_eq_nil_iff.not.mp hne)
    (fun f hf => hkeys f.1 (List.mem_map_of_mem hf)) hdistinct hvalues

theorem written_attach {s : AttachSettings} (hinterface : OneLine s.interface)
    (hpatterns : ∀ pattern ∈ s.patterns, OneLine pattern)
    (hkinds : ∀ kind ∈ s.kinds, OneLine kind) :
    Written (depth + 2) (.obj (attachFields s)) := by
  have hmode : OneLine s.mode.label := by cases s.mode <;> decide
  refine written_named attachGroup.fieldNames rfl (by decide) ?_
  simp [attachFields, written_str hmode, written_str hinterface, written_strings hpatterns,
    written_strings hkinds]

theorem written_pipeline (h : spelling.Documented) {s : PipelineSettings}
    (hcapacity : s.handoffCapacity < UInt64.size)
    (hfailures : s.maxConsecutiveFailures < UInt32.size) :
    Written (depth + 1) (.obj (pipelineFields spelling s)) := by
  refine written_named (pipelineGroup .human).fieldNames rfl (by decide) ?_
  simp [pipelineFields, written_duration h, written_nat hcapacity (by decide),
    written_nat hfailures (by decide)]

theorem written_distribution {s : DistributionSettings}
    (hcapacity : s.subscriberCapacity < UInt64.size) :
    Written (depth + 1) (.obj (distributionFields s)) := by
  refine written_named distributionGroup.fieldNames rfl (by decide) ?_
  simp [distributionFields, written_nat hcapacity (by decide)]

theorem written_kubernetes (h : spelling.Documented) (s : KubernetesSettings) :
    Written (depth + 1) (.obj (kubernetesFields spelling s)) := by
  refine written_named (kubernetesGroup .human).fieldNames rfl (by decide) ?_
  simp [kubernetesFields, written_bool, written_duration h]

theorem written_service {s : ListenSettings} (haddress : OneLine s.address) :
    Written (depth + 1) (.obj (serviceFields s)) := by
  refine written_named serviceGroup.fieldNames rfl (by decide) ?_
  simp [serviceFields, written_str haddress, written_nat s.port.toNat_lt (by decide)]

theorem written_metrics {s : MetricsSettings} (haddress : OneLine s.listen.address) :
    Written (depth + 1) (.obj (metricsFields s)) := by
  refine written_named metricsGroup.fieldNames rfl (by decide) ?_
  simp [metricsFields, written_bool, written_str haddress,
    written_nat s.listen.port.toNat_lt (by decide)]

theorem written_serviceMap (h : spelling.Documented) (s : ServiceMapSettings) :
    Written (depth + 1) (.obj (serviceMapFields spelling s)) := by
  refine written_named (serviceMapGroup .human).fieldNames rfl (by decide) ?_
  simp [serviceMapFields, written_bool, written_duration h]

theorem written_toJson (hspelling : spelling.Documented) {s : Settings} (h : s.InRange)
    (hlines : s.OfLines) : Written (depth + 3) (s.toJson spelling) := by
  have hlevel : OneLine s.logLevel.label := by cases s.logLevel <;> decide
  have hformat : OneLine s.logFormat.label := by cases s.logFormat <;> decide
  refine written_named (rootGroup .human).fieldNames rfl (by decide) ?_
  simp [toFields_eq, written_str hlevel, written_str hformat, written_str hlines.objectPath,
    written_attach hlines.interface hlines.patterns hlines.kinds,
    written_pipeline hspelling h.handoffCapacity h.maxConsecutiveFailures,
    written_distribution h.subscriberCapacity, written_kubernetes hspelling,
    written_service hlines.service, written_metrics hlines.metrics, written_serviceMap hspelling,
    written_duration hspelling]

end Written

theorem text?_ofText (t : String) : (Bytes.ofText t).text? = some t := by
  change String.fromUTF8? ⟨t.toByteArray.data⟩ = some t
  rw [String.fromUTF8?, dif_pos t.isValidUTF8]
  rfl

section Formats

variable {formats : Formats} (hformats : formats.Documented)

theorem readFile_ofText {files : Files} {path text : String}
    (hfile : files.entryAt? path = some (.file (Bytes.ofText text)))
    (hextension : Files.extension? path ∈ [some "yaml", some "yml"]) :
    readFile formats files path =
      (formats.readLayer text).mapError fun message => .refused ⟨[], .malformed message⟩ := by
  rw [readFile, hfile]
  simp only [List.mem_cons, List.not_mem_nil, or_false] at hextension
  rcases hextension with hextension | hextension <;> rw [hextension] <;> simp only [text?_ofText]

include hformats

/-- A written document is the content of a file. -/
theorem readFile_writeDocument {files : Files} {path : String} {fields : List (String × Json)}
    (h : Written maxDepth (.obj fields))
    (hfile : files.entryAt? path = some (.file (Bytes.ofText (formats.writeDocument fields))))
    (hextension : Files.extension? path ∈ [some "yaml", some "yml"]) :
    readFile formats files path = .ok (formats.layer (.obj fields)) := by
  rw [readFile_ofText hfile hextension, hformats.readLayer_writeDocument fields h]
  rfl

theorem ofYaml_toYaml {s : Settings} (h : s.InRange) (hlines : s.OfLines) :
    ofYaml formats (s.toYaml formats) = .ok s := by
  have hread : formats.readDocument (s.toYaml formats) = .ok (s.toJson formats.duration) :=
    hformats.readDocument_writeDocument _ (written_toJson hformats.duration h hlines)
  rw [ofYaml, hread]
  exact (read_toJson hformats.duration h).1

end Formats

end Settings
end FlowObserver
