import FlowObserver.Settings.Basic
import FlowObserver.Settings.Refusal
import FlowObserver.Time.Human

/-!
# Reading settings

Settings are read from a document field by field, in the document's order; the first value that does
not fit is reported. A field that is missing keeps its default, and unknown fields are ignored. A
group of settings may also be given as a sequence of its values. Documents that come from layers
are read more leniently than those handed over whole: elements past the last setting of a group are
ignored.
-/

namespace FlowObserver
namespace Settings

inductive Origin where
  | whole | layers
  deriving DecidableEq, Repr

def readText (expected : String) : Json → Accepted String
  | .str s => .ok s
  | j => refuse (.wrongType j expected)

def readString : Json → Accepted String := readText "a string"

def readBool : Json → Accepted Bool
  | .bool b => .ok b
  | j => refuse (.wrongType j "a boolean")

/-- A number below `limit`. An integer of more than a word is no number at all. -/
def readNat (limit : Nat) (typeName : String) : Json → Accepted Nat
  | .int n =>
    if 0 ≤ n ∧ n < limit then .ok n.toNat
    else if fitsWord n then refuse (.outOfRange (.int n) typeName)
    else refuse (.wrongType (.int n) typeName)
  | j => refuse (.wrongType j typeName)

def readSize : Json → Accepted Nat := readNat UInt64.size "usize"

def readPort (j : Json) : Accepted UInt16 := (readNat UInt16.size "u16" j).map UInt16.ofNat

def readDuration (spelling : Duration.Spelling) (j : Json) : Accepted Duration := do
  match spelling.read (← readString j) with
  | .ok d => return d
  | .error message => refuse (.malformed message)

def readLevel (j : Json) : Accepted Severity := do
  match Severity.ofText? (← readString j) with
  | some level => return level
  | none => refuse (.malformed Severity.levelSyntaxMessage)

def readStrings : Json → Accepted (List String)
  | .arr items => items.zipIdx.mapM fun (item, i) => below (toString i) (readString item)
  | j => refuse (.wrongType j "a sequence")

/-- One of several names; also as a mapping from the name to nothing. -/
def readVariant {α : Type} (origin : Origin) (typeName : String) (ofLabel? : String → Option α)
    (known : List String) : Json → Accepted α
  | .str s => named s
  | .obj ((name, value) :: rest) =>
    if origin = .whole && !rest.isEmpty then manyKeys
    else do
      let variant ← if origin = .whole then named name else below name (named name)
      match value with
      | .null => return variant
      | value => below name (refuse (.wrongType value "unit"))
  | .obj [] =>
    if origin = .whole then manyKeys else refuse (.wrongType (.obj []) "enum")
  | j => refuse (.wrongType j (if origin = .whole then "string or map" else "enum " ++ typeName))
where
  named (s : String) : Accepted α :=
    match ofLabel? s with
    | some variant => .ok variant
    | none => refuse (.unknownVariant s known)
  manyKeys : Accepted α := refuse (.outOfRange (.obj []) "map with a single key")

/-- A group of settings: how the value of a named field is taken into it. -/
structure Group (σ : Type) where
  typeName : String
  fieldNames : List String
  set : Origin → String → Json → σ → Accepted σ

namespace Group

variable {σ : Type}

def setAll (g : Group σ) (origin : Origin) (s : σ) (fields : List (String × String × Json)) :
    Accepted σ :=
  fields.foldlM (fun s (place, name, value) => below place (g.set origin name value s)) s

def read (g : Group σ) (origin : Origin) (s : σ) : Json → Accepted σ
  | .obj fields =>
    let known := fields.filter fun (name, _) => g.fieldNames.contains name
    g.setAll origin s (known.map fun (name, value) => (name, name, value))
  | .arr items => do
    let placed := (g.fieldNames.zip items).zipIdx.map fun ((name, value), i) =>
      (toString i, name, value)
    let s ← g.setAll origin s placed
    if origin = .whole && g.fieldNames.length < items.length then
      refuse (.wrongLength items.length "fewer elements in array")
    else return s
  | j => refuse (.wrongType j ("struct " ++ g.typeName))

end Group

def attachGroup : Group AttachSettings where
  typeName := "AttachConf"
  fieldNames := ["mode", "interface", "patterns", "kinds"]
  set origin name j s :=
    match name with
    | "mode" => do
      let mode ← readVariant origin "AttachMode" AttachMode.ofLabel? ["fixed", "discover"] j
      return { s with mode }
    | "interface" => return { s with interface := ← readString j }
    | "patterns" => return { s with patterns := ← readStrings j }
    | _ => return { s with kinds := ← readStrings j }

def pipelineGroup (spelling : Duration.Spelling) : Group PipelineSettings where
  typeName := "PipelineConf"
  fieldNames := ["handoff_capacity", "handoff_timeout", "backoff_initial", "backoff_max",
    "max_consecutive_failures", "loss_poll_interval"]
  set _ name j s :=
    match name with
    | "handoff_capacity" => return { s with handoffCapacity := ← readSize j }
    | "handoff_timeout" => return { s with handoffTimeout := ← readDuration spelling j }
    | "backoff_initial" => return { s with backoffInitial := ← readDuration spelling j }
    | "backoff_max" => return { s with backoffMax := ← readDuration spelling j }
    | "max_consecutive_failures" =>
      return { s with maxConsecutiveFailures := ← readNat UInt32.size "u32" j }
    | _ => return { s with lossPollInterval := ← readDuration spelling j }

def distributionGroup : Group DistributionSettings where
  typeName := "DistributionConf"
  fieldNames := ["subscriber_capacity"]
  set _ _ j s := return { s with subscriberCapacity := ← readSize j }

def kubernetesGroup (spelling : Duration.Spelling) : Group KubernetesSettings where
  typeName := "KubernetesConf"
  fieldNames := ["enabled", "watch_reconnect_delay"]
  set _ name j s :=
    match name with
    | "enabled" => return { s with enabled := ← readBool j }
    | _ => return { s with watchReconnectDelay := ← readDuration spelling j }

def serviceGroup : Group ListenSettings where
  typeName := "GrpcConf"
  fieldNames := ["listen_address", "port"]
  set _ name j s :=
    match name with
    | "listen_address" => return { s with address := ← readString j }
    | _ => return { s with port := ← readPort j }

def metricsGroup : Group MetricsSettings where
  typeName := "MetricsConf"
  fieldNames := ["enabled", "listen_address", "port"]
  set _ name j s :=
    match name with
    | "enabled" => return { s with enabled := ← readBool j }
    | "listen_address" => return { s with listen := { s.listen with address := ← readString j } }
    | _ => return { s with listen := { s.listen with port := ← readPort j } }

def serviceMapGroup (spelling : Duration.Spelling) : Group ServiceMapSettings where
  typeName := "ServiceMapConf"
  fieldNames := ["enabled", "default_window", "retention"]
  set _ name j s :=
    match name with
    | "enabled" => return { s with enabled := ← readBool j }
    | "default_window" => return { s with defaultWindow := ← readDuration spelling j }
    | _ => return { s with retention := ← readDuration spelling j }

/-- The log level comes first, as the one setting without a default. -/
def rootGroup (spelling : Duration.Spelling) : Group Settings where
  typeName := "Conf"
  fieldNames := ["log_level", "log_format", "attach", "ebpf_object_path", "pipeline",
    "distribution", "kubernetes", "grpc", "metrics", "servicemap", "shutdown_timeout"]
  set origin name j s :=
    match name with
    | "log_level" => return { s with logLevel := ← readLevel j }
    | "log_format" => do
      let logFormat ← readVariant origin "LogFormat" LogFormat.ofLabel? ["full", "json"] j
      return { s with logFormat }
    | "attach" => return { s with attach := ← attachGroup.read origin {} j }
    | "ebpf_object_path" => return { s with objectPath := ← readText "path string" j }
    | "pipeline" => return { s with pipeline := ← (pipelineGroup spelling).read origin {} j }
    | "distribution" => return { s with distribution := ← distributionGroup.read origin {} j }
    | "kubernetes" => return { s with kubernetes := ← (kubernetesGroup spelling).read origin {} j }
    | "grpc" => return { s with service := ← serviceGroup.read origin { port := 4245 } j }
    | "metrics" => return { s with metrics := ← metricsGroup.read origin {} j }
    | "servicemap" => return { s with serviceMap := ← (serviceMapGroup spelling).read origin {} j }
    | _ => return { s with shutdownTimeout := ← readDuration spelling j }

def ofDocument (spelling : Duration.Spelling) (origin : Origin) (j : Json) : Accepted Settings := do
  let s ← (rootGroup spelling).read origin {} j
  match j with
  | .obj fields =>
    if (fields.lookup "log_level").isNone then refuse (.missingField "log_level") else return s
  | .arr [] => refuse (.wrongLength 0 "struct Conf with 11 elements")
  | _ => return s

/-- The flags that stand above all other layers: a log level, or none. -/
def flagLevel (j : Json) : Accepted (Option Severity) :=
  let level : Json → Accepted (Option Severity)
    | .null => .ok none
    | j => (readLevel j).map some
  match j with
  | .obj fields =>
    match fields.lookup "log_level" with
    | some value => below "log_level" (level value)
    | none => .ok none
  | .arr [] => .ok none
  | .arr [value] => below "0" (level value)
  | .arr items => do
    let _ ← below "0" (level (items.headD .null))
    refuse (.wrongLength items.length "fewer elements in array")
  | j => refuse (.wrongType j "struct GlobalArgs")

end Settings
end FlowObserver
