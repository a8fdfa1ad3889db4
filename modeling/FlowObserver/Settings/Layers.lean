import FlowObserver.Files
import FlowObserver.Settings.Formats
import FlowObserver.Settings.Reader
import FlowObserver.Settings.Writer

/-!
# Layers of settings

Settings come from the defaults, from a file, and from flags, and each layer covers those before it.
They are also read from one document as a whole.
-/

namespace FlowObserver
namespace Settings

variable (formats : Formats)

def toYaml (s : Settings) : String := formats.writeDocument (s.toFields formats.duration)

def ofYaml (text : String) : Accepted Settings :=
  match formats.readDocument text with
  | .ok j => ofDocument formats.duration .whole j
  | .error message => refuse (.malformed message)

inductive LoadError where
  | missing (path : String)
  | notFile (path : String)
  | wrongExtension (extension : String)
  | refused (r : Refusal)

def readFile (files : Files) (path : String) : Except LoadError Json :=
  match files.entryAt? path with
  | none => .error (.missing path)
  | some .directory => .error (.notFile path)
  | some (.file content) =>
    match Files.extension? path with
    | some "yaml" | some "yml" =>
      let layer := match content.text? with
        | some text => formats.readLayer text
        | none => .error "stream did not contain valid UTF-8"
      layer.mapError fun message => .refused ⟨[], .malformed message⟩
    | extension => .error (.wrongExtension (extension.getD "none"))

def ofLayers (defaults : Settings) (layers : List Json) : Accepted Settings :=
  ofDocument formats.duration .layers <|
    layers.foldl formats.merge (formats.layer (defaults.toJson formats.duration))

/-- The settings from a file, if one is named, and a log level, if one is asked for, over values
that hold unless these cover them. -/
def loadOver (defaults : Settings) (files : Files) (config : Option String)
    (level : Option Severity) : Except LoadError Settings := do
  let file ← config.toList.mapM (readFile formats files)
  let flags := level.toList.map fun l => formats.layer (.obj [("log_level", l.label)])
  (ofLayers formats defaults (file ++ flags)).mapError .refused

def load (files : Files) (config : Option String) (level : Option Severity) :
    Except LoadError Settings := loadOver formats {} files config level

/-- What stands there, as a fault of the layers names it. -/
def layerFound : Json → String
  | .null => "unit"
  | .bool b => "bool " ++ if b then "true" else "false"
  | .int n =>
    if fitsWord n then (if n < 0 then "signed int \x60" else "unsigned int \x60") ++ s!"{n}\x60"
    else wideText n
  | .real x => "float \x60" ++ Decimal.plain x ++ "\x60"
  | .str s => "string " ++ Text.quoted s
  | .arr _ => "sequence"
  | .obj _ => "map"

def Fault.layerMessage : Fault → String
  | .wrongType found expected =>
    "invalid type: found " ++ layerFound found ++ ", expected " ++ expected
  | .outOfRange found expected => "invalid value " ++ layerFound found ++ ", expected " ++ expected
  | .unknownVariant name known =>
    let quote (s : String) : String := "\x60" ++ s ++ "\x60"
    "unknown variant: found " ++ quote name ++ ", expected " ++
      quote (" or ".intercalate (known.map quote))
  | .missingField name => "missing field \x60" ++ name ++ "\x60"
  | .wrongLength length expected => s!"invalid length {length}, expected {expected}"
  | .malformed message => message

def LoadError.message (config : Option String) : LoadError → String
  | missing path => s!"config file '{path}' does not exist"
  | notFile path => s!"path '{path}' is not a valid file"
  | wrongExtension extension =>
    s!"invalid file extension '.{extension}', expected 'yaml' or 'yml'"
  | refused r =>
    let place := if r.path.isEmpty then ""
      else " for key " ++ Text.quoted (".".intercalate ("default" :: r.path))
    let file := (config.map fun path => " in " ++ Files.shown path ++ " YAML file").getD ""
    "configuration error: " ++ r.fault.layerMessage ++ place ++ file

end Settings

/-- The settings for a command, whose options cover all layers. -/
def Settings.withAgentOptions (s : Settings) (interface : Option String) (discover : Bool)
    (object : Option String) : Settings :=
  let fixed : AttachSettings := match interface with
    | some name => { s.attach with mode := .fixed, interface := name }
    | none => s.attach
  { s with
    attach := if discover then { fixed with mode := .discover } else fixed
    objectPath := object.getD s.objectPath }

end FlowObserver
