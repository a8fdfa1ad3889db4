import FlowObserver.Install.Manifest
import FlowObserver.Service.Client
import FlowObserver.Settings.Basic

/-!
# Commands

What the program can be asked to do, and the options of each command.
-/

namespace FlowObserver

inductive Command where
  | agent (interface : Option String) (discover : Bool) (object : Option String)
  | observe (server : String) (namespaceName verdict : Option String) (format : OutputFormat)
  | serviceMap (server : String) (window : Option UInt32) (format : OutputFormat)
  | install (options : InstallOptions) (apply : Bool)
  deriving DecidableEq, Repr

structure CommandLine where
  config : Option String := none
  level : Option Severity := none
  command : Command
  deriving DecidableEq, Repr

namespace Command

/-- What the value of an option must be; a flag has none. -/
inductive ValueKind where
  | flag
  | text
  | path
  | level
  | word32
  | choice (names : List String)
  deriving DecidableEq, Repr

structure OptionSpec where
  name : String
  short : Option Char := none
  valueName : String := ""
  kind : ValueKind := .text
  help : String := ""
  envVar : Option String := none
  default : Option String := none
  deriving DecidableEq, Repr

namespace OptionSpec

def takesValue (o : OptionSpec) : Bool := o.kind ≠ .flag

def label (o : OptionSpec) : String :=
  "--" ++ o.name ++ if o.takesValue then " <" ++ o.valueName ++ ">" else ""

end OptionSpec

structure CommandSpec where
  name : String
  about : String
  options : List OptionSpec
  deriving DecidableEq, Repr

def configOption : OptionSpec where
  name := "config"
  short := some 'c'
  valueName := "FILE"
  kind := .path
  help := "Set the path to the configuration file (e.g., \"config.yaml\")"
  envVar := some "FLOWSCOPE_CONFIG_PATH"

def levelOption : OptionSpec where
  name := "log-level"
  short := some 'l'
  valueName := "LEVEL"
  kind := .level
  help := "Set the application's log level (e.g., \"debug\", \"warn\")"
  envVar := some "FLOWSCOPE_LOG_LEVEL"

def sharedOptions : List OptionSpec := [configOption, levelOption]

def helpOption : OptionSpec :=
  { name := "help", short := some 'h', kind := .flag, help := "Print help" }

def versionOption : OptionSpec :=
  { name := "version", short := some 'V', kind := .flag, help := "Print version" }

def serverOption : OptionSpec where
  name := "server"
  valueName := "URL"
  help := "Agent gRPC endpoint"
  default := some "http://localhost:4245"

def formatOption : OptionSpec where
  name := "format"
  valueName := "FORMAT"
  kind := .choice ["text", "json"]
  default := some "text"

def interfaceOption : OptionSpec :=
  { name := "interface", valueName := "NAME", help := "Attach to this interface only" }

def discoverOption : OptionSpec where
  name := "discover"
  kind := .flag
  help := "Attach to every matching link and follow link changes"

def agentSpec : CommandSpec where
  name := "agent"
  about := "Run the node agent: attach the classifier and serve flows"
  options := [interfaceOption, discoverOption,
    { name := "ebpf-object", valueName := "PATH", kind := .path
      help := "Path to the compiled classifier object" }]

def observeSpec : CommandSpec where
  name := "observe"
  about := "Stream flows from an agent"
  options := [serverOption,
    { name := "namespace", valueName := "NS"
      help := "Only flows whose source or destination pod lives in this namespace" },
    { name := "verdict", valueName := "VERDICT"
      help := "Only flows with this verdict (FORWARDED or DROPPED)" },
    formatOption]

def serviceMapSpec : CommandSpec where
  name := "service-map"
  about := "Print the workload-to-workload edges seen by an agent"
  options := [serverOption,
    { name := "window", valueName := "SECS", kind := .word32
      help := "Trailing window in seconds. The agent default applies when omitted" },
    formatOption]

def installSpec : CommandSpec where
  name := "install"
  about := "Render or apply the cluster manifests for the agent"
  options := [
    { name := "namespace", valueName := "NS", help := "Namespace the agent runs in"
      default := some ({} : InstallOptions).namespaceName },
    { name := "image", valueName := "IMG", help := "Agent container image"
      default := some ({} : InstallOptions).image },
    { name := "apply", kind := .flag
      help := "Server-side apply to the current cluster instead of printing YAML" }]

def specs : List CommandSpec := [agentSpec, observeSpec, serviceMapSpec, installSpec]

def spec? (name : String) : Option CommandSpec := specs.find? (·.name = name)

end Command
end FlowObserver
