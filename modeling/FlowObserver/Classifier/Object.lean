import FlowObserver.Classifier.Elf
import FlowObserver.Ingest.Basic
import FlowObserver.Link.Kernel

/-!
# Classifier objects

A compiled classifier is an object with a section for each kind of program in it, and its maps. The
programs and maps are handed to the kernel, which grants none of them here: an object with maps
cannot be loaded, and of an object without maps the programs are refused later on.
-/

namespace FlowObserver
namespace Classifier

inductive FormatError where
  | notElf
  | badSection (index : Nat)
  | shortTerms (content : Bytes)
  | unendedTerms (content : Bytes)
  | unknownProgramKind (sectionName : String)
  | noSymbols (sectionName : String)
  | badCode
  | untypedMaps
  deriving DecidableEq, Repr

def FormatError.message : FormatError → String
  | notElf => "error parsing ELF data"
  | badSection index => s!"error parsing section with index {index}"
  | shortTerms content => "invalid license \x60" ++ bytesText content ++ "\x60"
  | unendedTerms content =>
    "invalid license \x60" ++ bytesText content ++ "\x60: missing NULL terminator"
  | unknownProgramKind name => "invalid program section \x60" ++ name ++ "\x60"
  | noSymbols name => s!"no symbols found for the {name} section"
  | badCode => "invalid program code"
  | untypedMaps => "no BTF parsed for object"
where
  bytesText (content : Bytes) : String :=
    "[" ++ ", ".intercalate (content.map fun b => toString b.toNat) ++ "]"

inductive ObjectError where
  | unreadable (path : String)
  | format (e : FormatError)
  | refusedMap (name : String)
  deriving DecidableEq, Repr

def ObjectError.message : ObjectError → String
  | unreadable path => "error loading " ++ path
  | format e => "error parsing BPF object: " ++ e.message
  | refusedMap name =>
    "map error: failed to create map \x60" ++ name ++ "\x60 with code -1"

/-- Programs for a traffic hook are classifiers; no other kind is of use. -/
inductive ProgramKind where
  | classifier
  | other
  deriving DecidableEq, Repr

/-- Sections whose name, up to a slash, tells the kind of the programs in them. -/
def plainKinds : List String :=
  ["kprobe", "kretprobe", "uprobe", "uprobe.s", "uretprobe", "uretprobe.s", "tp_btf", "tracepoint",
    "tp", "socket", "sk_msg", "sockops", "lirc_mode2", "perf_event", "raw_tp", "raw_tracepoint",
    "lsm", "lsm.s", "fentry", "fentry.s", "fexit", "fexit.s", "freplace", "sk_lookup", "iter",
    "iter.s"]

def groupHooks : List String :=
  ["skb", "sysctl", "dev", "getsockopt", "setsockopt", "sock", "sock_create", "sock_release",
    "post_bind4", "post_bind6", "bind4", "bind6", "connect4", "connect6", "getpeername4",
    "getpeername6", "getsockname4", "getsockname6", "sendmsg4", "sendmsg6", "recvmsg4", "recvmsg6"]

def ProgramKind.ofSection? (name : String) : Option ProgramKind :=
  match name.splitOn "/" with
  | "classifier" :: _ => some .classifier
  | [kind] => if plainKinds.contains kind || isFastPath kind then some .other else none
  | kind :: hook :: _ =>
    if plainKinds.contains kind || (isFastPath kind && ["cpumap", "devmap"].contains hook) ||
        (kind = "sk_skb" && ["stream_parser", "stream_verdict"].contains hook) ||
        (kind = "cgroup_skb" && ["ingress", "egress"].contains hook) ||
        (kind = "cgroup" && groupHooks.contains hook)
    then some .other else none
  | [] => none
where
  isFastPath (kind : String) : Bool := kind = "xdp" || kind = "xdp.frags"

structure ProgramObject where
  programs : List (String × ProgramKind) := []
  maps : List String := []
  deriving DecidableEq, Repr

abbrev instructionSize : Nat := 8

namespace ProgramObject

/-- Takes the programs of a section: its symbols that are functions. -/
def addPrograms (o : ProgramObject) (name : String) (content : Bytes)
    (symbols : List Elf.ElfSymbol) : Except FormatError ProgramObject := do
  let some kind := ProgramKind.ofSection? name | throw (.unknownProgramKind name)
  if symbols.isEmpty then throw (.noSymbols name)
  let functions := symbols.filter fun s => s.kind = Elf.functionSymbol && !s.name.isEmpty
  functions.foldlM (fun o s =>
    if (content.field s.value s.size).length % instructionSize ≠ 0 then .error .badCode
    else .ok { o with programs := (s.name, kind) :: o.programs }) o

/-- The terms under which the programs may be used are a text with a zero byte at its end. -/
def checkTerms (content : Bytes) : Except FormatError Unit :=
  if content.length < 2 then .error (.shortTerms content)
  else if content.getLast? ≠ some 0 then .error (.unendedTerms content)
  else .ok ()

def dataSections : List String := ["license", "version", ".text", ".bss", ".data", ".rodata"]

def addSection (object : Elf.ElfObject) (o : ProgramObject) (index : Nat) (s : Elf.ElfSection) :
    Except FormatError ProgramObject := do
  let some name := s.name | throw (.badSection index)
  let some content := s.content | throw (.badSection index)
  let symbols := object.symbols.filter fun symbol => symbol.home = index
  if name.startsWith ".maps" then throw .untypedMaps
  else if name.startsWith "maps" then
    if symbols.isEmpty then throw (.noSymbols name)
    return { o with maps := o.maps ++ symbols.map (·.name) }
  else if dataSections.any (fun start => name.startsWith start) || !s.isCode || content.isEmpty then
    return o
  else o.addPrograms name content symbols

def parse (bytes : Bytes) : Except FormatError ProgramObject := do
  let some object := Elf.parse? bytes | throw .notElf
  let indexed := (object.sections.zipIdx).drop 1
  match indexed.find? fun (s, _) => s.name = some "license" with
  | some ({ content := some content, .. }, _) => checkTerms content
  | some (_, index) => throw (.badSection index)
  | none => pure ()
  indexed.foldlM (fun o (s, index) => addSection object o index s) {}

end ProgramObject

def load (bytes : Bytes) : Except ObjectError ProgramObject := do
  let o ← (ProgramObject.parse bytes).mapError ObjectError.format
  match o.maps with
  | [] => return o
  | name :: _ => throw (.refusedMap name)

/-- The maps that flows, and counts of lost ones, are read from. -/
def eventMap : String := "FLOW_EVENTS"
def lossMap : String := "LOST_EVENTS"

namespace ProgramObject

def openChannel (o : ProgramObject) : Except ReadError Unit :=
  [eventMap, lossMap].forM fun name =>
    if o.maps.contains name then .ok ()
    else .error (.transient (name ++ " map not present in the object"))

/-- Hands the classifiers for both directions to the kernel, which refuses them. -/
def loadClassifiers (o : ProgramObject) : Except LinkError Unit :=
  Direction.all.forM fun d =>
    match o.programs.lookup d.programName with
    | none => .error (.programMissing d.programName)
    | some .other => .error (.program "cast" d.programName "unexpected program type")
    | some .classifier => .error (.program "load" d.programName "operation not permitted")

end ProgramObject
end Classifier
end FlowObserver
