import FlowObserver.Link.Glob
import FlowObserver.Settings.Basic

/-!
# Which links are observed

Either one link that is named, or every link that is up and whose name or kind is asked for.
-/

namespace FlowObserver

structure Link where
  index : UInt32
  name : String
  kind : Option String
  up : Bool
  deriving DecidableEq, Repr

inductive LinkError where
  | programMissing (name : String)
  | program (operation name details : String)
  | traffic (operation interface direction details : String)
  | netlink (details : String)
  | invalidPattern (pattern : String)
  | noneAttached (candidates : Nat)
  deriving DecidableEq, Repr

def LinkError.message : LinkError → String
  | programMissing name => s!"ebpf program '{name}' not found in loaded object"
  | program operation name details =>
    s!"failed to {operation} ebpf program '{name}': {details}"
  | traffic operation interface direction details =>
    s!"failed to {operation} on interface {interface} ({direction}): {details}"
  | netlink details => "netlink error: " ++ details
  | invalidPattern pattern => s!"invalid interface pattern '{pattern}'"
  | noneAttached candidates => s!"no interfaces attached ({candidates} candidates)"

inductive AttachPolicy where
  | fixed (interface : String)
  | discover (patterns : List Glob) (kinds : List String)

namespace AttachPolicy

/-- The first pattern that cannot be read is reported. -/
def ofSettings (s : AttachSettings) : Except LinkError AttachPolicy :=
  match s.mode with
  | .fixed => .ok (.fixed s.interface)
  | .discover => do
    let patterns ← s.patterns.mapM fun pattern =>
      (Glob.parse pattern).mapError fun _ => LinkError.invalidPattern pattern
    return .discover patterns s.kinds

def isDiscover : AttachPolicy → Bool
  | fixed _ => false
  | discover .. => true

def accepts (p : AttachPolicy) (link : Link) : Bool :=
  match p with
  | fixed interface => link.name = interface
  | discover patterns kinds =>
    link.up && (patterns.any (·.accepts link.name) || link.kind.any kinds.contains)

end AttachPolicy
end FlowObserver
