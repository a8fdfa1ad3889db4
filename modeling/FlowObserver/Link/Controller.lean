import FlowObserver.Link.Kernel
import FlowObserver.Link.Netlink

/-!
# The attachment controller

The controller attaches the classifier to both directions of the links that are selected, and
keeps the filter of each hook that it has attached to. Whatever it finds on a hook is purged before
it attaches there. An attachment that fails half way is taken back as far as it was made.
-/

namespace FlowObserver

structure LinkController where
  selects : Link → Bool
  kernel : Kernel := {}
  tracked : Table Hook FilterId := .empty

namespace LinkController

def attachments (c : LinkController) : List Hook := c.tracked.keys.mergeSort Hook.le

def interfaces (c : LinkController) : List String := (c.attachments.map (·.interface)).eraseDups

def isActive (c : LinkController) (interface : String) : Bool :=
  c.tracked.keys.any (·.interface = interface)

def say (severity : Severity) (name message : String) (details : List (String × String)) : Signal :=
  .event severity "flowscope::iface::controller" name message details

def interfaceDetail (interface : String) : String × String :=
  ("network.interface.name", interface)

def hookDetails (hook : Hook) : List (String × String) :=
  [interfaceDetail hook.interface,
    ("ebpf.program.direction", Text.quoted hook.direction.label)]

def errorDetail (e : LinkError) : String × String := ("error.message", e.message)

def counted (operation status : String) : Signal := .count (.linkOperations operation status)

def gauge (c : LinkController) : Signal := .set .attachedLinks c.tracked.size

/-- Forgets the filter of a hook and takes it off; whether that went well. -/
def detachHook (c : LinkController) (hook : Hook) : Told (Bool × LinkController) :=
  match c.tracked.find? hook with
  | none => return (false, c)
  | some id => do
    let (result, kernel) := c.kernel.detach hook id
    let c := { c with kernel, tracked := c.tracked.erase hook }
    match result with
    | .ok _ => return (true, c)
    | .error e =>
      tell [say .warn "iface.detach_failed" "failed to detach classifier"
        (hookDetails hook ++ [errorDetail e])]
      return (false, c)

/-- Leaves exactly one filter on the hook, and tracks it. -/
def attachHook (c : LinkController) (hook : Hook) :
    Told (Except LinkError Unit × LinkController) := do
  let (_, c) ← c.detachHook hook
  match c.kernel.purge hook with
  | (.error e, kernel) => return (.error e, { c with kernel })
  | (.ok _, kernel) =>
    match kernel.attach hook with
    | (.error e, kernel) => return (.error e, { c with kernel })
    | (.ok id, kernel) =>
      return (.ok (), { c with kernel, tracked := c.tracked.insert hook id })

def detachHooks (c : LinkController) (hooks : List Hook) : Told LinkController :=
  hooks.foldlM (fun c hook => do return (← c.detachHook hook).2) c

/-- Attaches the hooks one after the other; the first that fails takes back those in `done`. -/
def attachHooks (c : LinkController) (done : List Hook) :
    List Hook → Told (Except LinkError Unit × LinkController)
  | [] => return (.ok (), c)
  | hook :: rest => do
    match ← c.attachHook hook with
    | (.ok _, c) => c.attachHooks (done ++ [hook]) rest
    | (.error e, c) =>
      tell [say .error "iface.attach_failed" "failed to attach classifier, rolling back"
        (hookDetails hook ++ [errorDetail e])]
      return (.error e, ← c.detachHooks done)

def hooksOf (interface : String) : List Hook := Direction.all.map (⟨interface, ·⟩)

def attach (c : LinkController) (interface : String) :
    Told (Except LinkError Unit × LinkController) := do
  match c.kernel.prepare interface with
  | (.error e, kernel) =>
    tell [counted "attach" "error"]
    return (.error e, { c with kernel })
  | (.ok _, kernel) =>
    match ← ({ c with kernel } : LinkController).attachHooks [] (hooksOf interface) with
    | (.error e, c) =>
      tell [counted "attach" "error", c.gauge]
      return (.error e, c)
    | (.ok _, c) =>
      tell [counted "attach" "ok", c.gauge,
        say .debug "iface.attached" "classifier attached to interface" [interfaceDetail interface]]
      return (.ok (), c)

def detach (c : LinkController) (interface : String) : Told (Bool × LinkController) := do
  let active := c.isActive interface
  let c ← c.detachHooks (hooksOf interface)
  if active then
    tell [counted "detach" "ok", c.gauge,
      say .debug "iface.detached" "classifier detached from interface" [interfaceDetail interface]]
  return (active, c)

/-- Attaches and skips what fails; counts what was attached. -/
def attachOrSkip (c : LinkController) (link : Link) : Told (Bool × LinkController) := do
  match ← c.attach link.name with
  | (.ok _, c) => return (true, c)
  | (.error e, c) =>
    tell [say .warn "iface.attach_skipped" "failed to attach classifier, skipping interface"
      [interfaceDetail link.name, errorDetail e]]
    return (false, c)

/-- Attaches to the candidates that are selected. It is an error if none could be
attached. -/
def attachSelected (c : LinkController) (candidates : List Link) :
    Told (Except LinkError Nat × LinkController) := do
  let selected := candidates.filter c.selects
  tell [say .info "iface.initializing" "attaching classifier to candidate interfaces"
    [("iface_count", toString selected.length)]]
  let (attached, c) ← selected.foldlM (fun (n, c) link => do
    let (attached, c) ← c.attachOrSkip link
    return (if attached then n + 1 else n, c)) (0, c)
  if attached = 0 then return (.error (.noneAttached selected.length), c)
  else
    tell [say .info "iface.initialized" "classifier attached"
      [("iface_count", toString attached), ("tc_links", toString c.tracked.size)]]
    return (.ok attached, c)

/-- Applies a change: a link that comes up is attached unless it is already, and one that goes down
is detached. -/
def reconcile (c : LinkController) : LinkChange → Told LinkController
  | .up link => do
    if c.isActive link.name || !c.selects link then return c
    else
      tell [say .info "iface.interface_added" "detected new interface, attaching classifier"
        [interfaceDetail link.name]]
      match ← c.attach link.name with
      | (.ok _, c) => return c
      | (.error e, c) =>
        tell [say .warn "iface.attach_skipped"
          "failed to attach classifier, will retry on next link event"
          [interfaceDetail link.name, errorDetail e]]
        return c
  | .down name => do
    let (active, c) ← c.detach name
    if active then
      tell [say .info "iface.interface_removed" "interface went away, classifier detached"
        [interfaceDetail name]]
    return c

def shutdown (c : LinkController) : Told (Nat × LinkController) := do
  let total := c.tracked.size
  let (detached, c) ← c.attachments.foldlM (fun (n, c) hook => do
    let (clean, c) ← c.detachHook hook
    return (if clean then n + 1 else n, c)) (0, c)
  tell [c.gauge]
  let counts := [("tc_links", toString total), ("detached_count", toString detached)]
  if detached < total then
    tell [say .warn "iface.shutdown_partial" "some classifier links failed to detach" counts]
  tell [say .info "iface.shutdown_completed" "classifier detached from all interfaces" counts]
  return (detached, c)

/-- Applies changes until there are no more. -/
def follow (c : LinkController) (changes : List LinkChange) : Told LinkController := do
  let task := ("task.name", Text.quoted "iface_reconciliation")
  tell [say .info "task.started" "watching for interface changes" [task]]
  let c ← changes.foldlM reconcile c
  tell [say .info "task.stopped" "interface reconciliation stopped" [task]]
  return c

end LinkController
end FlowObserver
