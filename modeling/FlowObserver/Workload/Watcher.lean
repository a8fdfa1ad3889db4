import FlowObserver.Time.Human
import FlowObserver.Workload.Watch

/-!
# The pod watcher

The watcher lists all pods, then asks for changes, and asks again whenever the connection comes to
its end. After a failure it waits and starts over with a new listing. Here it talks to a server
whose answers are given in advance.
-/

namespace FlowObserver

/-- The item of a change as the server sends it; bookmarks are left out. -/
def WatchItem.ofChange? (change : Json) : Option WatchItem :=
  let object := change.sub "object"
  match change.textAt "type" with
  | "ADDED" | "MODIFIED" => some (.applied (.ofObject object))
  | "DELETED" => some (.deleted (.ofObject object))
  | "ERROR" => some (.failed ("error returned by apiserver during watch: " ++
      object.textAt "message" ++ ": " ++ object.textAt "reason"))
  | _ => none

namespace Watcher

inductive RequestKind where
  | list | watch
  deriving DecidableEq, Repr

def RequestKind.label : RequestKind → String
  | list => "list"
  | watch => "watch"

/-- An answer of the server. Changes are those of one connection that is closed after them. -/
inductive Reply where
  | listing (pods : List Pod)
  | changes (items : List WatchItem)
  | refused (status : Nat)

structure Request where
  kind : RequestKind
  /-- Nanoseconds since the watcher was started. -/
  time : Nat
  index : WorkloadIndex

structure State where
  now : Nat
  session : WatchSession
  pending : RequestKind

def statusText (status : Nat) : String :=
  let known : List (Nat × String) :=
    [(400, "Bad Request"), (401, "Unauthorized"), (403, "Forbidden"), (404, "Not Found"),
     (408, "Request Timeout"), (409, "Conflict"), (410, "Gone"), (422, "Unprocessable Entity"),
     (429, "Too Many Requests"), (500, "Internal Server Error"), (501, "Not Implemented"),
     (502, "Bad Gateway"), (503, "Service Unavailable"), (504, "Gateway Timeout")]
  s!"{status} " ++ (known.lookup status).getD "<unknown status code>"

/-- A refusal without a body. -/
def refusal (status : Nat) : String :=
  let reason := "Failed to parse error data"
  let details := "ErrorResponse \x7b status: " ++ Text.quoted (statusText status) ++
    ", message: " ++ Text.quoted "\"\"" ++ ", reason: " ++ Text.quoted reason ++
    s!", code: {status} \x7d"
  "ApiError: \"\": " ++ reason ++ " (" ++ details ++ ")"

def failure (kind : RequestKind) : Reply → String
  | .refused status =>
    let what := match kind with
      | .list => "failed to perform initial object list: "
      | .watch => "failed to start watching object: "
    what ++ refusal status
  | _ => "unexpected answer"

/-- A new session, which begins by asking for the listing. -/
def begin (index : WorkloadIndex) (now : Nat) : Told State := do
  tell [WatchSession.say .debug "k8s.watcher.starting" "starting pod watcher"
    [WatchSession.resource]]
  let session ← (⟨index, none⟩ : WatchSession).accepting .listingStarted
  return ⟨now, session, .list⟩

def reconnect (delay : Duration) (now : Nat) (index : WorkloadIndex) : Told State := do
  tell [WatchSession.say .warn "k8s.watcher.reconnecting" "pod watcher disconnected, reconnecting"
    [WatchSession.resource, ("retry.delay", delay.toHuman)]]
  begin index (now + delay.nanos)

/-- Takes items in; the first failure ends the session. -/
def takeItems (delay : Duration) (x : State) : List WatchItem → Told State
  | [] => return x
  | .failed message :: _ => do
    let session ← x.session.accepting (.failed message)
    reconnect delay x.now session.index
  | item :: rest => do
    takeItems delay { x with session := ← x.session.accepting item } rest

def takeReply (delay : Duration) (x : State) (reply : Reply) : Told State :=
  match x.pending, reply with
  | .list, .listing pods => do
    let x ← takeItems delay x (pods.map .listed ++ [.listingDone])
    return { x with pending := .watch }
  | .watch, .changes items => takeItems delay x items
  | kind, reply => takeItems delay x [.failed (failure kind reply)]

def State.request (x : State) : Request := ⟨x.pending, x.now, x.session.index⟩

/-- The requests that are made, the last of which stays unanswered until the shutdown. -/
def run (delay : Duration) (replies : List Reply) : Told (List Request) := do
  let start ← begin {} 0
  let (requests, _) ← replies.foldlM (fun (requests, x) reply => do
    let x ← takeReply delay x reply
    return (requests ++ [x.request], x)) ([start.request], start)
  tell [WatchSession.say .info "task.stopped" "pod watcher stopped"
    [("task.name", Text.quoted "k8s_pod_watcher")]]
  return requests

end Watcher
end FlowObserver
