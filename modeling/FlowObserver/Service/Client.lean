import FlowObserver.Service.Basic
import FlowObserver.Net.Uri

/-!
# Clients of the flow service

A client connects to a server by its URL and writes one line per flow or per edge. The only servers
in reach are those that listen on a Unix socket here: a connection to any other place fails.
-/

namespace FlowObserver

inductive OutputFormat where
  | text | json
  deriving DecidableEq, Repr

def OutputFormat.label : OutputFormat → String
  | .text => "text"
  | .json => "json"

def OutputFormat.ofLabel (s : String) : OutputFormat := if s = "json" then .json else .text

inductive ClientError where
  | endpoint (server : String)
  | transport
  | request (e : RequestError)
  deriving DecidableEq, Repr

namespace ClientError

def message : ClientError → String
  | endpoint server => s!"invalid server endpoint '{server}'"
  | transport => "grpc transport error"
  | request e => s!"request failed: status: {e.status}, message: {Text.quoted e.message}"

end ClientError

namespace Client

def logTarget : String := "flowscope::grpc::client"

def socketPath? (server : String) : Option String :=
  if server.startsWith "unix://" then some (server.drop 7).toString
  else if server.startsWith "unix:" then some (server.drop 5).toString
  else none

/-- Succeeds for the URL of a socket that somebody listens on. -/
def connect (sockets : List String) (server : String) : Told (Except ClientError Unit) :=
  match socketPath? server with
  | some path =>
    if sockets.contains path then do
      tell [.event .debug logTarget "grpc.client.connected" "connected to agent"
        [("server.address", server)]]
      return .ok ()
    else return .error .transport
  | none => return .error (if Net.Uri.accepts server then .transport else .endpoint server)

def flowLine (format : OutputFormat) (m : FlowMessage) : String :=
  match format with
  | .text => m.text
  | .json => m.toJson.compact

def edgeLine (format : OutputFormat) (m : EdgeMessage) : String :=
  match format with
  | .text => m.text
  | .json => m.toJson.compact

def streamEnded (count : Nat) : Signal :=
  .event .info logTarget "grpc.client.stream_ended" "flow stream ended"
    [("flows.received", toString count)]

/-- Opens a stream on a server that then publishes `events` and ends all streams: the lines that
are written. -/
def observe (service : FlowService) (events : List FlowEvent) (namespaceName verdict : String)
    (format : OutputFormat) : Told (Except RequestError (List String)) := do
  match ← service.openStream namespaceName verdict with
  | (.error e, _) => return .error e
  | (.ok id, service) =>
    let hub ← events.foldlM Hub.publishing service.hub
    let hub ← hub.closing
    let (received, _) := hub.drain id
    tell [streamEnded received.length]
    return .ok (received.map fun e => flowLine format (.ofEvent e))

def printMap (service : FlowService) (window : Option UInt32) (format : OutputFormat) :
    Told (Except RequestError (List String)) :=
  match service.mapReport (window.getD 0) 0 with
  | .error e => return .error e
  | .ok report => do
    tell [.event .debug logTarget "grpc.client.service_map_received" "service map received"
      [("edges", toString report.edges.length), ("window_seconds", toString report.windowSeconds)]]
    return .ok (report.edges.map (edgeLine format))

end Client

/-- A server that listens on a socket. Its map holds its events already, and it publishes them once
a client is there. -/
structure FlowServer where
  socket : String
  service : FlowService
  events : List FlowEvent

def FlowServer.ofEvents (socket : String) (map : Option ServiceMap) (events : List FlowEvent) :
    FlowServer where
  socket
  service := { capacity := events.length, map := map.map fun m => events.foldl (·.record · 0) m }
  events

inductive FlowQuery where
  | flows (namespaceName verdict : String)
  | edges (window : Option UInt32)
  deriving DecidableEq, Repr

def FlowQuery.ask (q : FlowQuery) (server : Option FlowServer) (url : String)
    (format : OutputFormat) : Told (Except ClientError (List String)) := do
  match ← Client.connect (server.map (·.socket)).toList url, server with
  | .error e, _ => return .error e
  | .ok _, none => return .error .transport
  | .ok _, some s =>
    let answer ← match q with
      | .flows namespaceName verdict =>
        Client.observe s.service s.events namespaceName verdict format
      | .edges window => Client.printMap s.service window format
    return answer.mapError .request

end FlowObserver
