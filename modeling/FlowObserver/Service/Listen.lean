import FlowObserver.Net.Address
import FlowObserver.Telemetry.Told

/-!
# Listening for clients

The address that a server listens on, and whether it can be bound. The machine has no address of
its own, so any IPv4 address can be bound and of the IPv6 addresses only the unspecified one and the
IPv4-mapped ones; ports below 1024 are reserved.
-/

namespace FlowObserver

structure ListenSettings where
  address : String := "0.0.0.0"
  port : UInt16
  deriving DecidableEq, Repr

inductive ListenError where
  | address (text : String)
  | bind (endpoint : Net.Endpoint)
  deriving DecidableEq, Repr

def ListenError.message : ListenError → String
  | address text => s!"invalid listen address '{text}'"
  | bind endpoint => "failed to bind grpc server to " ++ endpoint.toString

namespace ListenSettings

def endpoint (s : ListenSettings) : Except ListenError Net.Endpoint :=
  match Net.Address.parse? s.address with
  | some a => .ok ⟨a, s.port⟩
  | none => .error (.address s.address)

end ListenSettings

/-- The first port that an ordinary user may bind; port 0 lets the system choose one. -/
abbrev firstOpenPort : UInt16 := 1024

def Net.Address.isBindable : Net.Address → Bool
  | .v4 _ => true
  | .v6 value => value = 0 || value.toNat / 0x100000000 = 0xFFFF

def Net.Endpoint.isBindable (e : Net.Endpoint) : Bool :=
  e.address.isBindable && (e.port = 0 || firstOpenPort ≤ e.port)

/-- Binds, and serves until the shutdown that has been signalled already. -/
def serveUntilShutdown (settings : ListenSettings) : Told (Except ListenError Unit) := do
  match settings.endpoint with
  | .error e => return .error e
  | .ok endpoint =>
    if endpoint.isBindable then
      let target := "flowscope::grpc::service"
      tell [.event .info target "grpc.server.started" "grpc server listening"
          [("net.listen.address", "Some(" ++ endpoint.toString ++ ")")],
        .event .info target "grpc.server.stopped" "grpc server stopped" []]
      return .ok ()
    else return .error (.bind endpoint)

end FlowObserver
