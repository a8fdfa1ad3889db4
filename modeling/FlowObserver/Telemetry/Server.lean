import FlowObserver.Settings.Basic
import FlowObserver.Telemetry.Told

/-!
# The metrics server

It binds the configured address, which may also be a host's name, and serves until the shutdown.
-/

namespace FlowObserver
namespace Exposition

/-- A part of a dotted address: decimal, or octal after `0`, or hexadecimal after `0x`. -/
def addressPart? (cs : List Char) : Option Nat :=
  let number (base : Nat) (digits : List Char) : Option Nat :=
    digits.foldlM (fun n c => do
      let d ← Bytes.hexValue? c
      guard (d < base)
      return n * base + d) 0
  match cs with
  | '0' :: x :: rest =>
    if x = 'x' || x = 'X' then if rest.isEmpty then none else number 16 rest
    else number 8 (x :: rest)
  | [] => none
  | cs => number 10 cs

/-- One to four numbers between dots; all but the last are bytes, and the last fills what is left. -/
def isNumericHost (host : String) : Bool :=
  match (host.splitOn ".").mapM fun part => addressPart? part.toList with
  | none => false
  | some parts =>
    parts.length ≤ 4 && parts.dropLast.all (· < 256) &&
      (parts.getLast?.getD 0) < Nat.pow 256 (5 - parts.length)

/-- Whether a server can listen there. The only name that is known is the machine's own. -/
def isBindableHost (host : String) : Bool :=
  let bare := if host.startsWith "[" && host.endsWith "]"
    then ((host.drop 1).dropEnd 1).toString else host
  match Net.Address.parse? bare with
  | some a => a.isBindable
  | none => isNumericHost host || host = "localhost"

def say (name message : String) (details : List (String × String)) : Signal :=
  .event .info "flowscope::metrics::server" name message details

inductive ServerError where
  | bind (address cause : String)
  | serve (cause : String)
  deriving DecidableEq, Repr

def ServerError.message : ServerError → String
  | bind address cause => s!"failed to bind metrics server to {address}: {cause}"
  | serve cause => "metrics server error: " ++ cause

def serve (settings : MetricsSettings) : Told (Except ServerError Unit) := do
  let address := settings.listen.address ++ ":" ++ toString settings.listen.port.toNat
  let port := settings.listen.port
  if !settings.enabled then
    tell [say "metrics.disabled" "metrics server is disabled in configuration" []]
    return .ok ()
  else if isBindableHost settings.listen.address && (port = 0 || firstOpenPort ≤ port) then
    tell [say "metrics.started" "metrics server started" [("net.listen.address", address)],
      say "metrics.stopped" "metrics server stopped" []]
    return .ok ()
  else return .error (.bind address "address not available")

end Exposition
end FlowObserver
