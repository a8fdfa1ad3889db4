import FlowObserver.Time.Duration

/-!
# Retry delays

Delays double from failure to failure, up to a cap, and start over after a success.
-/

namespace FlowObserver

structure Backoff where
  initial : Duration
  cap : Duration
  current : Duration
  /-- Failures in a row, in 32 bits. -/
  failures : Nat := 0
  deriving DecidableEq, Repr

namespace Backoff

abbrev failureLimit : Nat := UInt32.size - 1

def start (initial cap : Duration) : Backoff := { initial, cap, current := min initial cap }

def fail (b : Backoff) : Duration × Backoff :=
  (b.current, { b with
    current := min b.current.doubled b.cap
    failures := min (b.failures + 1) failureLimit })

def reset (b : Backoff) : Backoff := start b.initial b.cap

end Backoff
end FlowObserver
