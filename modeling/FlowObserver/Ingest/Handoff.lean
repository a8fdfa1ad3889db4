import FlowObserver.Flow.Basic

/-!
# The handover channel

A bounded queue between ingestion and its consumer. The consumer sleeps, takes an event, and sleeps
again; it may leave after some events, which closes the channel. Times are in nanoseconds. The
consumer gets its turn only while ingestion waits for something.
-/

namespace FlowObserver

inductive Consumer where
  | idle
  /-- Sleeps until `time`; `left` is how many events it still takes before it leaves. -/
  | asleep (time : Nat) (left : Option Nat)
  | waiting (left : Option Nat)
  | gone
  deriving DecidableEq, Repr

structure Handoff where
  capacity : Nat
  consumer : Consumer := .idle
  pause : Nat → Nat := fun _ => 0
  queue : List FlowEvent := []
  taken : List (Nat × FlowEvent) := []

namespace Handoff

def isFull (h : Handoff) : Bool := h.capacity ≤ h.queue.length

def place (h : Handoff) (e : FlowEvent) : Handoff := { h with queue := h.queue ++ [e] }

def placed (h : Handoff) : List FlowEvent := h.taken.map (·.2) ++ h.queue

/-- The consumer's doings up to `time`, as far as it is asleep now. -/
def advance (time : Nat) (h : Handoff) : Handoff :=
  match h.consumer with
  | .asleep wake left =>
    if time < wake then h
    else if left = some 0 then { h with consumer := .gone }
    else
      match _queue : h.queue with
      | [] => { h with consumer := .waiting left }
      | e :: rest => advance time { h with
          consumer := .asleep (wake + h.pause h.taken.length) (left.map (· - 1))
          queue := rest
          taken := h.taken ++ [(wake, e)] }
  | _ => h
termination_by h.queue.length
decreasing_by simp_all

/-- Ingestion waits from `now` until `time`: a consumer that waits for an event starts with what is
queued now. -/
def during (h : Handoff) (now time : Nat) : Handoff :=
  match h.consumer with
  | .waiting left =>
    if h.queue.isEmpty then h else advance time { h with consumer := .asleep now left }
  | _ => advance time h

theorem placed_advance (time : Nat) (h : Handoff) : (advance time h).placed = h.placed := by
  fun_induction advance time h with
  | case4 h wake left _ _ _ e rest hq ih => rw [ih]; simp [placed, hq]
  | _ => rfl

theorem placed_during (h : Handoff) (now time : Nat) : (h.during now time).placed = h.placed := by
  unfold during
  split
  · split
    · rfl
    · exact placed_advance ..
  · exact placed_advance ..

/-- What becomes of an event that is offered. -/
inductive Offer where
  | placed (time : Nat)
  | timedOut (time : Nat)
  | closed (time : Nat)
  deriving DecidableEq, Repr

def isGone (h : Handoff) : Bool := h.consumer == .gone

def tryPlace (h : Handoff) (e : FlowEvent) (now : Nat) : Option (Offer × Handoff) :=
  if h.isGone then some (.closed now, h)
  else if h.isFull then none
  else some (.placed now, h.place e)

/-- Waits for room until `deadline`; the consumer makes room when it wakes up, or leaves. -/
def offer (h : Handoff) (e : FlowEvent) (now deadline : Nat) : Offer × Handoff :=
  match h.tryPlace e now with
  | some done => done
  | none =>
    if deadline ≤ now then (.timedOut now, h)
    else
      let h := h.during now now
      let wake := match h.consumer with
        | .asleep time _ => if h.isFull && time ≤ deadline then time else now
        | _ => now
      let h := h.during now wake
      match h.tryPlace e wake with
      | some done => done
      | none => (.timedOut deadline, h.during wake deadline)

end Handoff
end FlowObserver
