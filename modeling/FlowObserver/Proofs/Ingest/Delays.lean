import FlowObserver.Ingest.Backoff
import Mathlib.Data.List.DropRight
import Mathlib.Tactic

/-!
# Delays in closed form

The delay after the next failure is the initial one, doubled for each failure in a row before it,
up to the cap. Neither the cap nor the greatest duration is ever left. Whatever failures and resets
came before, only the failures since the last reset matter.
-/

namespace FlowObserver
namespace Backoff

variable (initial cap : Duration)

/-- Where so many failures in a row lead. -/
def failing (initial cap : Duration) : Nat → Backoff
  | 0 => start initial cap
  | k + 1 => (failing initial cap k).fail.2

theorem bounds_failing (k : Nat) :
    (failing initial cap k).initial = initial ∧ (failing initial cap k).cap = cap := by
  induction k with
  | zero => exact ⟨rfl, rfl⟩
  | succ k ih => exact ih

theorem reset_failing (k : Nat) : (failing initial cap k).reset = failing initial cap 0 := by
  obtain ⟨hinitial, hcap⟩ := bounds_failing initial cap k
  rw [reset, hinitial, hcap]
  rfl

theorem failures_failing (k : Nat) : (failing initial cap k).failures = min k failureLimit := by
  induction k with
  | zero => exact (Nat.zero_min _).symm
  | succ k ih =>
    change min ((failing initial cap k).failures + 1) failureLimit = _
    rw [ih]
    omega

theorem nanos_current_failing (k : Nat) :
    (failing initial cap k).current.nanos = min (initial.nanos * 2 ^ k) cap.nanos := by
  induction k with
  | zero =>
    rw [pow_zero, Nat.mul_one]
    exact Duration.nanos_min initial cap
  | succ k ih =>
    have hcap : cap.nanos ≤ Duration.greatest.nanos := Nat.le_sub_one_of_lt cap.bound
    change (min (failing initial cap k).current.doubled (failing initial cap k).cap).nanos = _
    rw [(bounds_failing initial cap k).2, Duration.nanos_min, Duration.nanos_doubled, ih, pow_succ,
      ← Nat.mul_assoc]
    omega

inductive Call where
  | fail
  | reset
  deriving DecidableEq, Repr

def call (b : Backoff) : Call → Backoff
  | .fail => b.fail.2
  | .reset => b.reset

/-- Where the calls lead from the start. -/
def after (initial cap : Duration) (calls : List Call) : Backoff :=
  calls.foldl call (start initial cap)

def failedInRow (calls : List Call) : Nat := (calls.rtakeWhile (· = .fail)).length

theorem failedInRow_concat_fail (calls : List Call) :
    failedInRow (calls ++ [.fail]) = failedInRow calls + 1 := by
  rw [failedInRow, List.rtakeWhile_concat_pos _ _ _ (by decide), List.length_append]
  rfl

theorem failedInRow_concat_reset (calls : List Call) :
    failedInRow (calls ++ [.reset]) = 0 := by
  rw [failedInRow, List.rtakeWhile_concat_neg _ _ _ (by decide)]
  rfl

theorem failedInRow_append_fails (calls : List Call) (more : Nat) :
    failedInRow (calls ++ List.replicate more .fail) = failedInRow calls + more := by
  induction more with
  | zero => rw [List.replicate_zero, List.append_nil, Nat.add_zero]
  | succ more ih =>
    rw [List.replicate_succ', ← List.append_assoc, failedInRow_concat_fail, ih, Nat.add_assoc]

theorem after_concat (calls : List Call) (c : Call) :
    after initial cap (calls ++ [c]) = (after initial cap calls).call c := by
  rw [after, List.foldl_append]
  rfl

/-- All that is left of the calls is how many failures there were since the last reset. -/
theorem after_eq_failing (calls : List Call) :
    after initial cap calls = failing initial cap (failedInRow calls) := by
  induction calls using List.reverseRecOn with
  | nil => rfl
  | append_singleton calls c ih =>
    rw [after_concat, ih]
    cases c with
    | fail =>
      rw [failedInRow_concat_fail]
      rfl
    | reset =>
      rw [failedInRow_concat_reset]
      exact reset_failing initial cap _

/-- A failure after any calls, with `k` failures since the last reset before it, is answered with
the initial delay doubled `k` times, or the cap where that is less. Further failures are answered
with no smaller delays, and a reset leaves nothing of what came before it. -/
theorem delay_after_calls (calls : List Call) :
    let b := after initial cap calls
    let k := failedInRow calls
    b.fail.1.nanos = min (initial.nanos * 2 ^ k) cap.nanos ∧
      b.fail.2.failures = min (k + 1) (2 ^ 32 - 1) ∧
      b.fail.1 ≤ cap ∧
      (∀ more, b.fail.1 ≤ (after initial cap (calls ++ List.replicate more .fail)).fail.1) ∧
      ∀ later, after initial cap (calls ++ .reset :: later) = after initial cap later := by
  intro b k
  have hdelay : ∀ calls, (after initial cap calls).fail.1.nanos =
      min (initial.nanos * 2 ^ failedInRow calls) cap.nanos := by
    intro calls
    rw [after_eq_failing]
    exact nanos_current_failing initial cap _
  refine ⟨hdelay calls, ?_, ?_, fun more => ?_, fun later => ?_⟩
  · change (after initial cap calls).fail.2.failures = _
    rw [after_eq_failing]
    exact failures_failing initial cap (failedInRow calls + 1)
  · rw [Duration.le_iff, hdelay]
    exact Nat.min_le_right _ _
  · have hpow : 2 ^ failedInRow calls ≤ 2 ^ (failedInRow calls + more) :=
      Nat.pow_le_pow_right (by decide) (Nat.le_add_right _ _)
    rw [Duration.le_iff, hdelay, hdelay, failedInRow_append_fails]
    exact min_le_min_right _ (Nat.mul_le_mul_left _ hpow)
  · rw [after, List.foldl_append, List.foldl_cons]
    change later.foldl call (after initial cap calls).reset = _
    rw [after_eq_failing, reset_failing]
    rfl

end Backoff
end FlowObserver
