/-!
# Durations

A length of time in whole nanoseconds, with a 64-bit count of seconds as its range. Sums and
products that would leave the range stop at its end.
-/

namespace FlowObserver

abbrev nanosPerSecond : Nat := 1000000000

/-- Nanoseconds in as many seconds as there are 64-bit words. -/
abbrev durationLimit : Nat := UInt64.size * nanosPerSecond

structure Duration where
  nanos : Nat
  bound : nanos < durationLimit := by decide
  deriving DecidableEq, Repr

namespace Duration

def zero : Duration := ⟨0, by decide⟩

instance : Inhabited Duration := ⟨zero⟩

def greatest : Duration := ⟨durationLimit - 1, by decide⟩

/-- The duration of `n` nanoseconds, or the greatest one. -/
def clamped (n : Nat) : Duration :=
  if h : n < durationLimit then ⟨n, h⟩ else greatest

def ofNanos? (n : Nat) : Option Duration :=
  if h : n < durationLimit then some ⟨n, h⟩ else none

def ofSeconds (n : Nat) : Duration := clamped (n * nanosPerSecond)

def ofMillis (n : Nat) : Duration := clamped (n * 1000000)

/-- Whole seconds. -/
def seconds (d : Duration) : Nat := d.nanos / nanosPerSecond

/-- Nanoseconds past the whole seconds. -/
def subsecond (d : Duration) : Nat := d.nanos % nanosPerSecond

def doubled (d : Duration) : Duration := clamped (2 * d.nanos)

instance : LE Duration := ⟨fun a b => a.nanos ≤ b.nanos⟩
instance : LT Duration := ⟨fun a b => a.nanos < b.nanos⟩
instance (a b : Duration) : Decidable (a ≤ b) := inferInstanceAs (Decidable (a.nanos ≤ b.nanos))
instance (a b : Duration) : Decidable (a < b) := inferInstanceAs (Decidable (a.nanos < b.nanos))
instance : Min Duration := minOfLe
instance : Max Duration := maxOfLe

theorem le_iff (a b : Duration) : a ≤ b ↔ a.nanos ≤ b.nanos := Iff.rfl

@[ext] theorem ext {a b : Duration} (h : a.nanos = b.nanos) : a = b := by
  cases a; cases b; simp_all

theorem nanos_clamped (n : Nat) : (clamped n).nanos = min n greatest.nanos := by
  unfold clamped
  split
  · rename_i h
    simp only [greatest]
    omega
  · rename_i h
    simp only [greatest]
    omega

theorem nanos_doubled (d : Duration) : d.doubled.nanos = min (2 * d.nanos) greatest.nanos :=
  nanos_clamped _

theorem nanos_min (a b : Duration) : (min a b).nanos = min a.nanos b.nanos := by
  by_cases h : a ≤ b
  · rw [show min a b = a from if_pos h]
    exact (Nat.min_eq_left h).symm
  · rw [show min a b = b from if_neg h]
    rw [le_iff] at h
    omega

theorem nanos_max (a b : Duration) : (max a b).nanos = max a.nanos b.nanos := by
  by_cases h : a ≤ b
  · rw [show max a b = b from if_pos h]
    exact (Nat.max_eq_right h).symm
  · rw [show max a b = a from if_neg h]
    rw [le_iff] at h
    omega

theorem seconds_add_subsecond (d : Duration) :
    d.seconds * nanosPerSecond + d.subsecond = d.nanos :=
  Nat.div_add_mod' d.nanos nanosPerSecond

end Duration
end FlowObserver
