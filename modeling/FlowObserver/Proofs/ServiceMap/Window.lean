import FlowObserver.Proofs.ServiceMap.Counting

/-!
# What a query answers

Flows are recorded while the clock of the service map goes on. The longest window of a query is as
long as the retention, so no bucket of a window has been dropped: a query counts all flows of its
window and no others.
-/

namespace FlowObserver
namespace ServiceMap

section

variable (settings : ServiceMapSettings) (requested : Option Duration)

theorem exists_effectiveWindow : ∃ asked : Duration, (effectiveWindow settings requested).nanos =
    min (max asked.nanos nanosPerSecond) (max settings.retention.nanos nanosPerSecond) := by
  unfold effectiveWindow
  dsimp only
  rw [Duration.nanos_min, Duration.nanos_max, Duration.nanos_max]
  exact ⟨_, rfl⟩

theorem nanosPerSecond_le_effectiveWindow :
    nanosPerSecond ≤ (effectiveWindow settings requested).nanos := by
  obtain ⟨asked, h⟩ := exists_effectiveWindow settings requested
  rw [h]
  exact le_min (le_max_right _ _) (le_max_right _ _)

theorem one_le_seconds_effectiveWindow : 1 ≤ (effectiveWindow settings requested).seconds := by
  rw [Duration.seconds, Nat.le_div_iff_mul_le (by decide), one_mul]
  exact nanosPerSecond_le_effectiveWindow settings requested

theorem seconds_effectiveWindow_le :
    (effectiveWindow settings requested).seconds ≤ max 1 settings.retention.seconds := by
  obtain ⟨asked, h⟩ := exists_effectiveWindow settings requested
  unfold Duration.seconds nanosPerSecond at *
  omega

/-- A window that was applied is applied as it is when it is asked for. -/
theorem effectiveWindow_idem :
    effectiveWindow settings (some (effectiveWindow settings requested)) =
      effectiveWindow settings requested := by
  have hsecond := nanosPerSecond_le_effectiveWindow settings requested
  obtain ⟨asked, h⟩ := exists_effectiveWindow settings requested
  generalize effectiveWindow settings requested = w at h hsecond ⊢
  have hpositive : w.nanos ≠ 0 := (Nat.lt_of_lt_of_le (by decide) hsecond).ne'
  apply Duration.ext
  unfold effectiveWindow
  dsimp only
  rw [if_neg hpositive, Duration.nanos_min, Duration.nanos_max, Duration.nanos_max]
  change min (max w.nanos nanosPerSecond) (max settings.retention.nanos nanosPerSecond) = w.nanos
  omega

end

inductive Act where
  | record (e : FlowEvent)
  | wait (nanos : Nat)

/-- A service map and the time on its clock. -/
structure Clocked where
  map : ServiceMap
  now : Nat := 0

namespace Clocked

def perform (x : Clocked) : Act → Clocked
  | .record e => { x with map := x.map.record e x.now }
  | .wait nanos => { x with now := x.now + nanos }

def run (x : Clocked) (acts : List Act) : Clocked := acts.foldl perform x

end Clocked

def history (now : Nat) : List Act → List (FlowEvent × Nat)
  | [] => []
  | .record e :: rest => (e, now) :: history now rest
  | .wait nanos :: rest => history (now + nanos) rest

def inSeconds (history : List (FlowEvent × Nat)) : List (FlowEvent × Nat) :=
  history.map fun r => (r.1, secondOf r.2)

theorem Clocked.map_run (x : Clocked) (acts : List Act) :
    (x.run acts).map =
      { x.map with buckets := x.map.buckets.recordAll (inSeconds (history x.now acts)) } := by
  induction acts generalizing x with
  | nil => rfl
  | cons act rest ih => cases act <;> exact ih _

theorem Clocked.le_now_run (x : Clocked) (acts : List Act) :
    x.now ≤ (x.run acts).now ∧ ∀ r ∈ history x.now acts, r.2 ≤ (x.run acts).now := by
  induction acts generalizing x with
  | nil => exact ⟨le_rfl, fun r hr => absurd hr List.not_mem_nil⟩
  | cons act rest ih =>
    obtain ⟨hnow, hhistory⟩ := ih (x.perform act)
    cases act with
    | record e => exact ⟨hnow, List.forall_mem_cons.mpr ⟨hnow, hhistory⟩⟩
    | wait nanos => exact ⟨(Nat.le_add_right x.now nanos).trans hnow, hhistory⟩

/-- Whether an instant lies in the `window` seconds that end with the present one. -/
def Recent (window now instant : Nat) : Prop :=
  secondOf now < secondOf instant + window ∧ secondOf instant ≤ secondOf now

instance (window now instant : Nat) : Decidable (Recent window now instant) :=
  inferInstanceAs (Decidable (_ ∧ _))

/-- The flows of a key among those that are recent. -/
def recentFlows (history : List (FlowEvent × Nat)) (window now : Nat) (key : EdgeKey) :
    List FlowEvent :=
  (history.filter fun r => Recent window now r.2 ∧ EdgeKey.ofEvent? r.1 = some key).map (·.1)

theorem flowsOf_inSeconds (history : List (FlowEvent × Nat)) {window : Nat} (hwindow : 1 ≤ window)
    (now : Nat) (key : EdgeKey) :
    Buckets.flowsOf (inSeconds history) window (secondOf now) key =
      recentFlows history window now key := by
  rw [Buckets.flowsOf, inSeconds, List.filter_map, List.map_map, recentFlows]
  congr 1
  refine List.filter_congr fun r _ => ?_
  have hwithin : Buckets.within window (secondOf now) (secondOf r.2) =
      decide (Recent window now r.2) := by
    rw [Buckets.within, ← Bool.decide_and, decide_eq_decide, Recent]
    omega
  rw [Function.comp_apply, hwithin, ← Bool.decide_and, decide_eq_decide, and_comm]

/-- Whatever is recorded while time passes and whatever window is asked for, the answer has exactly
one edge for each key with a recent flow, in the order of the keys, and its counts are those of the
recent flows. By the clock, a flow is recent if it is younger than the window by a second, and it is
not if it is as old as the window. -/
theorem query_counts_recent_flows (settings : ServiceMapSettings) (acts : List Act)
    (requested : Option Duration) :
    let x := ({ map := ofSettings settings } : Clocked).run acts
    let applied := effectiveWindow settings requested
    let window := applied.seconds
    let flows := recentFlows (history 0 acts) window x.now
    let answer := x.map.query requested x.now
    (1 ≤ window ∧ window ≤ max 1 settings.retention.seconds) ∧
    effectiveWindow settings (some applied) = applied ∧
    answer.2 = applied ∧
    (answer.1.map (·.key.texts)).Pairwise (· < ·) ∧
    (∀ edge, edge ∈ answer.1 ↔ flows edge.key ≠ [] ∧ edge.counts = .ofFlows (flows edge.key)) ∧
    ∀ r ∈ history 0 acts,
      (x.now ≤ r.2 + (window - 1) * nanosPerSecond → Recent window x.now r.2) ∧
      (r.2 + window * nanosPerSecond ≤ x.now → ¬Recent window x.now r.2) := by
  intro x applied window flows answer
  have hpositive : 1 ≤ window := one_le_seconds_effectiveWindow settings requested
  have hbound : window ≤ max 1 settings.retention.seconds :=
    seconds_effectiveWindow_le settings requested
  have hpast : ∀ r ∈ history 0 acts, r.2 ≤ x.now := (Clocked.le_now_run ⟨_, 0⟩ acts).2
  have hmap : x.map = _ := Clocked.map_run _ _
  have hanswer : answer = (((Buckets.ofRetention settings.retention).recordAll
      (inSeconds (history 0 acts))).edges window (secondOf x.now), applied) := by
    change x.map.query requested x.now = _
    rw [hmap]
    rfl
  refine ⟨⟨hpositive, hbound⟩, effectiveWindow_idem settings requested, ?_, ?_, fun edge => ?_,
    fun r hr => ?_⟩
  · rw [hanswer]
  · rw [hanswer]
    exact Buckets.edges_sorted _ _ _
  · rw [hanswer, Buckets.mem_edges_recordAll, flowsOf_inSeconds _ hpositive]
    -- the window reaches back less than the retention does
    rw [inSeconds, List.forall_mem_map]
    intro r hr
    have hsecond : secondOf r.2 ≤ secondOf x.now := Nat.div_le_div_right (hpast r hr)
    dsimp only
    omega
  · have hr := hpast r hr
    unfold Recent secondOf nanosPerSecond
    omega

end ServiceMap
end FlowObserver
