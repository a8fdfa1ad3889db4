import FlowObserver.Proofs.Tasks.Course
import FlowObserver.Telemetry.Exposition

/-!
# Accounting for every task

Whatever the tasks do, a shutdown that is over has recorded each of them once: as completed or
panicked if it ended before the deadline, as cancelled if it did not. `TaskSet.run` is one course of
the shutdown, and any other reports the same at the same time, and tells the same in another order.
-/

namespace FlowObserver

def Signal.added (m : Metric) : Signal → Int
  | .add changed amount => if changed = m then amount else 0
  | .log _ | .set _ _ => 0

namespace Exposition

def shown (t : Table Metric Int) (m : Metric) : Int := (t.find? m).getD 0

variable {t : Table Metric Int} {m : Metric}

theorem shown_apply {s : Signal} (hs : ∀ v, s ≠ .set m v) :
    shown (apply t s) m = shown t m + s.added m := by
  cases s with
  | log line => simp [apply, Signal.added]
  | add changed amount =>
    rw [shown, apply, Table.find?_insert, Signal.added]
    by_cases hm : changed = m
    · simp [hm, shown]
    · simp [hm, Ne.symm hm, shown]
  | set changed v =>
    have hm : m ≠ changed := by
      rintro rfl
      exact hs v rfl
    simp [shown, apply, Table.find?_insert, hm, Signal.added]

theorem shown_foldl {signals : List Signal} (hs : ∀ v, .set m v ∉ signals) :
    shown (signals.foldl apply t) m = shown t m + (signals.map (·.added m)).sum := by
  induction signals generalizing t with
  | nil => simp
  | cons s rest ih =>
    have hfirst : ∀ v, s ≠ .set m v := by
      rintro v rfl
      exact hs v List.mem_cons_self
    have hrest : ∀ v, .set m v ∉ rest := fun v hv => hs v (List.mem_cons_of_mem _ hv)
    rw [List.foldl_cons, ih hrest, shown_apply hfirst, List.map_cons, List.sum_cons, add_assoc]

theorem shown_foldl_perm {signals others : List Signal} (hperm : signals.Perm others)
    (hs : ∀ v, .set m v ∉ others) :
    shown (signals.foldl apply t) m = shown (others.foldl apply t) m := by
  have hsignals : ∀ v, .set m v ∉ signals := fun v hv => hs v (hperm.mem_iff.mp hv)
  rw [shown_foldl hsignals, shown_foldl hs, (hperm.map _).sum_eq]

end Exposition

namespace TaskSet

variable {tasks : List AgentTask} {signal called limit millisecond : Nat}

theorem added_spawned (tasks : List AgentTask) (name : String) :
    ((tasks.flatMap spawned).map (·.added (.activeTasks name))).sum =
      tasks.countP fun t => t.name = name := by
  induction tasks with
  | nil => rfl
  | cons t rest ih =>
    rw [List.flatMap_cons, List.map_append, List.sum_append, ih, List.countP_cons]
    by_cases hname : t.name = name <;>
      simp [spawned, say, Signal.event, Signal.added, hname, add_comm]

theorem added_finished (tasks : List AgentTask) (o : AgentTask → TaskOutcome) (name : String) :
    ((tasks.flatMap fun t => finished t (o t)).map (·.added (.activeTasks name))).sum =
      -((tasks.countP fun t => t.name = name : Nat) : Int) := by
  induction tasks with
  | nil => rfl
  | cons t rest ih =>
    have hline : ((finished t (o t)).map (·.added (.activeTasks name))).sum =
        if t.name = name then -1 else 0 := by
      cases o t <;> simp [finished, say, Signal.event, Signal.count, Signal.added]
    rw [List.flatMap_cons, List.map_append, List.sum_append, ih, hline, List.countP_cons]
    by_cases hname : t.name = name <;> simp [hname]

theorem set_not_mem_account (recorded : List AgentTask) (timedOut : Bool) (m : Metric) (v : Int) :
    .set m v ∉ account tasks signal called limit millisecond recorded timedOut := by
  have hfinished : ∀ t o, Signal.set m v ∉ finished t o := by
    intro t o
    cases o <;> simp [finished, say, Signal.event, Signal.count]
  have hexpired : ∀ remaining, Signal.set m v ∉ expired limit millisecond remaining := by
    simp [expired, say, Signal.event, Signal.count]
  have hlate : ∀ remaining, Signal.set m v ∉
      if timedOut then expired limit millisecond remaining else [] := by
    intro remaining
    cases timedOut <;> simp [hexpired]
  simp [account, initiated, spawned, say, Signal.event, hfinished, hlate]

/-- The gauge is back where it was once every task is recorded. -/
theorem shown_account {recorded : List AgentTask} (hperm : tasks.Perm recorded) (timedOut : Bool)
    (before : Table Metric Int) (name : String) :
    Exposition.shown ((account tasks signal called limit millisecond recorded timedOut).foldl
        Exposition.apply before) (.activeTasks name) =
      Exposition.shown before (.activeTasks name) := by
  rw [Exposition.shown_foldl fun v => set_not_mem_account recorded timedOut _ v, account]
  have hexpired : ∀ remaining, ((if timedOut then expired limit millisecond remaining else []).map
      (·.added (.activeTasks name))).sum = 0 := by
    intro remaining
    cases timedOut <;> simp [expired, say, Signal.event, Signal.count, Signal.added]
  have hinitiated : ((initiated tasks).map (·.added (.activeTasks name))).sum = 0 := rfl
  rw [List.map_append, List.map_append, List.map_append, List.sum_append, List.sum_append,
    List.sum_append, added_spawned, added_finished, hexpired, hinitiated, hperm.countP_eq]
  simp

/-- A report that accounts for all tasks, and telemetry that agrees with it. -/
structure Accounted (tasks : List AgentTask) (signal called limit : Nat) (r : ShutdownReport)
    (told : List Signal) : Prop where
  completed : r.completed =
    tasks.countP fun t => t.endTime signal < ↑(called + limit) ∧ t.panics = false
  panicked : r.panicked =
    tasks.countP fun t => t.endTime signal < ↑(called + limit) ∧ t.panics = true
  cancelled : r.cancelled = tasks.countP fun t => ¬ t.endTime signal < ↑(called + limit)
  total : r.completed + r.panicked + r.cancelled = tasks.length
  timedOut_iff : r.timedOut = true ↔ 0 < r.cancelled
  finished : (r.finished : ℕ∞) =
    min ↑(called + limit) (max ↑called (lastEnd signal tasks))
  active : ∀ before name,
    Exposition.shown (told.foldl Exposition.apply before) (.activeTasks name) =
      Exposition.shown before (.activeTasks name)

theorem countP_outcomes (outcome : AgentTask → TaskOutcome) (tasks : List AgentTask) :
    (tasks.countP fun t => outcome t = .completed) + (tasks.countP fun t => outcome t = .panicked) +
      (tasks.countP fun t => outcome t = .cancelled) = tasks.length := by
  induction tasks with
  | nil => rfl
  | cons t rest ih =>
    simp only [List.countP_cons, List.length_cons, ← ih]
    cases outcome t <;> simp <;> omega

theorem Accounts.accounted {recorded : List AgentTask} {x : Activity}
    (hx : Accounts tasks signal called limit millisecond recorded x)
    (hties : ∀ t ∈ tasks, t.end? signal ≠ some (called + limit)) (hreturned : x.stage = .returned) :
    Accounted tasks signal called limit x.report x.told := by
  obtain ⟨hpending, hfinished⟩ := hx.returned hreturned
  have hperm : tasks.Perm recorded := by simpa [hpending] using hx.perm
  have hnumber : ∀ o, x.report.number o =
      tasks.countP fun t => t.outcome signal (called + limit) = o := by
    intro o
    rw [hx.number o, hperm.countP_eq]
  have hcancelled : x.report.cancelled =
      tasks.countP fun t => ¬ t.endTime signal < ↑(called + limit) := by
    simpa only [ShutdownReport.number, AgentTask.outcome_eq_cancelled_iff] using hnumber .cancelled
  have hended : x.report.timedOut = false → ∀ t ∈ tasks, t.endTime signal ≤ x.now :=
    fun hopen t ht => hx.prompt hopen t (hperm.mem_iff.mp ht)
  constructor
  case completed =>
    simpa only [ShutdownReport.number, AgentTask.outcome_eq_completed_iff] using hnumber .completed
  case panicked =>
    simpa only [ShutdownReport.number, AgentTask.outcome_eq_panicked_iff] using hnumber .panicked
  case cancelled => exact hcancelled
  case total =>
    rw [← countP_outcomes (·.outcome signal (called + limit)) tasks, ← hnumber, ← hnumber,
      ← hnumber]
    rfl
  case timedOut_iff =>
    rw [hcancelled, List.countP_pos_iff]
    constructor
    · intro hout
      obtain ⟨t, ht, hlate⟩ := hx.late (hx.timedOut hout)
      exact ⟨t, ht, by simpa using hlate.le⟩
    · rintro ⟨t, ht, hlate⟩
      by_contra hopen
      have hle := hended (Bool.eq_false_iff.mpr hopen) t ht
      exact absurd (endTime_lt_of_le hties ht hx.now_le hle) (of_decide_eq_true hlate)
  case finished =>
    rw [hfinished]
    refine le_antisymm (le_min (Nat.cast_le.mpr hx.now_le) hx.now_le_lastEnd) ?_
    cases hout : x.report.timedOut with
    | true => exact (min_le_left _ _).trans_eq (congrArg _ (hx.timedOut hout).symm)
    | false =>
      have hlast := lastEnd_le_iff.mpr (hended hout)
      exact (min_le_right _ _).trans (max_le (Nat.cast_le.mpr hx.called_le) hlast)
  case active =>
    intro before name
    rw [Exposition.shown_foldl_perm hx.told fun v => set_not_mem_account recorded _ _ v,
      shown_account hperm]

/-- When the run records a task that ends before the deadline. -/
def recordedAt (signal called limit : Nat) (t : AgentTask) : Nat :=
  max called ((t.end? signal).getD (called + limit))

section
variable {t : AgentTask}

theorem endTime_le_recordedAt (ht : t.endTime signal < ↑(called + limit)) :
    t.endTime signal ≤ recordedAt signal called limit t := by
  rw [AgentTask.endTime] at ht ⊢
  rw [recordedAt]
  cases hend : t.end? signal with
  | none => simp [hend] at ht
  | some time => simp

theorem recordedAt_le (ht : t.endTime signal < ↑(called + limit)) :
    recordedAt signal called limit t ≤ called + limit := by
  rw [AgentTask.endTime] at ht
  rw [recordedAt]
  cases hend : t.end? signal with
  | none => simp
  | some time =>
    simp only [hend, Nat.cast_lt] at ht
    exact max_le (Nat.le_add_right _ _) ht.le

/-- It is recorded later than the shutdown was called only because it ends later. -/
theorem recordedAt_le_endTime (ht : called < recordedAt signal called limit t) :
    recordedAt signal called limit t ≤ t.endTime signal := by
  rw [recordedAt] at ht ⊢
  rw [AgentTask.endTime]
  cases hend : t.end? signal with
  | none => simp
  | some time =>
    simp only [hend, Option.getD_some, lt_max_iff, lt_irrefl, false_or] at ht
    simp [ht.le]

end

section
variable {x y : Activity} {course : List Step} {l late : List AgentTask}

/-- Time goes on to where the first of the tasks ends. -/
theorem Run.exists_until (hrun : Run signal called limit millisecond x course y)
    (hstage : y.stage = .waiting) (hpending : y.pending ≠ []) {time : Nat} (hle : y.now ≤ time)
    (htime : time ≤ called + limit) (hnone : ∀ t ∈ y.pending, time ≤ t.endTime signal) :
    ∃ course, Run signal called limit millisecond x course { y with now := time } := by
  induction time, hle using Nat.le_induction with
  | base => exact ⟨course, hrun⟩
  | succ time _ ih =>
    have hlt : ∀ t ∈ y.pending, (time : ℕ∞) < t.endTime signal := fun t ht =>
      (Nat.cast_lt.mpr (Nat.lt_succ_self time)).trans_le (hnone t ht)
    obtain ⟨course, hrun⟩ := ih (Nat.le_of_succ_le htime) fun t ht => (hlt t ht).le
    exact ⟨_, hrun.concat (.pass hstage hpending htime hlt)⟩

/-- All that end before the deadline are recorded in the order in which they end. -/
theorem Run.exists_sorted (hrun : Run signal called limit millisecond x course y)
    (hstage : y.stage = .waiting) (hpending : y.pending.Perm (l ++ late)) (hcalled : called ≤ y.now)
    (hsorted : l.Pairwise fun a b =>
      recordedAt signal called limit a ≤ recordedAt signal called limit b)
    (hends : ∀ t ∈ l, t.endTime signal < ↑(called + limit))
    (hlate : ∀ t ∈ late, ↑(called + limit) ≤ t.endTime signal) :
    ∃ course left, left.Perm late ∧ Run signal called limit millisecond x course
      { y with
        now := l.foldl (fun time t => max time (recordedAt signal called limit t)) y.now
        pending := left
        report := l.foldl (fun r t => r.count (t.outcome signal (called + limit))) y.report
        told := y.told ++ l.flatMap fun t => finished t (t.outcome signal (called + limit)) } := by
  induction l generalizing y course with
  | nil => exact ⟨course, y.pending, hpending, by simpa using hrun⟩
  | cons t rest ih =>
    rw [List.pairwise_cons] at hsorted
    rw [List.forall_mem_cons] at hends
    have ht : t ∈ y.pending := hpending.mem_iff.mpr List.mem_cons_self
    have hfirst : ∀ u ∈ t :: rest,
        recordedAt signal called limit t ≤ recordedAt signal called limit u :=
      List.forall_mem_cons.mpr ⟨le_rfl, hsorted.1⟩
    -- the clock stands still if the task has ended by now
    obtain ⟨waits, hwaits⟩ : ∃ course, Run signal called limit millisecond x course
        { y with now := max y.now (recordedAt signal called limit t) } := by
      rcases le_or_gt (recordedAt signal called limit t) y.now with hpast | hahead
      · exact ⟨course, by simpa [hpast] using hrun⟩
      rw [max_eq_right hahead.le]
      refine hrun.exists_until hstage (List.ne_nil_of_mem ht) hahead.le (recordedAt_le hends.1) ?_
      intro other hother
      rcases List.mem_append.mp (hpending.mem_iff.mp hother) with hearly | hother
      · have hle := hfirst other hearly
        have hlater := (hcalled.trans_lt hahead).trans_le hle
        exact (Nat.cast_le.mpr hle).trans (recordedAt_le_endTime hlater)
      · exact (Nat.cast_le.mpr (recordedAt_le hends.1)).trans (hlate other hother)
    have hended : t.endTime signal ≤ ↑(max y.now (recordedAt signal called limit t)) :=
      (endTime_le_recordedAt hends.1).trans (Nat.cast_le.mpr (le_max_right _ _))
    have htaken := hwaits.concat (.take hstage ht hended)
    rw [← AgentTask.outcome_of_lt hends.1, Activity.recording_eq] at htaken
    have hrest : (y.pending.erase t).Perm (rest ++ late) := by
      simpa using hpending.erase t
    simpa using ih htaken hstage hrest (hcalled.trans (le_max_left _ _)) hsorted.2 hends.2

/-- Those that are cancelled are recorded in the order of the list. -/
theorem Run.exists_cancelled (hrun : Run signal called limit millisecond x course y)
    (hstage : y.stage = .cancelling) (hpending : y.pending.Perm late)
    (hlate : ∀ t ∈ late, y.now ≤ t.endTime signal) :
    ∃ course, Run signal called limit millisecond x course
      { y with
        pending := []
        report := late.foldl (fun r _ => r.count .cancelled) y.report
        told := y.told ++ late.flatMap fun t => finished t .cancelled } := by
  induction late generalizing y course with
  | nil =>
    obtain ⟨now, pending, report, told, stage⟩ := y
    obtain rfl : pending = [] := hpending.eq_nil
    exact ⟨course, by simpa using hrun⟩
  | cons t rest ih =>
    rw [List.forall_mem_cons] at hlate
    have ht : t ∈ y.pending := hpending.mem_iff.mpr List.mem_cons_self
    have hdrained := hrun.concat (.drain hstage ht (.inr ⟨hlate.1, rfl⟩))
    rw [Activity.recording_eq] at hdrained
    have hrest : (y.pending.erase t).Perm rest := by
      simpa using hpending.erase t
    simpa using ih hdrained hstage hrest hlate.2

end

theorem recordAll_eq (outcome : AgentTask → TaskOutcome) (l : List AgentTask)
    (r : ShutdownReport) :
    l.foldlM (fun r t => record r t (outcome t)) r =
      ⟨l.foldl (fun r t => r.count (outcome t)) r, l.flatMap fun t => finished t (outcome t)⟩ := by
  induction l generalizing r with
  | nil => rfl
  | cons t rest ih =>
    rw [List.foldlM_cons, List.flatMap_cons, ← signals_record r t (outcome t)]
    exact congrArg
      (fun done : Told ShutdownReport =>
        (⟨done.value, (record r t (outcome t)).signals ++ done.signals⟩ : Told ShutdownReport))
      (ih (r.count (outcome t)))

theorem foldl_count_finished (outcome : AgentTask → TaskOutcome) (l : List AgentTask)
    (r : ShutdownReport) (time : Nat) :
    l.foldl (fun r t => r.count (outcome t)) { r with finished := time } =
      { l.foldl (fun r t => r.count (outcome t)) r with finished := time } := by
  induction l generalizing r with
  | nil => rfl
  | cons t rest ih =>
    have hcount : ({ r with finished := time } : ShutdownReport).count (outcome t) =
        { r.count (outcome t) with finished := time } := by
      cases outcome t <;> rfl
    rw [List.foldl_cons, List.foldl_cons, hcount, ih]

/-- The tasks that end before the deadline, in the order in which the run records them. -/
def inTime (tasks : List AgentTask) (signal called limit : Nat) : List AgentTask :=
  (tasks.filter (·.endsBefore signal (called + limit))).mergeSort fun a b =>
    recordedAt signal called limit a ≤ recordedAt signal called limit b

def late (tasks : List AgentTask) (signal called limit : Nat) : List AgentTask :=
  tasks.filter fun t => !t.endsBefore signal (called + limit)

theorem perm_inTime_late :
    tasks.Perm (inTime tasks signal called limit ++ late tasks signal called limit) := by
  have hsorted := List.mergeSort_perm (tasks.filter (·.endsBefore signal (called + limit)))
    fun a b => recordedAt signal called limit a ≤ recordedAt signal called limit b
  exact (List.filter_append_perm _ tasks).symm.trans (hsorted.symm.append_right _)

theorem endTime_lt_of_mem_inTime {t : AgentTask} (ht : t ∈ inTime tasks signal called limit) :
    t.endTime signal < ↑(called + limit) := by
  rw [inTime, List.mem_mergeSort, List.mem_filter] at ht
  exact AgentTask.endsBefore_iff.mp ht.2

theorem le_endTime_of_mem_late {t : AgentTask} (ht : t ∈ late tasks signal called limit) :
    ↑(called + limit) ≤ t.endTime signal := by
  have hnot := (List.mem_filter.mp ht).2
  rwa [Bool.not_eq_true', ← Bool.not_eq_true, AgentTask.endsBefore_iff, not_lt] at hnot

theorem pairwise_inTime : (inTime tasks signal called limit).Pairwise fun a b =>
    recordedAt signal called limit a ≤ recordedAt signal called limit b := by
  have hsorted : (inTime tasks signal called limit).Pairwise fun a b =>
      decide (recordedAt signal called limit a ≤ recordedAt signal called limit b) = true := by
    apply List.pairwise_mergeSort
    · simpa using fun _ _ _ => le_trans
    · simpa using fun _ _ => le_total _ _
  simpa using hsorted

def lastRecorded (signal called limit : Nat) (l : List AgentTask) : Nat :=
  l.foldl (fun time t => max time (recordedAt signal called limit t)) called

theorem run_eq (tasks : List AgentTask) (signal called limit millisecond : Nat) :
    run tasks signal called limit millisecond =
      let ended := inTime tasks signal called limit
      let running := late tasks signal called limit
      let report := ended.foldl (fun r t => r.count (t.outcome signal (called + limit)))
        { finished := lastRecorded signal called limit ended }
      ⟨if running.isEmpty then report
        else running.foldl (fun r _ => r.count .cancelled)
          { report with timedOut := true, finished := called + limit },
        tasks.flatMap spawned ++ (initiated tasks ++
          ((ended.flatMap fun t => finished t (t.outcome signal (called + limit))) ++
            if running.isEmpty then []
            else expired limit millisecond running.length ++
              running.flatMap fun t => finished t .cancelled))⟩ := by
  have hrunning : tasks.filter (not ∘ fun t => t.endsBefore signal (called + limit)) =
      late tasks signal called limit := rfl
  unfold run shutdown
  simp only [List.partition_eq_filter_filter, recordAll_eq, hrunning]
  cases (late tasks signal called limit).isEmpty <;> rfl

theorem lastRecorded_le {l : List AgentTask}
    (hends : ∀ t ∈ l, t.endTime signal < ↑(called + limit)) :
    lastRecorded signal called limit l ≤ called + limit := by
  refine List.foldlRecOn (motive := (· ≤ called + limit)) l _ (Nat.le_add_right _ _) ?_
  intro time htime t ht
  exact max_le htime (recordedAt_le (hends t ht))

/-- The shutdown when everybody that ends before the deadline is recorded, and these are left. -/
def afterInTime (tasks : List AgentTask) (signal called limit : Nat) (left : List AgentTask) :
    Activity where
  now := lastRecorded signal called limit (inTime tasks signal called limit)
  pending := left
  report := (inTime tasks signal called limit).foldl
    (fun r t => r.count (t.outcome signal (called + limit))) { finished := called }
  told := (start tasks called).told ++
    (inTime tasks signal called limit).flatMap fun t =>
      finished t (t.outcome signal (called + limit))

theorem exists_run_inTime (tasks : List AgentTask) (signal called limit millisecond : Nat) :
    ∃ course left, left.Perm (late tasks signal called limit) ∧
      Run signal called limit millisecond (start tasks called) course
        (afterInTime tasks signal called limit left) :=
  Run.nil.exists_sorted (y := start tasks called) rfl perm_inTime_late le_rfl pairwise_inTime
    (fun _ => endTime_lt_of_mem_inTime) fun _ => le_endTime_of_mem_late

/-- The run is the course that records the tasks in the order in which they end, and then the
others in the order of the list. -/
theorem exists_course_of_run (tasks : List AgentTask) (signal called limit millisecond : Nat) :
    ∃ course x, Run signal called limit millisecond (start tasks called) course x ∧
      x.stage = .returned ∧ x.report = (run tasks signal called limit millisecond).value ∧
      x.told = (run tasks signal called limit millisecond).signals := by
  obtain ⟨early, left, hleft, hearly⟩ :=
    exists_run_inTime tasks signal called limit millisecond
  have hreport := foldl_count_finished (·.outcome signal (called + limit))
    (inTime tasks signal called limit) { finished := called }
    (lastRecorded signal called limit (inTime tasks signal called limit))
  rw [run_eq]
  by_cases hnone : left = []
  · subst hnone
    have hleave := hearly.concat (.leave (by simp [afterInTime]) rfl)
    refine ⟨_, _, hleave, rfl, ?_, ?_⟩
    · simpa [← hleft.nil_eq, afterInTime] using hreport.symm
    · simp [← hleft.nil_eq, afterInTime, start]
  · -- whoever is left is late, so that nothing happens until the deadline
    have hsome : late tasks signal called limit ≠ [] := by
      intro hnil
      rw [hnil] at hleft
      exact hnone hleft.eq_nil
    have hlasts : ∀ t ∈ left, ↑(called + limit) ≤ t.endTime signal :=
      fun t ht => le_endTime_of_mem_late (hleft.mem_iff.mp ht)
    have hlast : lastRecorded signal called limit (inTime tasks signal called limit) ≤
        called + limit :=
      lastRecorded_le fun _ => endTime_lt_of_mem_inTime
    obtain ⟨waits, hwaits⟩ := hearly.exists_until rfl hnone hlast le_rfl hlasts
    obtain ⟨drains, hdrains⟩ := (hwaits.concat (.expire rfl le_rfl)).exists_cancelled rfl hleft
      fun _ => le_endTime_of_mem_late
    refine ⟨_, _, hdrains.concat (.leave (by simp) rfl), rfl, ?_, ?_⟩
    · simp only [afterInTime, List.isEmpty_iff, hsome, if_false, hreport]
      exact (foldl_count_finished (fun _ => .cancelled) _ _ _).symm
    · simp [hsome, afterInTime, start, hleft.length_eq]

end TaskSet
end FlowObserver
