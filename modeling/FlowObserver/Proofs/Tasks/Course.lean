import FlowObserver.Agent.Tasks
import Mathlib

/-!
# A shutdown under way

A shutdown waits in a loop for whoever ends next, or for its deadline. Tasks that have ended are
recorded in any order, and time goes on only while there is nobody to be recorded. At the deadline
the others are cancelled, and recorded in any order as well; one that has ended by then keeps the
outcome that it has.

Only the order of what is told is left open by this: however the loop proceeds, each task is
recorded with one and the same outcome, and the end comes at one and the same time.
-/

namespace FlowObserver

namespace AgentTask

/-- When the task ends if nobody cancels it, which may be never. -/
def endTime (signal : Nat) (t : AgentTask) : ℕ∞ :=
  match t.end? signal with
  | some time => time
  | none => ⊤

def ownOutcome (t : AgentTask) : TaskOutcome := if t.panics then .panicked else .completed

variable {t : AgentTask} {signal deadline : Nat}

theorem endsBefore_iff : t.endsBefore signal deadline ↔ t.endTime signal < deadline := by
  rw [endsBefore, endTime]
  cases t.end? signal with
  | none => simp
  | some time => simp

theorem endTime_ne (h : t.end? signal ≠ some deadline) : t.endTime signal ≠ deadline := by
  rw [endTime]
  cases ht : t.end? signal with
  | none => simp
  | some time => simpa [ht] using h

theorem outcome_of_lt (h : t.endTime signal < deadline) :
    t.outcome signal deadline = t.ownOutcome := by
  rw [outcome, if_pos (endsBefore_iff.mpr h), ownOutcome]

theorem outcome_eq_completed_iff : t.outcome signal deadline = .completed ↔
    t.endTime signal < deadline ∧ t.panics = false := by
  rw [outcome, ← endsBefore_iff]
  cases t.endsBefore signal deadline <;> cases t.panics <;> simp

theorem outcome_eq_panicked_iff : t.outcome signal deadline = .panicked ↔
    t.endTime signal < deadline ∧ t.panics = true := by
  rw [outcome, ← endsBefore_iff]
  cases t.endsBefore signal deadline <;> cases t.panics <;> simp

theorem outcome_eq_cancelled_iff :
    t.outcome signal deadline = .cancelled ↔ ¬ t.endTime signal < deadline := by
  rw [outcome, ← endsBefore_iff]
  cases t.endsBefore signal deadline <;> cases t.panics <;> simp

end AgentTask

namespace ShutdownReport

/-- How many tasks had this outcome. -/
def number (r : ShutdownReport) : TaskOutcome → Nat
  | .completed => r.completed
  | .panicked => r.panicked
  | .cancelled => r.cancelled

theorem number_count (r : ShutdownReport) (o other : TaskOutcome) :
    (r.count o).number other = r.number other + if o = other then 1 else 0 := by
  cases o <;> cases other <;> rfl

/-- Neither is a number of tasks. -/
theorem number_with (r : ShutdownReport) (timedOut : Bool) (finished : Nat) (o : TaskOutcome) :
    ({ r with timedOut, finished } : ShutdownReport).number o = r.number o := by
  cases o <;> rfl

@[simp] theorem timedOut_count (r : ShutdownReport) (o : TaskOutcome) :
    (r.count o).timedOut = r.timedOut := by
  cases o <;> rfl

end ShutdownReport

namespace TaskSet

inductive Stage where
  | waiting
  | cancelling
  | returned
  deriving DecidableEq

structure Activity where
  now : Nat
  pending : List AgentTask
  report : ShutdownReport
  told : List Signal
  stage : Stage := .waiting

inductive Step where
  | pass
  | record (t : AgentTask) (o : TaskOutcome)
  | expire
  | leave

def start (tasks : List AgentTask) (called : Nat) : Activity where
  now := called
  pending := tasks
  report := { finished := called }
  told := tasks.flatMap spawned ++ initiated tasks

@[simp] theorem value_record (r : ShutdownReport) (t : AgentTask) (o : TaskOutcome) :
    (record r t o).value = r.count o := rfl

@[simp] theorem signals_record (r : ShutdownReport) (t : AgentTask) (o : TaskOutcome) :
    (record r t o).signals = finished t o :=
  List.append_nil _

def Activity.recording (x : Activity) (t : AgentTask) (o : TaskOutcome) : Activity :=
  { x with
    pending := x.pending.erase t
    report := (record x.report t o).value
    told := x.told ++ (record x.report t o).signals }

theorem Activity.recording_eq (x : Activity) (t : AgentTask) (o : TaskOutcome) :
    x.recording t o =
      { x with
        pending := x.pending.erase t
        report := x.report.count o
        told := x.told ++ finished t o } := by
  rw [recording, value_record, signals_record]

/-- What a step makes of the shutdown that it is taken in. -/
inductive Move (signal called limit millisecond : Nat) (x : Activity) : Step → Activity → Prop where
  | pass (hstage : x.stage = .waiting) (hpending : x.pending ≠ []) (hnow : x.now < called + limit)
    (hnone : ∀ t ∈ x.pending, x.now < t.endTime signal) :
    Move signal called limit millisecond x .pass { x with now := x.now + 1 }
  | take {t : AgentTask} (hstage : x.stage = .waiting) (ht : t ∈ x.pending)
    (hended : t.endTime signal ≤ x.now) :
    Move signal called limit millisecond x (.record t t.ownOutcome) (x.recording t t.ownOutcome)
  | expire (hstage : x.stage = .waiting) (hnow : called + limit ≤ x.now) :
    Move signal called limit millisecond x .expire
      { x with
        stage := .cancelling
        report := { x.report with timedOut := true }
        told := x.told ++ expired limit millisecond x.pending.length }
  /-- Cancelling does nothing to a task that has ended. -/
  | drain {t : AgentTask} {o : TaskOutcome} (hstage : x.stage = .cancelling) (ht : t ∈ x.pending)
    (ho : t.endTime signal ≤ x.now ∧ o = t.ownOutcome ∨
      x.now ≤ t.endTime signal ∧ o = .cancelled) :
    Move signal called limit millisecond x (.record t o) (x.recording t o)
  | leave (hstage : x.stage ≠ .returned) (hpending : x.pending = []) :
    Move signal called limit millisecond x .leave
      { x with stage := .returned, report := { x.report with finished := x.now } }

inductive Run (signal called limit millisecond : Nat) (x : Activity) :
    List Step → Activity → Prop where
  | nil : Run signal called limit millisecond x [] x
  | concat {course : List Step} {y z : Activity} {s : Step}
    (hrun : Run signal called limit millisecond x course y)
    (hmove : Move signal called limit millisecond y s z) :
    Run signal called limit millisecond x (course ++ [s]) z

variable {tasks : List AgentTask} {signal called limit millisecond : Nat}

section
variable {x y : Activity} {course : List Step} {s : Step}

/-- A bound on the steps that are left. -/
def Activity.left (x : Activity) (deadline : Nat) : Nat :=
  match x.stage with
  | .waiting => deadline - x.now + x.pending.length + 2
  | .cancelling => x.pending.length + 1
  | .returned => 0

end

noncomputable def lastEnd (signal : Nat) (tasks : List AgentTask) : ℕ∞ :=
  ⨆ t ∈ tasks, t.endTime signal

theorem lastEnd_le_iff {time : ℕ∞} :
    lastEnd signal tasks ≤ time ↔ ∀ t ∈ tasks, t.endTime signal ≤ time :=
  iSup₂_le_iff

theorem endTime_le_lastEnd {t : AgentTask} (ht : t ∈ tasks) :
    t.endTime signal ≤ lastEnd signal tasks :=
  lastEnd_le_iff.mp le_rfl t ht

/-- What is told until these tasks are recorded. -/
def account (tasks : List AgentTask) (signal called limit millisecond : Nat)
    (recorded : List AgentTask) (timedOut : Bool) : List Signal :=
  tasks.flatMap spawned ++ initiated tasks ++
    (if timedOut then
      expired limit millisecond (tasks.countP fun t => !t.endsBefore signal (called + limit))
    else []) ++
    recorded.flatMap fun t => finished t (t.outcome signal (called + limit))

/-- Where the shutdown stands once these tasks are recorded. -/
structure Accounts (tasks : List AgentTask) (signal called limit millisecond : Nat)
    (recorded : List AgentTask) (x : Activity) : Prop where
  perm : tasks.Perm (recorded ++ x.pending)
  number : ∀ o, x.report.number o =
    recorded.countP fun t => decide (t.outcome signal (called + limit) = o)
  told : x.told.Perm
    (account tasks signal called limit millisecond recorded x.report.timedOut)
  called_le : called ≤ x.now
  now_le : x.now ≤ called + limit
  now_le_lastEnd : (x.now : ℕ∞) ≤ max ↑called (lastEnd signal tasks)
  /-- The deadline is reached only if there is somebody to wait for. -/
  late : x.now = called + limit → ∃ t ∈ tasks, ↑(called + limit) < t.endTime signal
  pending : x.now = called + limit → ∀ t ∈ x.pending, ↑(called + limit) < t.endTime signal
  prompt : x.report.timedOut = false → ∀ t ∈ recorded, t.endTime signal ≤ x.now
  timedOut : x.report.timedOut = true → x.now = called + limit
  waiting : x.stage = .waiting → x.report.timedOut = false
  cancelling : x.stage = .cancelling → x.report.timedOut = true
  returned : x.stage = .returned → x.pending = [] ∧ x.report.finished = x.now

theorem accounts_start (hlimit : 0 < limit) :
    Accounts tasks signal called limit millisecond [] (start tasks called) where
  perm := .refl _
  number o := by cases o <;> rfl
  told := by simp [start, account]
  called_le := le_rfl
  now_le := Nat.le_add_right _ _
  now_le_lastEnd := le_max_left _ _
  late h := absurd h (Nat.lt_add_of_pos_right hlimit).ne
  pending h := absurd h (Nat.lt_add_of_pos_right hlimit).ne
  prompt _ t ht := by cases ht
  timedOut := nofun
  waiting _ := rfl
  cancelling := nofun
  returned := nofun

section
variable {x y : Activity} {recorded : List AgentTask} {course : List Step} {s : Step}

theorem Accounts.mem_tasks_of_pending
    (hx : Accounts tasks signal called limit millisecond recorded x) {t : AgentTask}
    (ht : t ∈ x.pending) : t ∈ tasks :=
  hx.perm.mem_iff.mpr (List.mem_append_right _ ht)

theorem Accounts.recording (hx : Accounts tasks signal called limit millisecond recorded x)
    {t : AgentTask} {o : TaskOutcome} (hstage : x.stage ≠ .returned) (ht : t ∈ x.pending)
    (ho : o = t.outcome signal (called + limit))
    (hprompt : x.report.timedOut = false → t.endTime signal ≤ x.now) :
    Accounts tasks signal called limit millisecond (recorded ++ [t]) (x.recording t o) := by
  subst ho
  rw [Activity.recording_eq]
  have htimedOut := ShutdownReport.timedOut_count x.report (t.outcome signal (called + limit))
  exact {
    hx with
    perm := by
      have hcons : x.pending.Perm (t :: x.pending.erase t) := List.perm_cons_erase ht
      simpa using hx.perm.trans (hcons.append_left recorded)
    number := by
      intro other
      simp [ShutdownReport.number_count, List.countP_append, List.countP_singleton,
        hx.number other]
    told := by
      simpa [account] using
        hx.told.append_right (finished t (t.outcome signal (called + limit)))
    pending := fun hnow other hother => hx.pending hnow other (List.mem_of_mem_erase hother)
    prompt := by
      intro hopen other hother
      rw [htimedOut] at hopen
      rcases List.mem_append.mp hother with hother | hother
      · exact hx.prompt hopen other hother
      · rw [List.mem_singleton.mp hother]
        exact hprompt hopen
    timedOut := fun hout => hx.timedOut (htimedOut ▸ hout)
    waiting := fun h => htimedOut.trans (hx.waiting h)
    cancelling := fun h => htimedOut.trans (hx.cancelling h)
    returned := fun h => absurd h hstage }

theorem Accounts.pass (hx : Accounts tasks signal called limit millisecond recorded x)
    (hties : ∀ t ∈ tasks, t.end? signal ≠ some (called + limit)) (hstage : x.stage = .waiting)
    (hpending : x.pending ≠ []) (hnow : x.now < called + limit)
    (hnone : ∀ t ∈ x.pending, x.now < t.endTime signal) :
    Accounts tasks signal called limit millisecond recorded { x with now := x.now + 1 } := by
  have hlasts : ∀ t ∈ x.pending, ((x.now + 1 : Nat) : ℕ∞) ≤ t.endTime signal := by
    intro t ht
    rw [Nat.cast_add, Nat.cast_one]
    exact Order.add_one_le_of_lt (hnone t ht)
  have hafter : x.now + 1 = called + limit →
      ∀ t ∈ x.pending, ↑(called + limit) < t.endTime signal := by
    intro hreached t ht
    have hle := hlasts t ht
    rw [hreached] at hle
    exact lt_of_le_of_ne hle (AgentTask.endTime_ne (hties t (hx.mem_tasks_of_pending ht))).symm
  obtain ⟨t, ht⟩ := List.exists_mem_of_ne_nil _ hpending
  have hmem := hx.mem_tasks_of_pending ht
  exact {
    hx with
    called_le := hx.called_le.trans (Nat.le_succ _)
    now_le := hnow
    now_le_lastEnd := ((hlasts t ht).trans (endTime_le_lastEnd hmem)).trans (le_max_right _ _)
    late := fun hreached => ⟨t, hmem, hafter hreached t ht⟩
    pending := hafter
    prompt := fun hopen t ht =>
      (hx.prompt hopen t ht).trans (Nat.cast_le.mpr (Nat.le_succ _))
    timedOut := fun hout => absurd hout (by simp [hx.waiting hstage])
    returned := fun hreturned => by simp [hstage] at hreturned }

/-- Whoever ends, by the deadline or at any time before it, ends before it. -/
theorem endTime_lt_of_le (hties : ∀ t ∈ tasks, t.end? signal ≠ some (called + limit))
    {t : AgentTask} (ht : t ∈ tasks) {now : Nat} (hnow : now ≤ called + limit)
    (hended : t.endTime signal ≤ now) : t.endTime signal < ↑(called + limit) :=
  lt_of_le_of_ne (hended.trans (Nat.cast_le.mpr hnow)) (AgentTask.endTime_ne (hties t ht))

theorem Accounts.take (hx : Accounts tasks signal called limit millisecond recorded x)
    (hties : ∀ t ∈ tasks, t.end? signal ≠ some (called + limit)) (hstage : x.stage = .waiting)
    {t : AgentTask} (ht : t ∈ x.pending) (hended : t.endTime signal ≤ x.now) :
    Accounts tasks signal called limit millisecond (recorded ++ [t])
      (x.recording t t.ownOutcome) := by
  have hlt := endTime_lt_of_le hties (hx.mem_tasks_of_pending ht) hx.now_le hended
  exact hx.recording (by simp [hstage]) ht (AgentTask.outcome_of_lt hlt).symm fun _ => hended

theorem Accounts.expire (hx : Accounts tasks signal called limit millisecond recorded x)
    (hties : ∀ t ∈ tasks, t.end? signal ≠ some (called + limit)) (hstage : x.stage = .waiting)
    (hnow : called + limit ≤ x.now) :
    Accounts tasks signal called limit millisecond recorded
      { x with
        stage := .cancelling
        report := { x.report with timedOut := true }
        told := x.told ++ expired limit millisecond x.pending.length } := by
  have hopen := hx.waiting hstage
  have hreached : x.now = called + limit := hx.now_le.antisymm hnow
  have hremaining : x.pending.length =
      tasks.countP fun t => !t.endsBefore signal (called + limit) := by
    have hrecorded : recorded.countP (fun t => !t.endsBefore signal (called + limit)) = 0 := by
      rw [List.countP_eq_zero]
      intro t ht
      have hmem := hx.perm.mem_iff.mpr (List.mem_append_left _ ht)
      have hlt := endTime_lt_of_le hties hmem hx.now_le (hx.prompt hopen t ht)
      simpa [AgentTask.endsBefore_iff] using hlt
    have hlate : x.pending.countP (fun t => !t.endsBefore signal (called + limit)) =
        x.pending.length := by
      rw [List.countP_eq_length]
      intro t ht
      have hlt := hx.pending hreached t ht
      simpa [← Bool.not_eq_true, AgentTask.endsBefore_iff] using hlt.le
    rw [hx.perm.countP_eq, List.countP_append, hrecorded, hlate, Nat.zero_add]
  exact {
    hx with
    number := fun o => (ShutdownReport.number_with _ _ _ o).trans (hx.number o)
    told := by
      have htold := hx.told.append_right (expired limit millisecond x.pending.length)
      simp only [account, hopen, Bool.false_eq_true, if_false, List.append_nil] at htold
      rw [account, if_pos rfl, ← hremaining]
      refine htold.trans ?_
      simp only [List.append_assoc]
      exact (List.perm_append_comm.append_left _).append_left _
    prompt := nofun
    timedOut := fun _ => hreached
    waiting := nofun
    cancelling := fun _ => rfl
    returned := nofun }

theorem Accounts.drain (hx : Accounts tasks signal called limit millisecond recorded x)
    (hstage : x.stage = .cancelling) {t : AgentTask} {o : TaskOutcome} (ht : t ∈ x.pending)
    (ho : t.endTime signal ≤ x.now ∧ o = t.ownOutcome ∨
      x.now ≤ t.endTime signal ∧ o = .cancelled) :
    Accounts tasks signal called limit millisecond (recorded ++ [t]) (x.recording t o) := by
  have hout := hx.cancelling hstage
  have hreached := hx.timedOut hout
  have hlasts := hx.pending hreached t ht
  have hoi : o = t.outcome signal (called + limit) := by
    rcases ho with ⟨hended, -⟩ | ⟨-, rfl⟩
    · rw [hreached] at hended
      exact absurd hlasts hended.not_gt
    · exact (AgentTask.outcome_eq_cancelled_iff.mpr hlasts.le.not_gt).symm
  exact hx.recording (by simp [hstage]) ht hoi fun hopen => by simp [hout] at hopen

theorem Accounts.leave (hx : Accounts tasks signal called limit millisecond recorded x)
    (hpending : x.pending = []) :
    Accounts tasks signal called limit millisecond recorded
      { x with stage := .returned, report := { x.report with finished := x.now } } :=
  { hx with
    number := fun o => (ShutdownReport.number_with _ _ _ o).trans (hx.number o)
    waiting := nofun
    cancelling := nofun
    returned := fun _ => ⟨hpending, rfl⟩ }

theorem Accounts.step (hx : Accounts tasks signal called limit millisecond recorded x)
    (hties : ∀ t ∈ tasks, t.end? signal ≠ some (called + limit))
    (hmove : Move signal called limit millisecond x s y) :
    ∃ later, Accounts tasks signal called limit millisecond later y := by
  cases hmove with
  | pass hstage hpending hnow hnone => exact ⟨_, hx.pass hties hstage hpending hnow hnone⟩
  | take hstage ht hended => exact ⟨_, hx.take hties hstage ht hended⟩
  | expire hstage hnow => exact ⟨_, hx.expire hties hstage hnow⟩
  | drain hstage ht ho => exact ⟨_, hx.drain hstage ht ho⟩
  | leave _ hpending => exact ⟨_, hx.leave hpending⟩

theorem Run.accounts (hrun : Run signal called limit millisecond (start tasks called) course x)
    (hlimit : 0 < limit) (hties : ∀ t ∈ tasks, t.end? signal ≠ some (called + limit)) :
    ∃ recorded, Accounts tasks signal called limit millisecond recorded x := by
  induction hrun with
  | nil => exact ⟨[], accounts_start hlimit⟩
  | concat _ hmove ih =>
    obtain ⟨recorded, hx⟩ := ih
    exact hx.step hties hmove

end

end TaskSet
end FlowObserver
