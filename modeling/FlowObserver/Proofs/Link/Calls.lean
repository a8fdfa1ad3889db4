import FlowObserver.Link.Controller
import Mathlib.Tactic

/-!
# What the kernel and the controller do to one hook

Each call of the kernel and each operation on a single hook in equations. A call that is refused is
logged and does nothing else. Detaching is the one call that is taken not to be refused.
-/

namespace FlowObserver
namespace Kernel

variable (k : Kernel) (hook other : Hook)

def logged (k : Kernel) (c : KernelCall) : Kernel := { k with calls := k.calls ++ [c] }

def Refuses (k : Kernel) (c : KernelCall) : Prop := k.refuses k.calls.length c = true

instance (c : KernelCall) : Decidable (k.Refuses c) := inferInstanceAs (Decidable (_ = true))

/-- No detaching is ever refused. -/
def Detaches (k : Kernel) : Prop := ∀ n hook, k.refuses n (.detach hook) = false

@[simp] theorem filtersOn_logged (c : KernelCall) :
    (k.logged c).filtersOn hook = k.filtersOn hook := rfl

theorem filtersOn_setFilters (filters : List FilterId) :
    (k.setFilters hook filters).filtersOn other =
      if other = hook then filters else k.filtersOn other := by
  rw [filtersOn, setFilters, Table.find?_insert]
  split_ifs <;> rfl

theorem call_eq (c : KernelCall) :
    k.call c = (if k.Refuses c then .error (c.failure "refused") else .ok (), k.logged c) := rfl

theorem prepare_eq (interface : String) :
    k.prepare interface =
      (if k.Refuses (.prepare interface) then
          .error ((KernelCall.prepare interface).failure "refused")
        else .ok (), k.logged (.prepare interface)) := rfl

theorem purge_eq :
    k.purge hook =
      if k.Refuses (.purge hook) then
        (.error ((KernelCall.purge hook).failure "refused"), k.logged (.purge hook))
      else (.ok (), (k.logged (.purge hook)).setFilters hook []) := by
  rw [purge, call_eq]
  split_ifs <;> rfl

theorem attach_eq :
    k.attach hook =
      if k.Refuses (.attach hook) then
        (.error ((KernelCall.attach hook).failure "refused"), k.logged (.attach hook))
      else (.ok k.nextFilter,
        { (k.logged (.attach hook)).setFilters hook (k.filtersOn hook ++ [k.nextFilter]) with
          nextFilter := k.nextFilter + 1 }) := by
  rw [attach, call_eq]
  split_ifs <;> rfl

theorem detach_eq (hk : k.Detaches) {id : FilterId} (hid : id ∈ k.filtersOn hook) :
    k.detach hook id =
      (.ok (), (k.logged (.detach hook)).setFilters hook
        ((k.filtersOn hook).filter (· ≠ id))) := by
  have haccepted : ¬k.Refuses (.detach hook) := by
    rw [Refuses, hk]
    exact Bool.false_ne_true
  rw [detach, call_eq, if_neg haccepted]
  dsimp only
  rw [if_pos (by simpa using hid)]
  rfl

end Kernel

namespace LinkController

variable (c : LinkController) (hook : Hook)

theorem detachHook_of_untracked (h : c.tracked.find? hook = none) :
    (c.detachHook hook).value = (false, c) := by
  rw [detachHook, h]
  rfl

/-- Where the tracked filter is the only one on its hook, detaching empties the hook. -/
theorem detachHook_of_tracked (hk : c.kernel.Detaches) {id : FilterId}
    (h : c.tracked.find? hook = some id) (hfilters : c.kernel.filtersOn hook = [id]) :
    (c.detachHook hook).value =
      (true, { c with
        kernel := (c.kernel.logged (.detach hook)).setFilters hook []
        tracked := c.tracked.erase hook }) := by
  have hdetach := c.kernel.detach_eq hook hk (hfilters ▸ List.mem_singleton_self id)
  rw [hfilters] at hdetach
  rw [detachHook, h]
  dsimp only
  rw [hdetach]
  simp

/-- Purging and attaching on a hook that is not tracked. -/
def renewHook (c : LinkController) (hook : Hook) : Except LinkError Unit × LinkController :=
  match c.kernel.purge hook with
  | (.error e, kernel) => (.error e, { c with kernel })
  | (.ok _, kernel) =>
    match kernel.attach hook with
    | (.error e, kernel) => (.error e, { c with kernel })
    | (.ok id, kernel) => (.ok (), { c with kernel, tracked := c.tracked.insert hook id })

theorem value_attachHook :
    (c.attachHook hook).value = (c.detachHook hook).value.2.renewHook hook := by
  rw [attachHook, Told.value_bind]
  generalize (c.detachHook hook).value = detached
  obtain ⟨clean, c⟩ := detached
  rw [renewHook]
  dsimp only
  cases hpurge : c.kernel.purge hook with
  | mk purged kernel =>
    cases purged with
    | error e => rfl
    | ok _ =>
      dsimp only
      cases kernel.attach hook with
      | mk attached kernel => cases attached <;> rfl

end LinkController
end FlowObserver
