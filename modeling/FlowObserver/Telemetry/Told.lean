import FlowObserver.Telemetry.Signal

/-!
# Values with signals

The result of an activity together with the signals given on the way to it, in order.
-/

namespace FlowObserver

structure Told (α : Type) where
  value : α
  signals : List Signal := []

namespace Told

instance : Monad Told where
  pure a := ⟨a, []⟩
  bind x f := ⟨(f x.value).value, x.signals ++ (f x.value).signals⟩

@[simp] theorem value_pure {α : Type} (a : α) : (pure a : Told α).value = a := rfl

@[simp] theorem value_bind {α β : Type} (x : Told α) (f : α → Told β) :
    (x >>= f).value = (f x.value).value := rfl

/-- The value of a told fold is the fold of the values. -/
theorem value_foldlM {σ α : Type} (f : σ → α → Told σ) (s : σ) (items : List α) :
    (items.foldlM f s).value = items.foldl (fun s a => (f s a).value) s := by
  induction items generalizing s with
  | nil => rfl
  | cons a rest ih => exact ih (f s a).value

end Told

def tell (signals : List Signal) : Told Unit := ⟨(), signals⟩

end FlowObserver
