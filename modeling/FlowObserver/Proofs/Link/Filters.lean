import FlowObserver.Proofs.Link.Calls

/-!
# Filters and tracking agree

A tracked hook carries the tracked filter and no other. A hook that is not tracked carries nothing
but what was there before the controller began. Whatever calls the kernel refuses, every operation
keeps both, so that no filter is ever left behind; and a shutdown takes all of them off.
-/

namespace FlowObserver

theorem Table.size_eq_zero_iff {κ ν : Type} [DecidableEq κ] (t : Table κ ν) :
    t.size = 0 ↔ ∀ k, t.find? k = none := by
  simp only [find?_eq_none_iff]
  rw [← List.eq_nil_iff_forall_not_mem, keys, List.map_eq_nil_iff, size, List.length_eq_zero_iff]

namespace LinkController

/-- Tracking agrees with the kernel, where `before` is the kernel that the controller began with. -/
structure Sound (c : LinkController) (before : Kernel) : Prop where
  detaches : c.kernel.Detaches
  tracked : ∀ hook id, c.tracked.find? hook = some id → c.kernel.filtersOn hook = [id]
  untracked : ∀ hook, c.tracked.find? hook = none →
    (c.kernel.filtersOn hook).Sublist (before.filtersOn hook)

variable {c : LinkController} {before : Kernel}

theorem sound_start (selects : Link → Bool) (k : Kernel) (hk : k.Detaches) :
    ({ selects, kernel := k } : LinkController).Sound k where
  detaches := hk
  tracked := by simp
  untracked := fun _ _ => List.Sublist.refl _

theorem Sound.logged (hc : c.Sound before) (call : KernelCall) :
    ({ c with kernel := c.kernel.logged call } : LinkController).Sound before :=
  ⟨hc.detaches, hc.tracked, hc.untracked⟩

/-- The hook is emptied and not tracked any more; it was detached if it was tracked. -/
theorem Sound.detachHook (hc : c.Sound before) (hook : Hook) :
    (c.detachHook hook).value.2.Sound before ∧
      (c.detachHook hook).value.1 = (c.tracked.find? hook).isSome ∧
      ∀ other, (c.detachHook hook).value.2.tracked.find? other =
        if other = hook then none else c.tracked.find? other := by
  cases h : c.tracked.find? hook with
  | none =>
    rw [c.detachHook_of_untracked hook h]
    refine ⟨hc, rfl, fun other => ?_⟩
    split_ifs with hother
    · rw [hother, h]
    · rfl
  | some id =>
    rw [c.detachHook_of_tracked hook hc.detaches h (hc.tracked hook id h)]
    refine ⟨⟨hc.detaches, ?_, ?_⟩, rfl, fun other => Table.find?_erase _ _ _⟩
    · intro other id' hother
      rw [Table.find?_erase] at hother
      split_ifs at hother with hne
      rw [Kernel.filtersOn_setFilters, if_neg hne]
      exact hc.tracked other id' hother
    · intro other hother
      rw [Table.find?_erase] at hother
      rw [Kernel.filtersOn_setFilters]
      split_ifs at hother ⊢
      · exact List.nil_sublist _
      · exact hc.untracked other hother

theorem Sound.renewHook (hc : c.Sound before) {hook : Hook} (h : c.tracked.find? hook = none) :
    (c.renewHook hook).2.Sound before := by
  rw [LinkController.renewHook, Kernel.purge_eq]
  split_ifs with hpurge
  · exact hc.logged _
  · dsimp only
    -- the hook is empty now, whatever comes next
    have hempty : ({ c with kernel := (c.kernel.logged (.purge hook)).setFilters hook [] } :
        LinkController).Sound before := by
      refine ⟨hc.detaches, ?_, ?_⟩
      · intro other id hother
        have hne : other ≠ hook := by
          rintro rfl
          rw [h] at hother
          cases hother
        rw [Kernel.filtersOn_setFilters, if_neg hne]
        exact hc.tracked other id hother
      · intro other hother
        rw [Kernel.filtersOn_setFilters]
        split_ifs
        · exact List.nil_sublist _
        · exact hc.untracked other hother
    have hnil : ((c.kernel.logged (.purge hook)).setFilters hook []).filtersOn hook = [] := by
      rw [Kernel.filtersOn_setFilters, if_pos rfl]
    generalize (c.kernel.logged (.purge hook)).setFilters hook [] = k at hempty hnil ⊢
    rw [Kernel.attach_eq]
    split_ifs with hattach
    · exact hempty.logged _
    · dsimp only
      refine ⟨hempty.detaches, ?_, ?_⟩
      · intro other id hother
        rw [Table.find?_insert] at hother
        change ((k.logged (.attach hook)).setFilters hook _).filtersOn other = [id]
        rw [Kernel.filtersOn_setFilters, hnil]
        split_ifs at hother ⊢
        · cases hother
          rfl
        · exact hempty.tracked other id hother
      · intro other hother
        rw [Table.find?_insert] at hother
        split_ifs at hother with hne
        change (((k.logged (.attach hook)).setFilters hook _).filtersOn other).Sublist _
        rw [Kernel.filtersOn_setFilters, if_neg hne]
        exact hempty.untracked other hother

theorem Sound.attachHook (hc : c.Sound before) (hook : Hook) :
    (c.attachHook hook).value.2.Sound before := by
  obtain ⟨hdetached, -, htracked⟩ := hc.detachHook hook
  rw [value_attachHook]
  apply hdetached.renewHook
  rw [htracked, if_pos rfl]

theorem Sound.detachHooks (hc : c.Sound before) (hooks : List Hook) :
    (c.detachHooks hooks).value.Sound before := by
  rw [LinkController.detachHooks, Told.value_foldlM]
  induction hooks generalizing c with
  | nil => exact hc
  | cons hook rest ih => exact ih (hc.detachHook hook).1

theorem Sound.attachHooks (hc : c.Sound before) (done hooks : List Hook) :
    (c.attachHooks done hooks).value.2.Sound before := by
  induction hooks generalizing c done with
  | nil => exact hc
  | cons hook rest ih =>
    have hattached := hc.attachHook hook
    rw [LinkController.attachHooks, Told.value_bind]
    generalize (c.attachHook hook).value = attached at hattached ⊢
    obtain ⟨result, c⟩ := attached
    cases result with
    | ok _ => exact ih hattached (done ++ [hook])
    | error e => exact hattached.detachHooks done

theorem Sound.attach (hc : c.Sound before) (interface : String) :
    (c.attach interface).value.2.Sound before := by
  rw [LinkController.attach, Kernel.prepare_eq]
  have hlogged := hc.logged (.prepare interface)
  split_ifs with hprepare
  · exact hlogged
  · have hattached := hlogged.attachHooks [] (hooksOf interface)
    dsimp only
    rw [Told.value_bind]
    generalize (LinkController.attachHooks _ [] (hooksOf interface)).value = attached
      at hattached ⊢
    obtain ⟨result, c⟩ := attached
    cases result <;> exact hattached

theorem Sound.detach (hc : c.Sound before) (interface : String) :
    (c.detach interface).value.2.Sound before := by
  have hdetached := hc.detachHooks (hooksOf interface)
  rw [LinkController.detach, Told.value_bind]
  cases c.isActive interface <;> exact hdetached

theorem value_attachOrSkip (c : LinkController) (link : Link) :
    (c.attachOrSkip link).value =
      ((c.attach link.name).value.1.isOk, (c.attach link.name).value.2) := by
  rw [attachOrSkip, Told.value_bind]
  obtain ⟨result, later⟩ := (c.attach link.name).value
  cases result <;> rfl

theorem Sound.attachOrSkip (hc : c.Sound before) (link : Link) :
    (c.attachOrSkip link).value.2.Sound before := by
  rw [value_attachOrSkip]
  exact hc.attach link.name

def attachNext (x : Nat × LinkController) (link : Link) : Nat × LinkController :=
  (if (x.2.attachOrSkip link).value.1 then x.1 + 1 else x.1, (x.2.attachOrSkip link).value.2)

theorem value_attachSelected (c : LinkController) (candidates : List Link) :
    (c.attachSelected candidates).value =
      let selected := candidates.filter c.selects
      let x := selected.foldl attachNext (0, c)
      (if x.1 = 0 then .error (.noneAttached selected.length) else .ok x.1, x.2) := by
  rw [attachSelected, Told.value_bind, Told.value_bind, Told.value_foldlM]
  generalize hx : List.foldl _ _ _ = x
  change List.foldl attachNext (0, c) _ = x at hx
  dsimp only
  rw [hx]
  obtain ⟨n, c'⟩ := x
  dsimp only
  split_ifs <;> rfl

theorem Sound.attachSelected (hc : c.Sound before) (candidates : List Link) :
    (c.attachSelected candidates).value.2.Sound before := by
  rw [value_attachSelected]
  exact List.foldlRecOn (motive := fun x : Nat × LinkController => x.2.Sound before) _ _ hc
    fun x hx link _ => hx.attachOrSkip link

theorem Sound.reconcile (hc : c.Sound before) (change : LinkChange) :
    (c.reconcile change).value.Sound before := by
  cases change with
  | up link =>
    rw [LinkController.reconcile]
    split_ifs
    · exact hc
    · have hattached := hc.attach link.name
      rw [Told.value_bind, Told.value_bind]
      generalize (c.attach link.name).value = attached at hattached ⊢
      obtain ⟨result, c⟩ := attached
      cases result <;> exact hattached
  | down name =>
    have hdetached := hc.detach name
    rw [LinkController.reconcile, Told.value_bind]
    generalize (c.detach name).value = detached at hdetached ⊢
    obtain ⟨active, c⟩ := detached
    cases active <;> exact hdetached

/-- Detaches one more hook; counts what was detached cleanly. -/
def detachNext (x : Nat × LinkController) (hook : Hook) : Nat × LinkController :=
  (if (x.2.detachHook hook).value.1 then x.1 + 1 else x.1, (x.2.detachHook hook).value.2)

theorem value_shutdown (c : LinkController) :
    c.shutdown.value = c.attachments.foldl detachNext (0, c) := by
  rw [shutdown, Told.value_bind, Told.value_foldlM]
  generalize hx : List.foldl _ _ _ = x
  change List.foldl detachNext (0, c) _ = x at hx
  rw [hx]
  obtain ⟨n, c'⟩ := x
  dsimp only [Told.value_bind]
  split_ifs <;> rfl

theorem Sound.foldl_detachNext {x : Nat × LinkController} (hx : x.2.Sound before)
    (hooks : List Hook) (hnodup : hooks.Nodup)
    (htracked : ∀ hook ∈ hooks, x.2.tracked.find? hook ≠ none) :
    (hooks.foldl detachNext x).2.Sound before ∧
      (hooks.foldl detachNext x).1 = x.1 + hooks.length ∧
      ∀ other, (hooks.foldl detachNext x).2.tracked.find? other =
        if other ∈ hooks then none else x.2.tracked.find? other := by
  induction hooks generalizing x with
  | nil => exact ⟨hx, rfl, fun other => (if_neg List.not_mem_nil).symm⟩
  | cons hook rest ih =>
    obtain ⟨hnot, hrest⟩ := List.nodup_cons.mp hnodup
    obtain ⟨hdetached, hclean, hfind⟩ := hx.detachHook hook
    have hcount : (detachNext x hook).1 = x.1 + 1 := by
      have hwas := htracked hook List.mem_cons_self
      rw [← Option.isSome_iff_ne_none, ← hclean] at hwas
      exact if_pos hwas
    have hstill : ∀ other ∈ rest, (detachNext x hook).2.tracked.find? other ≠ none := by
      intro other hother
      have hne : other ≠ hook := fun h => hnot (h ▸ hother)
      rw [detachNext, hfind, if_neg hne]
      exact htracked other (List.mem_cons_of_mem _ hother)
    obtain ⟨hsound, hlength, hlater⟩ := ih hdetached hrest hstill
    refine ⟨hsound, ?_, fun other => ?_⟩
    · rw [List.foldl_cons, hlength, hcount, List.length_cons]
      exact Nat.add_right_comm _ _ _
    · rw [List.foldl_cons, hlater, detachNext, hfind]
      by_cases hother : other = hook <;> simp [hother]

theorem mem_attachments_iff (c : LinkController) (hook : Hook) :
    hook ∈ c.attachments ↔ c.tracked.find? hook ≠ none := by
  rw [attachments, List.mem_mergeSort, ne_eq, Table.find?_eq_none_iff, not_not]

theorem nodup_attachments (c : LinkController) : c.attachments.Nodup :=
  (List.mergeSort_perm _ _).nodup_iff.mpr c.tracked.nodup

theorem Sound.shutdown (hc : c.Sound before) :
    c.shutdown.value.2.Sound before ∧ c.shutdown.value.1 = c.tracked.size ∧
      c.shutdown.value.2.tracked.size = 0 := by
  obtain ⟨hsound, hcount, hfind⟩ := Sound.foldl_detachNext (x := (0, c)) hc c.attachments
    c.nodup_attachments fun hook hhook => (c.mem_attachments_iff hook).mp hhook
  rw [value_shutdown]
  refine ⟨hsound, ?_, ?_⟩
  · rw [hcount, Nat.zero_add, attachments, List.length_mergeSort, Table.keys, List.length_map,
      Table.size]
  · rw [Table.size_eq_zero_iff]
    intro hook
    rw [hfind]
    split_ifs with hhook
    · rfl
    · exact not_not.mp (mt (c.mem_attachments_iff hook).mpr hhook)

inductive Operation where
  | attach (interface : String)
  | detach (interface : String)
  | attachSelected (candidates : List Link)
  | reconcile (change : LinkChange)
  | shutdown

def perform (c : LinkController) : Operation → LinkController
  | .attach interface => (c.attach interface).value.2
  | .detach interface => (c.detach interface).value.2
  | .attachSelected candidates => (c.attachSelected candidates).value.2
  | .reconcile change => (c.reconcile change).value
  | .shutdown => c.shutdown.value.2

def run (c : LinkController) (operations : List Operation) : LinkController :=
  operations.foldl perform c

theorem Sound.perform (hc : c.Sound before) (operation : Operation) :
    (c.perform operation).Sound before := by
  cases operation with
  | attach interface => exact hc.attach interface
  | detach interface => exact hc.detach interface
  | attachSelected candidates => exact hc.attachSelected candidates
  | reconcile change => exact hc.reconcile change
  | shutdown => exact hc.shutdown.1

theorem Sound.run (hc : c.Sound before) (operations : List Operation) :
    (c.run operations).Sound before := by
  induction operations generalizing c with
  | nil => exact hc
  | cons operation rest ih => exact ih (hc.perform operation)

/-- After any operations, and whatever calls the kernel refuses, a tracked hook carries exactly the
filter that is tracked, and any other filter was there before. A shutdown then leaves nothing
tracked and counts all that was, and the next one finds nothing. -/
theorem filters_tracked_after_run (selects : Link → Bool) (k : Kernel) (hk : k.Detaches)
    (operations : List Operation) :
    let c := ({ selects, kernel := k } : LinkController).run operations
    (∀ hook id, c.tracked.find? hook = some id → c.kernel.filtersOn hook = [id]) ∧
    (∀ hook, c.tracked.find? hook = none →
      (c.kernel.filtersOn hook).Sublist (k.filtersOn hook)) ∧
    (∀ hook id, id ∈ c.kernel.filtersOn hook →
      c.tracked.find? hook = some id ∨ id ∈ k.filtersOn hook) ∧
    c.shutdown.value.1 = c.tracked.size ∧
    c.shutdown.value.2.tracked.size = 0 ∧
    c.shutdown.value.2.shutdown.value.1 = 0 := by
  intro c
  have hc : c.Sound k := (sound_start selects k hk).run operations
  obtain ⟨hafter, hcount, hempty⟩ := hc.shutdown
  refine ⟨hc.tracked, hc.untracked, ?_, hcount, hempty, hafter.shutdown.2.1.trans hempty⟩
  intro hook id hid
  cases h : c.tracked.find? hook with
  | none => exact Or.inr ((hc.untracked hook h).subset hid)
  | some id' =>
    rw [hc.tracked hook id' h, List.mem_singleton] at hid
    exact Or.inl (hid ▸ rfl)

/-- A kernel with filters left behind, which refuses the second attaching. -/
def strewn : Kernel where
  filters := (Table.empty.insert ⟨"cni0", .ingress⟩ [7]).insert ⟨"cni1", .egress⟩ [8]
  nextFilter := 9
  refuses n call := n == 4 && call == .attach ⟨"cni0", .egress⟩

theorem detaches_strewn : strewn.Detaches := by
  intro n hook
  cases hn : n == 4 <;> simp [strewn, hn]

/-- A controller that is to observe one interface. -/
def observerOf (interface : String) (k : Kernel) : LinkController where
  selects := (AttachPolicy.fixed interface).accepts
  kernel := k

/-- The first attempt is taken back; the third replaces what the second attached. -/
def attempts : List Operation := [.attach "cni0", .attach "cni0", .attach "cni0", .detach "cni1"]

theorem filters_tracked_after_run_attempts :
    strewn.Detaches ∧
      let c := (observerOf "cni0" strewn).run attempts
      c.tracked.find? ⟨"cni0", .egress⟩ = some 13 ∧
        c.kernel.filtersOn ⟨"cni0", .egress⟩ = [13] ∧ c.shutdown.value.1 = 2 := by
  have hall := filters_tracked_after_run (observerOf "cni0" strewn).selects strewn detaches_strewn
    attempts
  have htracked : ((observerOf "cni0" strewn).run attempts).tracked.find? ⟨"cni0", .egress⟩ =
      some 13 := by decide
  refine ⟨detaches_strewn, htracked, hall.1 _ _ htracked, hall.2.2.2.1.trans ?_⟩
  decide

end LinkController
end FlowObserver
