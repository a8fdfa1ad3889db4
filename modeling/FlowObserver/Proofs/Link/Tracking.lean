import FlowObserver.Proofs.Link.Filters

/-!
# Which hooks are tracked

Each operation in an equation for what is tracked after it, whatever calls the kernel refuses. An
attempt to attach an interface ends in one of four ways, and its error names the call that was
refused: the interface stays as it was, the ingress alone is forgotten, both hooks are, or both are
tracked.
-/

namespace FlowObserver

/-- A list that grew by one is split at its new end, or where it could be split before. -/
theorem concat_eq_split_iff {α : Type} {xs earlier later : List α} {y x : α} :
    xs ++ [y] = earlier ++ x :: later ↔
      (xs = earlier ∧ y = x ∧ later = []) ∨
        ∃ before, later = before ++ [y] ∧ xs = earlier ++ x :: before := by
  constructor
  · intro hsplit
    rcases List.eq_nil_or_concat later with rfl | ⟨before, last, rfl⟩
    · obtain ⟨hxs, hlast⟩ := List.append_inj' hsplit rfl
      exact .inl ⟨hxs, List.singleton_inj.mp hlast, rfl⟩
    · rw [List.concat_eq_append, ← List.cons_append, ← List.append_assoc] at hsplit
      obtain ⟨hxs, hlast⟩ := List.append_inj' hsplit rfl
      obtain rfl := List.singleton_inj.mp hlast
      exact .inr ⟨before, List.concat_eq_append, hxs⟩
  · rintro (⟨rfl, rfl, rfl⟩ | ⟨before, rfl, rfl⟩)
    · rfl
    · simp

@[simp] theorem isOk_ok {α β : Type} (b : β) : (Except.ok b : Except α β).isOk = true := rfl

@[simp] theorem isOk_error {α β : Type} (a : α) : (Except.error a : Except α β).isOk = false := rfl

namespace LinkController

variable (c : LinkController) (hook other : Hook) (interface : String)

def tracks (c : LinkController) (hook : Hook) : Bool := (c.tracked.find? hook).isSome

theorem isActive_iff : c.isActive interface = true ↔ ∃ d, c.tracks ⟨interface, d⟩ = true := by
  have hkey : ∀ hook, hook ∈ c.tracked.keys ↔ c.tracks hook = true := by
    intro hook
    rw [← not_iff_not, ← Table.find?_eq_none_iff, tracks, Option.not_isSome_iff_eq_none]
  simp only [isActive, List.any_eq_true, decide_eq_true_eq, hkey]
  constructor
  · rintro ⟨⟨_, d⟩, htracked, rfl⟩
    exact ⟨d, htracked⟩
  · rintro ⟨d, htracked⟩
    exact ⟨_, htracked, rfl⟩

theorem isActive_eq_false_iff :
    c.isActive interface = false ↔ ∀ d, c.tracks ⟨interface, d⟩ = false := by
  rw [← Bool.not_eq_true, isActive_iff]
  simp

theorem mem_hooksOf_iff : hook ∈ hooksOf interface ↔ hook.interface = interface := by
  obtain ⟨name, d⟩ := hook
  cases d <;> simp [hooksOf, Direction.all, eq_comm]

/-- The links that are selected, and the calls that the kernel refuses. -/
structure Kept (c later : LinkController) : Prop where
  selects : later.selects = c.selects
  refuses : later.kernel.refuses = c.kernel.refuses

theorem Kept.refl : Kept c c := ⟨rfl, rfl⟩

theorem Kept.trans {c later last : LinkController} (h : Kept c later) (hlater : Kept later last) :
    Kept c last :=
  ⟨hlater.selects.trans h.selects, hlater.refuses.trans h.refuses⟩

theorem tracks_detachHook :
    (c.detachHook hook).value.2.tracks other = if other = hook then false else c.tracks other := by
  unfold detachHook
  cases h : c.tracked.find? hook with
  | none =>
    split_ifs with hother
    · rw [hother, Told.value_pure, tracks, h]
      rfl
    · rfl
  | some id =>
    dsimp only
    obtain ⟨result, kernel⟩ := c.kernel.detach hook id
    have herase : (c.tracked.erase hook).find? other =
        if other = hook then none else c.tracked.find? other := Table.find?_erase _ _ _
    unfold tracks
    cases result <;> dsimp only [Told.value_bind, Told.value_pure] <;> rw [herase] <;>
      split_ifs <;> rfl

theorem refuses_detach (k : Kernel) (id : FilterId) : (k.detach hook id).2.refuses = k.refuses := by
  unfold Kernel.detach
  rw [Kernel.call_eq]
  by_cases h : k.Refuses (.detach hook)
  · rw [if_pos h]
    rfl
  · rw [if_neg h]
    dsimp only
    split_ifs <;> rfl

theorem kept_detachHook : Kept c (c.detachHook hook).value.2 := by
  unfold detachHook
  cases c.tracked.find? hook with
  | none => exact Kept.refl c
  | some id =>
    have hrefuses := refuses_detach hook c.kernel id
    dsimp only
    generalize c.kernel.detach hook id = detached at hrefuses ⊢
    obtain ⟨result, kernel⟩ := detached
    cases result <;> exact ⟨rfl, hrefuses⟩

def hookCalls (hook : Hook) : List KernelCall := [.purge hook, .attach hook]

theorem renewHook_eq :
    c.renewHook hook =
      let purged := (c.kernel.logged (.purge hook)).setFilters hook []
      if c.kernel.Refuses (.purge hook) then
        (.error ((KernelCall.purge hook).failure "refused"),
          { c with kernel := c.kernel.logged (.purge hook) })
      else if purged.Refuses (.attach hook) then
        (.error ((KernelCall.attach hook).failure "refused"),
          { c with kernel := purged.logged (.attach hook) })
      else (.ok (), { c with
        kernel := { (purged.logged (.attach hook)).setFilters hook [purged.nextFilter] with
          nextFilter := purged.nextFilter + 1 }
        tracked := c.tracked.insert hook purged.nextFilter }) := by
  rw [renewHook, Kernel.purge_eq]
  dsimp only
  split_ifs with hpurge hattach
  · rfl
  · dsimp only
    rw [Kernel.attach_eq, if_pos hattach]
  · dsimp only
    rw [Kernel.attach_eq, if_neg hattach, Kernel.filtersOn_setFilters, if_pos rfl]
    rfl

/-- A hook is tracked after it was attached exactly if that went well. -/
theorem attachHook_outcome :
    let x := (c.attachHook hook).value
    (x.1 = .ok () ∨ ∃ call ∈ hookCalls hook, x.1 = .error (call.failure "refused")) ∧
      ∀ other, x.2.tracks other = if other = hook then x.1.isOk else c.tracks other := by
  have hdetached := c.tracks_detachHook hook
  rw [value_attachHook]
  generalize (c.detachHook hook).value.2 = detached at hdetached ⊢
  -- a refusal leaves the hook as the detaching did
  have hleft : ∀ other, detached.tracks other =
      if other = hook then (.error () : Except Unit Unit).isOk else c.tracks other := hdetached
  rw [renewHook_eq]
  dsimp only
  split_ifs
  · exact ⟨.inr ⟨_, List.mem_cons_self, rfl⟩, hleft⟩
  · exact ⟨.inr ⟨_, List.mem_cons_of_mem _ List.mem_cons_self, rfl⟩, hleft⟩
  · refine ⟨.inl rfl, fun other => ?_⟩
    have hfind := hdetached other
    unfold tracks at hfind ⊢
    rw [Table.find?_insert]
    split_ifs at hfind ⊢
    · rfl
    · exact hfind

theorem kept_attachHook : Kept c (c.attachHook hook).value.2 := by
  have hkept := c.kept_detachHook hook
  rw [value_attachHook]
  refine hkept.trans ?_
  rw [renewHook_eq]
  dsimp only
  split_ifs <;> exact ⟨rfl, rfl⟩

theorem tracks_detachHooks (hooks : List Hook) :
    (c.detachHooks hooks).value.tracks other = if other ∈ hooks then false else c.tracks other := by
  rw [detachHooks, Told.value_foldlM]
  induction hooks generalizing c with
  | nil => rfl
  | cons hook rest ih =>
    rw [List.foldl_cons, ih, Told.value_bind, Told.value_pure, tracks_detachHook]
    by_cases hother : other = hook <;> simp [hother]

theorem kept_detachHooks (hooks : List Hook) : Kept c (c.detachHooks hooks).value := by
  rw [detachHooks, Told.value_foldlM]
  induction hooks generalizing c with
  | nil => exact Kept.refl c
  | cons hook rest ih => exact (c.kept_detachHook hook).trans (ih _)

theorem value_attachHooks_cons (done rest : List Hook) :
    (c.attachHooks done (hook :: rest)).value =
      match (c.attachHook hook).value with
      | (.ok _, c) => (c.attachHooks (done ++ [hook]) rest).value
      | (.error e, c) => (.error e, (c.detachHooks done).value) := by
  rw [attachHooks, Told.value_bind]
  obtain ⟨result, later⟩ := (c.attachHook hook).value
  cases result <;> rfl

/-- Where a hook fails, it and all before it are forgotten, and those after it stay as they were. -/
theorem attachHooks_outcome (done hooks : List Hook) :
    let x := (c.attachHooks done hooks).value
    (x.1 = .ok () ∧ ∀ other, x.2.tracks other = (decide (other ∈ hooks) || c.tracks other)) ∨
      ∃ before hook after call, hooks = before ++ hook :: after ∧ call ∈ hookCalls hook ∧
        x.1 = .error (call.failure "refused") ∧
        ∀ other, x.2.tracks other =
          if other = hook ∨ other ∈ done ++ before then false else c.tracks other := by
  induction hooks generalizing c done with
  | nil => exact .inl ⟨rfl, fun other => by simp [attachHooks]⟩
  | cons hook rest ih =>
    obtain ⟨hresult, htracks⟩ := c.attachHook_outcome hook
    rw [value_attachHooks_cons]
    generalize (c.attachHook hook).value = attached at hresult htracks ⊢
    obtain ⟨result, later⟩ := attached
    dsimp only at hresult htracks
    rcases hresult with rfl | ⟨call, hcall, rfl⟩
    · rcases ih later (done ++ [hook]) with
        ⟨hok, hlater⟩ | ⟨before, failing, after, call, rfl, hcall, herror, hlater⟩
      · refine .inl ⟨hok, fun other => ?_⟩
        rw [hlater, htracks]
        by_cases hother : other = hook <;> simp [hother]
      · refine .inr ⟨hook :: before, failing, after, call, rfl, hcall, herror, fun other => ?_⟩
        rw [hlater, htracks]
        by_cases hother : other = hook <;> simp [hother]
    · refine .inr ⟨[], hook, rest, call, rfl, hcall, rfl, fun other => ?_⟩
      rw [tracks_detachHooks, htracks]
      by_cases hother : other = hook <;> simp [hother]

theorem kept_attachHooks (done hooks : List Hook) :
    Kept c (c.attachHooks done hooks).value.2 := by
  induction hooks generalizing c done with
  | nil => exact Kept.refl c
  | cons hook rest ih =>
    have hkept := c.kept_attachHook hook
    rw [value_attachHooks_cons]
    generalize (c.attachHook hook).value = attached at hkept ⊢
    obtain ⟨result, later⟩ := attached
    cases result with
    | ok _ => exact hkept.trans (ih later _)
    | error e => exact hkept.trans (later.kept_detachHooks done)

theorem value_attach :
    (c.attach interface).value =
      let prepared : LinkController := { c with kernel := c.kernel.logged (.prepare interface) }
      if c.kernel.Refuses (.prepare interface) then
        (.error ((KernelCall.prepare interface).failure "refused"), prepared)
      else (prepared.attachHooks [] (hooksOf interface)).value := by
  rw [attach, Kernel.prepare_eq]
  dsimp only
  split_ifs with hprepare
  · rfl
  · dsimp only
    rw [Told.value_bind]
    generalize (LinkController.attachHooks _ [] (hooksOf interface)).value = attached
    obtain ⟨result, later⟩ := attached
    cases result <;> rfl

theorem kept_attach : Kept c (c.attach interface).value.2 := by
  have hprepared : Kept c { c with kernel := c.kernel.logged (.prepare interface) } := ⟨rfl, rfl⟩
  rw [value_attach]
  dsimp only
  split_ifs
  · exact hprepared
  · exact hprepared.trans (kept_attachHooks _ _ _)

/-- How an attempt to attach an interface ends, and what is tracked then. -/
inductive AttemptEnds (c : LinkController) (interface : String) :
    Except LinkError Unit → LinkController → Prop where
  | unprepared {later : LinkController} (htracks : ∀ hook, later.tracks hook = c.tracks hook) :
    AttemptEnds c interface (.error ((KernelCall.prepare interface).failure "refused")) later
  | atIngress {later : LinkController} {call : KernelCall}
    (hcall : call ∈ hookCalls ⟨interface, .ingress⟩)
    (htracks : ∀ hook, later.tracks hook =
      if hook = ⟨interface, .ingress⟩ then false else c.tracks hook) :
    AttemptEnds c interface (.error (call.failure "refused")) later
  | atEgress {later : LinkController} {call : KernelCall}
    (hcall : call ∈ hookCalls ⟨interface, .egress⟩)
    (htracks : ∀ hook, later.tracks hook =
      if hook.interface = interface then false else c.tracks hook) :
    AttemptEnds c interface (.error (call.failure "refused")) later
  | attached {later : LinkController} (htracks : ∀ hook, later.tracks hook =
      if hook.interface = interface then true else c.tracks hook) :
    AttemptEnds c interface (.ok ()) later

theorem attach_ends :
    AttemptEnds c interface (c.attach interface).value.1 (c.attach interface).value.2 := by
  rw [value_attach]
  dsimp only
  split_ifs
  · exact .unprepared fun hook => rfl
  · rcases attachHooks_outcome { c with kernel := c.kernel.logged (.prepare interface) } []
        (hooksOf interface) with
      ⟨hok, htracks⟩ | ⟨before, failing, after, call, hhooks, hcall, herror, htracks⟩
    · rw [hok]
      refine .attached fun hook => ?_
      rw [htracks]
      by_cases hhook : hook.interface = interface
      · simp [mem_hooksOf_iff, hhook]
      · simp only [mem_hooksOf_iff, hhook, decide_false, Bool.false_or, if_false]
        rfl
    · rw [herror]
      change [_, _] = _ at hhooks
      match before with
      | [] =>
        obtain ⟨rfl, -⟩ := List.cons.inj hhooks
        refine .atIngress hcall fun hook => ?_
        rw [htracks]
        simp only [List.nil_append, List.not_mem_nil, or_false]
        rfl
      | [first] =>
        obtain ⟨rfl, hrest⟩ := List.cons.inj hhooks
        obtain ⟨rfl, -⟩ := List.cons.inj hrest
        refine .atEgress hcall fun hook => ?_
        have hmem : hook = ⟨interface, .egress⟩ ∨ hook ∈ [⟨interface, .ingress⟩] ↔
            hook.interface = interface := by
          rw [← mem_hooksOf_iff]
          simp [hooksOf, Direction.all, or_comm]
        rw [htracks, List.nil_append, if_congr hmem rfl rfl]
        rfl
      | first :: second :: more =>
        have hlength := congrArg List.length hhooks
        simp at hlength

theorem tracks_detach :
    (c.detach interface).value.2.tracks hook =
      if hook.interface = interface then false else c.tracks hook := by
  have htracks := c.tracks_detachHooks hook (hooksOf interface)
  rw [if_congr (mem_hooksOf_iff hook interface) rfl rfl] at htracks
  rw [← htracks, detach, Told.value_bind]
  cases c.isActive interface <;> rfl

theorem kept_detach : Kept c (c.detach interface).value.2 := by
  have hkept := c.kept_detachHooks (hooksOf interface)
  rw [detach, Told.value_bind]
  cases c.isActive interface <;> exact hkept

theorem value_reconcile_up (link : Link) :
    (c.reconcile (.up link)).value =
      if c.isActive link.name || !c.selects link then c
      else (c.attach link.name).value.2 := by
  rw [reconcile]
  split_ifs
  · rfl
  · rw [Told.value_bind, Told.value_bind]
    generalize (c.attach link.name).value = attached
    obtain ⟨result, later⟩ := attached
    cases result <;> rfl

theorem value_reconcile_down :
    (c.reconcile (.down interface)).value = (c.detach interface).value.2 := by
  rw [reconcile, Told.value_bind]
  generalize (c.detach interface).value = detached
  obtain ⟨active, later⟩ := detached
  cases active <;> rfl

theorem kept_reconcile (change : LinkChange) : Kept c (c.reconcile change).value := by
  cases change with
  | up link =>
    rw [value_reconcile_up]
    split_ifs
    · exact Kept.refl c
    · exact c.kept_attach link.name
  | down name =>
    rw [value_reconcile_down]
    exact c.kept_detach name

end LinkController
end FlowObserver
