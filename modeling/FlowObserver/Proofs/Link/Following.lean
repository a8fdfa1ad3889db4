import FlowObserver.Proofs.Link.Tracking

/-!
# What is attached while changes are followed

An interface is attached exactly if it came up, was selected and had its attempt succeed, and has
not gone down since. Interfaces do not influence one another. The kernel is called for a change only
where there is something to do: once for an interface that is to be attached, and for one that is
attached and goes down.
-/

namespace FlowObserver

/-- Whether the calls are all accepted, where `n` calls came before them. -/
def KernelCall.granted (refuses : Nat → KernelCall → Bool) (n : Nat) : List KernelCall → Bool
  | [] => true
  | call :: rest => !refuses n call && granted refuses (n + 1) rest

/-- The calls up to the first that is refused, where `n` calls came before them. -/
def KernelCall.untilRefused (refuses : Nat → KernelCall → Bool) (n : Nat) :
    List KernelCall → List KernelCall
  | [] => []
  | call :: rest => if refuses n call then [call] else call :: untilRefused refuses (n + 1) rest

section

variable (refuses : Nat → KernelCall → Bool) (n : Nat) (first later : List KernelCall)

theorem KernelCall.granted_append :
    granted refuses n (first ++ later) =
      (granted refuses n first && granted refuses (n + first.length) later) := by
  induction first generalizing n with
  | nil => rfl
  | cons call rest ih =>
    simp only [List.cons_append, granted, ih, Bool.and_assoc, List.length_cons]
    rw [Nat.add_right_comm]
    rfl

theorem KernelCall.untilRefused_append :
    untilRefused refuses n (first ++ later) =
      if granted refuses n first then first ++ untilRefused refuses (n + first.length) later
      else untilRefused refuses n first := by
  induction first generalizing n with
  | nil => rfl
  | cons call rest ih =>
    simp only [List.cons_append, granted, untilRefused, ih, List.length_cons]
    rw [Nat.add_right_comm, Nat.add_assoc]
    by_cases hcall : refuses n call = true
    · simp [hcall]
    · by_cases hrest : granted refuses (n + 1) rest = true <;> simp [hcall, hrest]

theorem KernelCall.untilRefused_of_granted {refuses : Nat → KernelCall → Bool} {n : Nat}
    {calls : List KernelCall} (h : granted refuses n calls = true) :
    untilRefused refuses n calls = calls := by
  have happend := untilRefused_append refuses n calls []
  rwa [if_pos h, List.append_nil, untilRefused, List.append_nil] at happend

end

namespace Kernel

def grants (k : Kernel) (calls : List KernelCall) : Bool :=
  KernelCall.granted k.refuses k.calls.length calls

/-- What is called of these, if the first refusal is the end of it. -/
def untilRefused (k : Kernel) (calls : List KernelCall) : List KernelCall :=
  KernelCall.untilRefused k.refuses k.calls.length calls

/-- The kernel after these calls, as far as the next calls are concerned. -/
def after (k : Kernel) (calls : List KernelCall) : Kernel := { k with calls := k.calls ++ calls }

section

variable {k other : Kernel}

theorem grants_congr (hrefuses : other.refuses = k.refuses) (hcalls : other.calls = k.calls)
    (calls : List KernelCall) : other.grants calls = k.grants calls := by
  rw [grants, grants, hrefuses, hcalls]

theorem untilRefused_congr (hrefuses : other.refuses = k.refuses) (hcalls : other.calls = k.calls)
    (calls : List KernelCall) : other.untilRefused calls = k.untilRefused calls := by
  rw [untilRefused, untilRefused, hrefuses, hcalls]

theorem grants_append (k : Kernel) (first later : List KernelCall) :
    k.grants (first ++ later) = (k.grants first && (k.after first).grants later) := by
  simp only [grants, after, KernelCall.granted_append, List.length_append]

theorem untilRefused_append (k : Kernel) (first later : List KernelCall) :
    k.untilRefused (first ++ later) =
      if k.grants first then first ++ (k.after first).untilRefused later
      else k.untilRefused first := by
  simp only [grants, untilRefused, after, KernelCall.untilRefused_append, List.length_append]

theorem untilRefused_of_grants {calls : List KernelCall} (h : k.grants calls = true) :
    k.untilRefused calls = calls :=
  KernelCall.untilRefused_of_granted h

end

end Kernel

namespace LinkController

def attachCalls (interface : String) : List KernelCall :=
  .prepare interface :: (hookCalls ⟨interface, .ingress⟩ ++ hookCalls ⟨interface, .egress⟩)

/-- The calls of one attempt at an interface that is not tracked. If the ingress is attached and the
egress is not, the ingress is detached again. -/
def attemptCalls (k : Kernel) (interface : String) : List KernelCall :=
  k.untilRefused (attachCalls interface) ++
    if k.grants (.prepare interface :: hookCalls ⟨interface, .ingress⟩) &&
        !k.grants (attachCalls interface) then [.detach ⟨interface, .ingress⟩]
    else []

variable (c : LinkController) (hook : Hook) (interface : String)

theorem calls_detachHook :
    (c.detachHook hook).value.2.kernel.calls =
      c.kernel.calls ++ if c.tracks hook then [.detach hook] else [] := by
  unfold detachHook tracks
  cases c.tracked.find? hook with
  | none => exact (List.append_nil _).symm
  | some id =>
    have hcalls : (c.kernel.detach hook id).2.calls = c.kernel.calls ++ [.detach hook] := by
      unfold Kernel.detach
      rw [Kernel.call_eq]
      by_cases h : c.kernel.Refuses (.detach hook)
      · rw [if_pos h]
        rfl
      · rw [if_neg h]
        dsimp only
        split_ifs <;> rfl
    dsimp only
    generalize c.kernel.detach hook id = detached at hcalls ⊢
    obtain ⟨result, kernel⟩ := detached
    cases result <;> exact hcalls

theorem calls_detachHooks {hooks : List Hook} (h : hooks.Nodup) :
    (c.detachHooks hooks).value.kernel.calls =
      c.kernel.calls ++ (hooks.filter c.tracks).map .detach := by
  rw [detachHooks, Told.value_foldlM]
  induction hooks generalizing c with
  | nil => exact (List.append_nil _).symm
  | cons hook rest ih =>
    rw [List.nodup_cons] at h
    have hrest : ∀ other ∈ rest, (c.detachHook hook).value.2.tracks other = c.tracks other := by
      intro other hother
      rw [tracks_detachHook, if_neg (ne_of_mem_of_not_mem hother h.1)]
    rw [List.foldl_cons, ih _ h.2, Told.value_bind, Told.value_pure, calls_detachHook,
      List.filter_congr hrest, List.filter_cons]
    split_ifs <;> simp

theorem calls_detach :
    (c.detach interface).value.2.kernel.calls =
      c.kernel.calls ++ ((hooksOf interface).filter c.tracks).map .detach := by
  have hnodup : (hooksOf interface).Nodup := by simp [hooksOf, Direction.all]
  rw [← c.calls_detachHooks hnodup, detach, Told.value_bind]
  cases c.isActive interface <;> rfl

theorem attachHook_of_untracked (h : c.tracks hook = false) :
    (c.attachHook hook).value.1.isOk = c.kernel.grants (hookCalls hook) ∧
      (c.attachHook hook).value.2.kernel.calls =
        c.kernel.calls ++ c.kernel.untilRefused (hookCalls hook) := by
  have hnone : c.tracked.find? hook = none := by
    rwa [tracks, Option.isSome_eq_false_iff, Option.isNone_iff_eq_none] at h
  have hnext : ((c.kernel.logged (.purge hook)).setFilters hook []).Refuses (.attach hook) ↔
      c.kernel.refuses (c.kernel.calls.length + 1) (.attach hook) = true := by
    simp [Kernel.Refuses, Kernel.logged, Kernel.setFilters]
  rw [value_attachHook, c.detachHook_of_untracked hook hnone, renewHook_eq]
  unfold Kernel.grants Kernel.untilRefused hookCalls
  dsimp only
  split_ifs with hpurge hattach
  · rw [Kernel.Refuses] at hpurge
    simp [KernelCall.granted, KernelCall.untilRefused, hpurge, Kernel.logged]
  · rw [Kernel.Refuses] at hpurge
    rw [hnext] at hattach
    simp [KernelCall.granted, KernelCall.untilRefused, hpurge, hattach, Kernel.logged,
      Kernel.setFilters]
  · rw [Kernel.Refuses] at hpurge
    rw [hnext] at hattach
    simp [KernelCall.granted, KernelCall.untilRefused, hpurge, hattach, Kernel.logged,
      Kernel.setFilters]

theorem attachHooks_last {first last : Hook} (hfirst : c.tracks first = true)
    (hlast : c.tracks last = false) :
    (c.attachHooks [first] [last]).value.1.isOk = c.kernel.grants (hookCalls last) ∧
      (c.attachHooks [first] [last]).value.2.kernel.calls =
        c.kernel.calls ++ (c.kernel.untilRefused (hookCalls last) ++
          if c.kernel.grants (hookCalls last) then [] else [.detach first]) := by
  have hne : first ≠ last := by
    rintro rfl
    rw [hfirst] at hlast
    cases hlast
  obtain ⟨hok, hcalls⟩ := c.attachHook_of_untracked last hlast
  have htracks := (c.attachHook_outcome last).2 first
  rw [if_neg hne, hfirst] at htracks
  rw [value_attachHooks_cons, ← hok]
  generalize (c.attachHook last).value = attached at hcalls htracks ⊢
  obtain ⟨result, later⟩ := attached
  cases result with
  | ok _ => exact ⟨rfl, hcalls.trans (by simp)⟩
  | error e =>
    refine ⟨rfl, ?_⟩
    have hback := later.calls_detachHook first
    rw [if_pos htracks] at hback
    dsimp only at hcalls ⊢
    rw [detachHooks, Told.value_foldlM]
    exact hback.trans (by simp [hcalls])

theorem attachHooks_pair (first last : Hook) (hne : last ≠ first) (hfirst : c.tracks first = false)
    (hlast : c.tracks last = false) :
    let calls := hookCalls first ++ hookCalls last
    (c.attachHooks [] [first, last]).value.1.isOk = c.kernel.grants calls ∧
      (c.attachHooks [] [first, last]).value.2.kernel.calls =
        c.kernel.calls ++ (c.kernel.untilRefused calls ++
          if c.kernel.grants (hookCalls first) && !c.kernel.grants calls then [.detach first]
          else []) := by
  obtain ⟨hok, hcalls⟩ := c.attachHook_of_untracked first hfirst
  have htracks := (c.attachHook_outcome first).2
  have hrefuses := (c.kept_attachHook first).refuses
  dsimp only
  rw [value_attachHooks_cons, Kernel.grants_append, Kernel.untilRefused_append, ← hok]
  generalize (c.attachHook first).value = attached at hok hcalls htracks hrefuses ⊢
  obtain ⟨result, later⟩ := attached
  cases result with
  | error e => exact ⟨rfl, hcalls.trans (by simp)⟩
  | ok _ =>
    rw [Kernel.untilRefused_of_grants hok.symm] at hcalls
    have hlater : later.tracks last = false := by rw [htracks, if_neg hne, hlast]
    obtain ⟨hok', hcalls'⟩ := later.attachHooks_last (htracks first ▸ if_pos rfl) hlater
    dsimp only at hcalls
    have hsame : later.kernel.refuses = (c.kernel.after (hookCalls first)).refuses := hrefuses
    rw [Kernel.grants_congr hsame hcalls] at hok' hcalls'
    rw [Kernel.untilRefused_congr hsame hcalls, hcalls] at hcalls'
    refine ⟨hok', hcalls'.trans ?_⟩
    cases (c.kernel.after (hookCalls first)).grants (hookCalls last) <;>
      simp

/-- An attempt at an interface that is not tracked succeeds exactly if all of its calls are
accepted, and makes no others. -/
theorem attach_of_inactive (h : c.isActive interface = false) :
    (c.attach interface).value.1.isOk = c.kernel.grants (attachCalls interface) ∧
      (c.attach interface).value.2.kernel.calls =
        c.kernel.calls ++ attemptCalls c.kernel interface := by
  rw [isActive_eq_false_iff] at h
  have hgrants := c.kernel.grants_append [.prepare interface]
  have huntil := c.kernel.untilRefused_append [.prepare interface]
  simp only [List.singleton_append] at hgrants huntil
  rw [value_attach, attemptCalls, attachCalls, hgrants (hookCalls _ ++ hookCalls _),
    hgrants (hookCalls _), huntil]
  by_cases hprepare : c.kernel.Refuses (.prepare interface)
  · rw [if_pos hprepare]
    rw [Kernel.Refuses] at hprepare
    simp [Kernel.grants, KernelCall.granted, Kernel.untilRefused, KernelCall.untilRefused,
      hprepare, Kernel.logged]
  · have hfirst : c.kernel.grants [.prepare interface] = true := by
      rw [Kernel.Refuses] at hprepare
      simp [Kernel.grants, KernelCall.granted, hprepare]
    obtain ⟨hok, hcalls⟩ := attachHooks_pair
      { c with kernel := c.kernel.after [.prepare interface] } ⟨interface, .ingress⟩
      ⟨interface, .egress⟩ (by simp) (h _) (h _)
    rw [if_neg hprepare, hfirst]
    exact ⟨hok, hcalls.trans (by simp [Kernel.after])⟩

theorem tracks_attach_of_inactive (h : c.isActive interface = false) :
    (c.attach interface).value.2.tracks hook =
      if hook.interface = interface then (c.attach interface).value.1.isOk
      else c.tracks hook := by
  have hends := c.attach_ends interface
  rw [isActive_eq_false_iff] at h
  have hnone : hook.interface = interface → c.tracks hook = false := by
    rintro rfl
    exact h hook.direction
  generalize (c.attach interface).value = attempt at hends ⊢
  obtain ⟨result, later⟩ := attempt
  cases hends with
  | unprepared htracks =>
    rw [htracks]
    split_ifs with hhook
    · exact hnone hhook
    · rfl
  | atIngress _ htracks =>
    rw [htracks]
    split_ifs with hingress hhook hhook
    · rfl
    · rw [hingress] at hhook
      exact absurd rfl hhook
    · exact hnone hhook
    · rfl
  | atEgress _ htracks => exact htracks hook
  | attached htracks => exact htracks hook

/-- An attempt at the interface is due, and it succeeds. -/
def WouldAttach (c : LinkController) (interface : String) : Prop :=
  c.isActive interface = false ∧ (c.attach interface).value.1.isOk = true

/-- The interface was attached when one of the changes brought it up, and did not go down since. -/
def BroughtUp (start : LinkController) (interface : String) (changes : List LinkChange) : Prop :=
  ∃ earlier link later, changes = earlier ++ .up link :: later ∧ link.name = interface ∧
    start.selects link = true ∧ (start.follow earlier).value.WouldAttach interface ∧
    .down interface ∉ later

variable (start : LinkController) (changes : List LinkChange) (change : LinkChange)

theorem value_follow : (start.follow changes).value =
    changes.foldl (fun c change => (c.reconcile change).value) start :=
  Told.value_foldlM _ _ _

theorem value_follow_concat :
    (start.follow (changes ++ [change])).value =
      ((start.follow changes).value.reconcile change).value := by
  rw [value_follow, value_follow, List.foldl_append]
  rfl

theorem kept_follow : Kept start (start.follow changes).value := by
  induction changes using List.reverseRecOn with
  | nil => exact Kept.refl start
  | append_singleton changes change ih =>
    rw [value_follow_concat]
    exact ih.trans (kept_reconcile _ change)

theorem not_broughtUp_nil : ¬BroughtUp start interface [] := by
  rintro ⟨earlier, link, later, hsplit, -⟩
  exact absurd hsplit.symm (by simp)

theorem broughtUp_concat_iff :
    BroughtUp start interface (changes ++ [change]) ↔
      (∃ link, change = .up link ∧ link.name = interface ∧ start.selects link = true ∧
        (start.follow changes).value.WouldAttach interface) ∨
      BroughtUp start interface changes ∧ change ≠ .down interface := by
  constructor
  · rintro ⟨earlier, link, later, hsplit, hname, haccepts, hwould, hlater⟩
    rcases concat_eq_split_iff.mp hsplit with ⟨rfl, rfl, -⟩ | ⟨before, rfl, rfl⟩
    · exact .inl ⟨link, rfl, hname, haccepts, hwould⟩
    · rw [List.mem_append, not_or, List.mem_singleton] at hlater
      exact .inr ⟨⟨earlier, link, before, rfl, hname, haccepts, hwould, hlater.1⟩,
        Ne.symm hlater.2⟩
  · rintro (⟨link, rfl, hname, haccepts, hwould⟩ |
      ⟨⟨earlier, link, later, rfl, hname, haccepts, hwould, hlater⟩, hne⟩)
    · exact ⟨changes, link, [], rfl, hname, haccepts, hwould, List.not_mem_nil⟩
    · refine ⟨earlier, link, later ++ [change], by simp, hname, haccepts, hwould, ?_⟩
      rw [List.mem_append, not_or, List.mem_singleton]
      exact ⟨hlater, Ne.symm hne⟩

variable {start}

theorem tracks_follow_iff (hstart : ∀ hook, start.tracks hook = false) :
    (start.follow changes).value.tracks hook = true ↔
      BroughtUp start hook.interface changes := by
  induction changes using List.reverseRecOn generalizing hook with
  | nil => simp [value_follow, hstart, not_broughtUp_nil]
  | append_singleton changes change ih =>
    have hselects := (start.kept_follow changes).selects
    rw [value_follow_concat, broughtUp_concat_iff, ← ih]
    generalize (start.follow changes).value = c at ih hselects ⊢
    rw [← hselects]
    cases change with
    | down name =>
      rw [value_reconcile_down, tracks_detach]
      by_cases hname : hook.interface = name
      · simp [hname]
      · simp [hname, Ne.symm hname]
    | up link =>
      rw [value_reconcile_up]
      by_cases hdue : c.isActive link.name = false ∧ c.selects link = true
      · rw [if_neg (by simp [hdue.1, hdue.2]), tracks_attach_of_inactive _ _ _ hdue.1]
        by_cases hname : hook.interface = link.name
        · have hnone : c.tracks hook = false := by
            have hall := (c.isActive_eq_false_iff link.name).mp hdue.1 hook.direction
            rwa [← hname] at hall
          simp [hname, hdue.1, hdue.2, hnone, WouldAttach]
        · simp [hname, Ne.symm hname]
      · have hidle : (c.isActive link.name || !c.selects link) = true := by
          revert hdue
          cases c.isActive link.name <;> cases c.selects link <;> simp
        have hnot : ¬∃ link', LinkChange.up link = .up link' ∧ link'.name = hook.interface ∧
            c.selects link' = true ∧ c.WouldAttach hook.interface := by
          rintro ⟨_, ⟨⟩, hname, haccepts, hinactive, -⟩
          exact hdue ⟨hname ▸ hinactive, haccepts⟩
        rw [if_pos hidle, or_iff_right hnot]
        simp

/-- After any changes, and whatever calls the kernel refuses: a hook is tracked exactly if its
interface was brought up and attached since it last went down. A change that brings up an selected
interface that is not tracked makes one attempt, which succeeds exactly if all of its calls are
accepted. For a change that brings up another, or takes down one that is not tracked, the kernel is
not called. -/
theorem attached_while_following (selects : Link → Bool) (k : Kernel) (changes : List LinkChange) :
    let start : LinkController := { selects, kernel := k }
    let c := (start.follow changes).value
    (∀ name d, c.tracks ⟨name, d⟩ = true ↔ BroughtUp start name changes) ∧
    (∀ link, (c.reconcile (.up link)).value.kernel.calls = c.kernel.calls ++
      if !c.isActive link.name && selects link then attemptCalls c.kernel link.name
      else []) ∧
    (∀ name, c.isActive name = false →
      (c.attach name).value.1.isOk = c.kernel.grants (attachCalls name)) ∧
    ∀ name, (c.reconcile (.down name)).value.kernel.calls = c.kernel.calls ++
      if c.isActive name then (hooksOf name).map .detach else [] := by
  intro start c
  have hnone : ∀ hook, start.tracks hook = false := fun hook => rfl
  have htracks : ∀ name d, c.tracks ⟨name, d⟩ = true ↔ BroughtUp start name changes :=
    fun name d => tracks_follow_iff ⟨name, d⟩ changes hnone
  have hselects : c.selects = selects := (start.kept_follow changes).selects
  refine ⟨htracks, fun link => ?_, fun name hname => (c.attach_of_inactive name hname).1,
    fun name => ?_⟩
  · rw [value_reconcile_up, hselects]
    cases hactive : c.isActive link.name with
    | true => exact (List.append_nil _).symm
    | false =>
      cases selects link with
      | false => exact (List.append_nil _).symm
      | true => exact (c.attach_of_inactive link.name hactive).2
  · -- an interface that is attached is so on both hooks
    have hboth : ∀ hook ∈ hooksOf name, c.tracks hook = c.isActive name := by
      intro hook hhook
      rw [mem_hooksOf_iff] at hhook
      rw [Bool.eq_iff_iff, isActive_iff, ← hhook]
      refine ⟨fun h => ⟨hook.direction, h⟩, fun ⟨d, h⟩ => ?_⟩
      exact (htracks _ _).mpr ((htracks _ _).mp h)
    rw [value_reconcile_down, calls_detach, List.filter_congr hboth]
    cases c.isActive name <;> simp

end LinkController
end FlowObserver
