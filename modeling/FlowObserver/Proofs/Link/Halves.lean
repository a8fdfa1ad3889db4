import FlowObserver.Proofs.Link.Tracking

/-!
# Interfaces of which one hook is tracked

An attempt at an interface that is attached already takes the filter off its ingress first. If the
kernel then refuses the ingress, there is nothing that the attempt has attached and takes back, and
the egress stays tracked. In no other way does an interface come to be tracked on one hook alone,
and it is so until it is detached or an attempt gets past the ingress.
-/

namespace FlowObserver

theorem Direction.label_injective {d e : Direction} (h : d.label = e.label) : d = e := by
  cases d <;> cases e <;> simp [label] at h ⊢

/-- The error of a refused call tells which call it was. -/
theorem KernelCall.failure_injective {call other : KernelCall} {details : String}
    (h : call.failure details = other.failure details) : call = other := by
  simp only [failure, LinkError.traffic.injEq, and_true] at h
  obtain ⟨hverb, hinterface, hdirection⟩ := h
  have hhook : ∀ a b : Hook, a.interface = b.interface → a.direction.label = b.direction.label →
      a = b := by
    rintro ⟨_, d⟩ ⟨_, e⟩ rfl hlabel
    exact congrArg _ (Direction.label_injective hlabel)
  cases call with
  | prepare interface =>
    cases other with
    | prepare other => exact congrArg _ hinterface
    | _ => simp [verb] at hverb
  | purge hook =>
    cases other with
    | purge other => exact congrArg _ (hhook _ _ hinterface hdirection)
    | _ => simp [verb] at hverb
  | attach hook =>
    cases other with
    | attach other => exact congrArg _ (hhook _ _ hinterface hdirection)
    | _ => simp [verb] at hverb
  | detach hook =>
    cases other with
    | detach other => exact congrArg _ (hhook _ _ hinterface hdirection)
    | _ => simp [verb] at hverb

namespace LinkController

/-- What befalls interfaces. -/
inductive Happening where
  | attempted (interface : String) (result : Except LinkError Unit)
  | detached (interface : String)
  | shutDown

def Happening.Concerns (interface : String) : Happening → Prop
  | attempted other _ | detached other => other = interface
  | shutDown => True

def attaching (c : LinkController) : List String → List Happening
  | [] => []
  | interface :: rest =>
    .attempted interface (c.attach interface).value.1 ::
      (c.attach interface).value.2.attaching rest

def happenings (c : LinkController) : Operation → List Happening
  | .attach interface => c.attaching [interface]
  | .detach interface => [.detached interface]
  | .attachSelected candidates =>
    c.attaching ((candidates.filter c.selects).map (·.name))
  | .reconcile (.up link) =>
    if c.isActive link.name || !c.selects link then [] else c.attaching [link.name]
  | .reconcile (.down interface) => [.detached interface]
  | .shutdown => [.shutDown]

def history (c : LinkController) : List Operation → List Happening
  | [] => []
  | operation :: rest => c.happenings operation ++ (c.perform operation).history rest

/-- What a happening makes of the hooks that are tracked. -/
inductive Befalls (c : LinkController) : Happening → LinkController → Prop where
  | attempted {interface : String} {result : Except LinkError Unit} {later : LinkController}
    (hends : AttemptEnds c interface result later) : Befalls c (.attempted interface result) later
  | detached {interface : String} {later : LinkController}
    (htracks : ∀ hook, later.tracks hook =
      if hook.interface = interface then false else c.tracks hook) :
    Befalls c (.detached interface) later
  | shutDown {later : LinkController} (htracks : ∀ hook, later.tracks hook = false) :
    Befalls c .shutDown later

inductive Course (c : LinkController) : List Happening → LinkController → Prop where
  | nil : Course c [] c
  | concat {happenings : List Happening} {h : Happening} {later last : LinkController}
    (hcourse : Course c happenings later) (hbefalls : Befalls later h last) :
    Course c (happenings ++ [h]) last

variable {c later last : LinkController} {interface : String}

theorem Course.single {h : Happening} (hbefalls : Befalls c h later) : Course c [h] later :=
  Course.nil.concat hbefalls

theorem Course.append {first second : List Happening} (hfirst : Course c first later)
    (hsecond : Course later second last) : Course c (first ++ second) last := by
  induction hsecond with
  | nil => rwa [List.append_nil]
  | concat _ hbefalls ih =>
    rw [← List.append_assoc]
    exact ih.concat hbefalls

theorem course_attaching (c : LinkController) (interfaces : List String) :
    Course c (c.attaching interfaces)
      (interfaces.foldl (fun c interface => (c.attach interface).value.2) c) := by
  induction interfaces generalizing c with
  | nil => exact .nil
  | cons interface rest ih => exact (Course.single (.attempted (c.attach_ends interface))).append (ih _)

theorem foldl_attachNext (x : Nat × LinkController) (links : List Link) :
    (links.foldl attachNext x).2 =
      (links.map (·.name)).foldl (fun c interface => (c.attach interface).value.2) x.2 := by
  induction links generalizing x with
  | nil => rfl
  | cons link rest ih =>
    rw [List.foldl_cons, ih, attachNext, value_attachOrSkip]
    rfl

theorem tracks_shutdown (c : LinkController) (hook : Hook) :
    c.shutdown.value.2.tracks hook = false := by
  have hfold : ∀ (hooks : List Hook) (x : Nat × LinkController),
      (hooks.foldl detachNext x).2.tracks hook =
        if hook ∈ hooks then false else x.2.tracks hook := by
    intro hooks
    induction hooks with
    | nil => exact fun x => rfl
    | cons first rest ih =>
      intro x
      rw [List.foldl_cons, ih, detachNext, tracks_detachHook]
      by_cases hhook : hook = first <;> simp [hhook]
  rw [value_shutdown, hfold]
  split_ifs with hhook
  · rfl
  · rw [mem_attachments_iff, not_not] at hhook
    rw [tracks, hhook]
    rfl

theorem course_perform (c : LinkController) (operation : Operation) :
    Course c (c.happenings operation) (c.perform operation) := by
  cases operation with
  | attach interface => exact c.course_attaching [interface]
  | detach interface => exact .single (.detached fun hook => c.tracks_detach hook interface)
  | attachSelected candidates =>
    rw [perform, value_attachSelected]
    dsimp only
    rw [foldl_attachNext]
    exact c.course_attaching _
  | reconcile change =>
    cases change with
    | up link =>
      rw [perform, happenings, value_reconcile_up]
      split_ifs
      · exact .nil
      · exact c.course_attaching [link.name]
    | down name =>
      rw [perform, happenings, value_reconcile_down]
      exact .single (.detached fun hook => c.tracks_detach hook name)
  | shutdown => exact .single (.shutDown c.tracks_shutdown)

theorem course_run (c : LinkController) (operations : List Operation) :
    Course c (c.history operations) (c.run operations) := by
  induction operations generalizing c with
  | nil => exact .nil
  | cons operation rest ih => exact (c.course_perform operation).append (ih _)

/-- An attempt at the interface that ended because one of these calls was refused. -/
def RefusedIn (interface : String) (calls : List KernelCall) (h : Happening) : Prop :=
  ∃ call ∈ calls, h = .attempted interface (.error (call.failure "refused"))

/-- The interface was attached, and all that befell it since are attempts that were refused in one
of these calls. -/
def AttachedUpTo (interface : String) (calls : List KernelCall) (history : List Happening) : Prop :=
  ∃ earlier later, history = earlier ++ .attempted interface (.ok ()) :: later ∧
    ∀ h ∈ later, h.Concerns interface → RefusedIn interface calls h

theorem refusedIn_iff {calls : List KernelCall} {call : KernelCall} :
    RefusedIn interface calls (.attempted interface (.error (call.failure "refused"))) ↔
      call ∈ calls := by
  constructor
  · rintro ⟨other, hother, h⟩
    injection h with _ h
    injection h with h
    exact KernelCall.failure_injective h ▸ hother
  · exact fun h => ⟨call, h, rfl⟩

theorem not_attachedUpTo_nil (interface : String) (calls : List KernelCall) :
    ¬AttachedUpTo interface calls [] := by
  rintro ⟨earlier, later, h, -⟩
  exact absurd h.symm (by simp)

theorem attachedUpTo_concat_iff (calls : List KernelCall) (history : List Happening)
    (h : Happening) :
    AttachedUpTo interface calls (history ++ [h]) ↔
      h = .attempted interface (.ok ()) ∨
        AttachedUpTo interface calls history ∧
          (h.Concerns interface → RefusedIn interface calls h) := by
  constructor
  · rintro ⟨earlier, later, hsplit, hlater⟩
    rcases concat_eq_split_iff.mp hsplit with ⟨-, rfl, -⟩ | ⟨before, rfl, rfl⟩
    · exact .inl rfl
    · rw [List.forall_mem_append, List.forall_mem_singleton] at hlater
      exact .inr ⟨⟨earlier, before, rfl, hlater.1⟩, hlater.2⟩
  · rintro (rfl | ⟨⟨earlier, later, rfl, hlater⟩, hlast⟩)
    · exact ⟨history, [], rfl, fun h hh => absurd hh List.not_mem_nil⟩
    · refine ⟨earlier, later ++ [h], by simp, ?_⟩
      rw [List.forall_mem_append, List.forall_mem_singleton]
      exact ⟨hlater, hlast⟩

theorem AttachedUpTo.mono {few calls : List KernelCall} {history : List Happening}
    (h : AttachedUpTo interface few history) (hsub : few ⊆ calls) :
    AttachedUpTo interface calls history := by
  obtain ⟨earlier, later, hsplit, hlater⟩ := h
  refine ⟨earlier, later, hsplit, fun h hh hconcerns => ?_⟩
  obtain ⟨call, hcall, rfl⟩ := hlater h hh hconcerns
  exact ⟨call, hsub hcall, rfl⟩

theorem not_attachedUpTo_of_mem {calls few : List KernelCall} {earlier later : List Happening}
    (hlater : ∀ h ∈ later, h.Concerns interface → RefusedIn interface calls h) {h : Happening}
    (hh : h ∈ later) (hconcerns : h.Concerns interface) (hfew : ¬RefusedIn interface few h) :
    ¬AttachedUpTo interface few (earlier ++ .attempted interface (.ok ()) :: later) := by
  induction later using List.reverseRecOn with
  | nil => exact absurd hh List.not_mem_nil
  | append_singleton later last ih =>
    rw [List.forall_mem_append, List.forall_mem_singleton] at hlater
    rw [← List.cons_append, ← List.append_assoc, attachedUpTo_concat_iff]
    rintro (rfl | ⟨hattached, hlast⟩)
    · obtain ⟨call, -, hrefused⟩ := hlater.2 rfl
      simp at hrefused
    · rcases List.mem_append.mp hh with hh | hh
      · exact ih hlater.1 hh hattached
      · rw [List.mem_singleton.mp hh] at hconcerns hfew
        exact hfew (hlast hconcerns)

/-- A hook is tracked exactly if its interface was attached, and no attempt since has got as far as
that hook. -/
theorem Course.tracks_iff {start : LinkController} (hstart : ∀ hook, start.tracks hook = false)
    {history : List Happening} (hcourse : Course start history c) (interface : String) :
    (c.tracks ⟨interface, .ingress⟩ = true ↔
        AttachedUpTo interface [.prepare interface] history) ∧
      (c.tracks ⟨interface, .egress⟩ = true ↔
        AttachedUpTo interface (.prepare interface :: hookCalls ⟨interface, .ingress⟩) history) := by
  induction hcourse with
  | nil => simp [hstart, not_attachedUpTo_nil]
  | @concat history h c later hcourse hbefalls ih =>
    rw [attachedUpTo_concat_iff, attachedUpTo_concat_iff, ← ih.1, ← ih.2]
    cases hbefalls with
    | @attempted other result _ hends =>
      by_cases hother : other = interface
      · subst hother
        have hconcerns : (Happening.attempted other result).Concerns other := rfl
        simp only [hconcerns, true_implies]
        cases hends with
        | unprepared htracks => simp [htracks, refusedIn_iff]
        | @atIngress _ call hcall htracks =>
          have hne : call ≠ .prepare other := by
            rintro rfl
            simp [hookCalls] at hcall
          simp [htracks, refusedIn_iff, hcall, hne]
        | @atEgress _ call hcall htracks =>
          have hne : call ≠ .prepare other := by
            rintro rfl
            simp [hookCalls] at hcall
          have hnot : call ∉ hookCalls ⟨other, .ingress⟩ := by
            intro hcall'
            simp only [hookCalls, List.mem_cons, List.not_mem_nil, or_false] at hcall hcall'
            rcases hcall with rfl | rfl <;> simp at hcall'
          simp [htracks, refusedIn_iff, hne, hnot]
        | attached htracks => simp [htracks]
      · have hconcerns : ¬(Happening.attempted other result).Concerns interface := hother
        have hsame : ∀ d, later.tracks ⟨interface, d⟩ = c.tracks ⟨interface, d⟩ := by
          intro d
          cases hends with
          | unprepared htracks => exact htracks _
          | atIngress _ htracks => rw [htracks, if_neg (by simp [Ne.symm hother])]
          | atEgress _ htracks | attached htracks => rw [htracks, if_neg (Ne.symm hother)]
        simp [hsame, hconcerns, hother]
    | @detached other _ htracks =>
      by_cases hother : other = interface
      · subst hother
        have hconcerns : (Happening.detached other).Concerns other := rfl
        simp [htracks, hconcerns, RefusedIn]
      · have hconcerns : ¬(Happening.detached other).Concerns interface := hother
        simp [htracks, hconcerns, Ne.symm hother]
    | shutDown htracks =>
      have hconcerns : Happening.shutDown.Concerns interface := trivial
      simp [htracks, hconcerns, RefusedIn]

/-- Whatever the operations are and whatever calls the kernel refuses, no interface is ever tracked
on its ingress alone. It is tracked on its egress alone exactly if, since it was last attached,
nothing befell it but attempts that were refused before they got to the egress, and at least one of
them was refused at the ingress. -/
theorem tracked_by_half_iff (selects : Link → Bool) (k : Kernel) (operations : List Operation)
    (interface : String) :
    let start : LinkController := { selects, kernel := k }
    let c := start.run operations
    (c.tracks ⟨interface, .ingress⟩ = true → c.tracks ⟨interface, .egress⟩ = true) ∧
    (c.tracks ⟨interface, .ingress⟩ ≠ c.tracks ⟨interface, .egress⟩ ↔
      ∃ earlier later,
        start.history operations = earlier ++ .attempted interface (.ok ()) :: later ∧
        (∀ h ∈ later, h.Concerns interface →
          RefusedIn interface (.prepare interface :: hookCalls ⟨interface, .ingress⟩) h) ∧
        ∃ h ∈ later, RefusedIn interface (hookCalls ⟨interface, .ingress⟩) h) := by
  intro start c
  have hnone : ∀ hook, start.tracks hook = false := fun hook => rfl
  obtain ⟨hingress, hegress⟩ := (start.course_run operations).tracks_iff hnone interface
  -- what leaves the ingress alone also leaves the egress alone
  have himplies : c.tracks ⟨interface, .ingress⟩ = true → c.tracks ⟨interface, .egress⟩ = true := by
    intro h
    exact hegress.mpr ((hingress.mp h).mono (by simp))
  refine ⟨himplies, ?_⟩
  constructor
  · intro hne
    have hhalf : c.tracks ⟨interface, .ingress⟩ = false ∧ c.tracks ⟨interface, .egress⟩ = true := by
      revert hne himplies
      cases c.tracks ⟨interface, .ingress⟩ <;> cases c.tracks ⟨interface, .egress⟩ <;> simp
    obtain ⟨earlier, later, hsplit, hlater⟩ := hegress.mp hhalf.2
    refine ⟨earlier, later, hsplit, hlater, ?_⟩
    -- were no attempt refused at the ingress, the ingress would be tracked still
    by_contra hno
    have htracked : c.tracks ⟨interface, .ingress⟩ = true := by
      refine hingress.mpr ⟨earlier, later, hsplit, fun h hh hconcerns => ?_⟩
      obtain ⟨call, hcall, rfl⟩ := hlater h hh hconcerns
      rcases List.mem_cons.mp hcall with hcall | hcall
      · exact ⟨call, List.mem_singleton.mpr hcall, rfl⟩
      · exact absurd ⟨_, hh, call, hcall, rfl⟩ hno
    rw [hhalf.1] at htracked
    cases htracked
  · rintro ⟨earlier, later, hsplit, hlater, h, hh, call, hcall, rfl⟩
    have htracked := hegress.mpr ⟨earlier, later, hsplit, hlater⟩
    have hother : call ∉ [KernelCall.prepare interface] := by
      rw [List.mem_singleton]
      rintro rfl
      simp [hookCalls] at hcall
    have huntracked : ¬c.tracks ⟨interface, .ingress⟩ = true := by
      rw [hingress, hsplit]
      exact not_attachedUpTo_of_mem hlater hh rfl (mt refusedIn_iff.mp hother)
    rw [htracked]
    exact huntracked

/-- A kernel that refuses its eighth call if that is to purge the ingress. -/
def wavering : Kernel where
  refuses n call := n == 7 && call == .purge ⟨"cni0", .ingress⟩

/-- The second attempt is refused after it took the filter off the ingress, and nothing puts the
interface right: a change that brings it up finds it attached. -/
theorem refused_reattachment_leaves_half :
    wavering.Detaches ∧
      let c := (observerOf "cni0" wavering).run
        [.attach "cni0", .attach "cni0", .reconcile (.up ⟨1, "cni0", none, true⟩)]
      c.tracks ⟨"cni0", .ingress⟩ = false ∧ c.tracks ⟨"cni0", .egress⟩ = true := by
  refine ⟨fun n hook => ?_, by decide⟩
  cases hn : n == 7 <;> simp [wavering, hn]

end LinkController
end FlowObserver
