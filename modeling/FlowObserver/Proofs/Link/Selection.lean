import FlowObserver.Proofs.Link.Following

/-!
# Which candidates are attached

If it depends on the call alone whether the kernel refuses it, then candidates do not influence one
another: of those that are selected, exactly those are attached none of whose calls is
refused, in whatever order they come, and the others leave no filter behind.
-/

namespace FlowObserver

namespace Hook

variable {a b c : Hook}

theorem le_iff : a.le b = true ↔ a.interface < b.interface ∨
    a.interface = b.interface ∧ (a.direction = .ingress ∨ b.direction = .egress) := by
  simp [le]

theorem le_trans (hab : a.le b = true) (hbc : b.le c = true) : a.le c = true := by
  rw [le_iff] at *
  rcases hab with hab | ⟨hab, hdirection⟩
  · rcases hbc with hbc | ⟨hbc, -⟩
    · exact .inl (String.lt_trans hab hbc)
    · exact .inl (hbc ▸ hab)
  · rcases hbc with hbc | ⟨hbc, hdirection'⟩
    · exact .inl (hab ▸ hbc)
    · refine .inr ⟨hab.trans hbc, ?_⟩
      rcases hdirection with ha | hb
      · exact .inl ha
      · exact .inr (hdirection'.resolve_left (by simp [hb]))

theorem le_total (a b : Hook) : (a.le b || b.le a) = true := by
  rw [Bool.or_eq_true, le_iff, le_iff]
  by_cases hab : a.interface < b.interface
  · exact .inl (.inl hab)
  · by_cases hba : b.interface < a.interface
    · exact .inr (.inl hba)
    · have hname : a.interface = b.interface :=
        String.le_antisymm (String.not_lt.mp hba) (String.not_lt.mp hab)
      cases ha : a.direction with
      | ingress => exact .inl (.inr ⟨hname, .inl rfl⟩)
      | egress => exact .inr (.inr ⟨hname.symm, .inr rfl⟩)

theorem le_antisymm (hab : a.le b = true) (hba : b.le a = true) : a = b := by
  rw [le_iff] at *
  have hname : a.interface = b.interface := by
    rcases hab with hab | hab
    · rcases hba with hba | hba
      · exact absurd hba (String.lt_asymm hab)
      · exact hba.1.symm
    · exact hab.1
  obtain ⟨name, d⟩ := a
  obtain ⟨other, e⟩ := b
  obtain rfl : name = other := hname
  cases d <;> cases e <;> simp_all

end Hook

namespace LinkController

variable (c : LinkController)

theorem mem_attachments_iff_tracks (hook : Hook) :
    hook ∈ c.attachments ↔ c.tracks hook = true := by
  rw [mem_attachments_iff, tracks, Option.isSome_iff_ne_none]

theorem attachments_sorted : c.attachments.Pairwise fun a b => a.le b = true := by
  apply List.pairwise_mergeSort
  · exact fun _ _ _ => Hook.le_trans
  · exact Hook.le_total

theorem attachments_congr {c later : LinkController}
    (h : ∀ hook, c.tracks hook = later.tracks hook) : c.attachments = later.attachments := by
  have hperm : c.attachments.Perm later.attachments := by
    rw [List.perm_ext_iff_of_nodup c.nodup_attachments later.nodup_attachments]
    intro hook
    rw [mem_attachments_iff_tracks, mem_attachments_iff_tracks, h]
  exact hperm.eq_of_pairwise (fun a b _ _ => Hook.le_antisymm) c.attachments_sorted
    later.attachments_sorted

/-- Of the calls that attach links the kernel refuses these and no others, whenever they are
made. -/
def RefusesSteadily (k : Kernel) (refused : KernelCall → Bool) : Prop :=
  ∀ n interface, ∀ call ∈ attachCalls interface, k.refuses n call = refused call

/-- None of the calls that attach the link is refused. -/
def isAttachable (refused : KernelCall → Bool) (link : Link) : Bool :=
  (attachCalls link.name).all fun call => !refused call

theorem granted_eq_all {refuses : Nat → KernelCall → Bool} {refused : KernelCall → Bool}
    {calls : List KernelCall} (h : ∀ n, ∀ call ∈ calls, refuses n call = refused call) (n : Nat) :
    KernelCall.granted refuses n calls = calls.all fun call => !refused call := by
  induction calls generalizing n with
  | nil => rfl
  | cons call rest ih =>
    rw [KernelCall.granted, List.all_cons, h n call List.mem_cons_self,
      ih fun n call hcall => h n call (List.mem_cons_of_mem _ hcall)]

variable {c} {refused : KernelCall → Bool}

theorem attachNext_of_inactive {x : Nat × LinkController}
    (hrefuses : RefusesSteadily x.2.kernel refused) {link : Link}
    (hinactive : x.2.isActive link.name = false) :
    (attachNext x link).1 = x.1 + (if isAttachable refused link then 1 else 0) ∧
      Kept x.2 (attachNext x link).2 ∧
      ∀ hook, (attachNext x link).2.tracks hook =
        if hook.interface = link.name then isAttachable refused link else x.2.tracks hook := by
  have hok : (x.2.attach link.name).value.1.isOk = isAttachable refused link :=
    (x.2.attach_of_inactive link.name hinactive).1.trans
      (granted_eq_all (fun n => hrefuses n link.name) _)
  rw [attachNext, x.2.value_attachOrSkip]
  dsimp only
  refine ⟨?_, x.2.kept_attach link.name, fun hook => ?_⟩
  · rw [hok]
    split_ifs <;> rfl
  · rw [x.2.tracks_attach_of_inactive hook link.name hinactive, hok]

theorem foldl_attachNext_of_inactive {x : Nat × LinkController} {links : List Link}
    (hrefuses : RefusesSteadily x.2.kernel refused) (hnames : (links.map (·.name)).Nodup)
    (hinactive : ∀ link ∈ links, x.2.isActive link.name = false) :
    (links.foldl attachNext x).1 = x.1 + links.countP (isAttachable refused) ∧
      ∀ hook, (links.foldl attachNext x).2.tracks hook = true ↔
        (∃ link ∈ links, isAttachable refused link = true ∧ hook.interface = link.name) ∨
          x.2.tracks hook = true := by
  induction links generalizing x with
  | nil => simp
  | cons link rest ih =>
    rw [List.map_cons, List.nodup_cons] at hnames
    rw [List.forall_mem_cons] at hinactive
    obtain ⟨hnot, hnames⟩ := hnames
    obtain ⟨hcount, hkept, htracks⟩ := attachNext_of_inactive hrefuses hinactive.1
    have hrefuses' : RefusesSteadily (attachNext x link).2.kernel refused := by
      unfold RefusesSteadily
      rw [hkept.refuses]
      exact hrefuses
    have hinactive' : ∀ other ∈ rest, (attachNext x link).2.isActive other.name = false := by
      intro other hother
      have hne : other.name ≠ link.name := fun h => hnot (h ▸ List.mem_map_of_mem hother)
      have hbefore := (x.2.isActive_eq_false_iff other.name).mp (hinactive.2 other hother)
      rw [isActive_eq_false_iff]
      intro d
      rw [htracks, if_neg hne, hbefore]
    obtain ⟨hcount', htracks'⟩ := ih hrefuses' hnames hinactive'
    rw [List.foldl_cons]
    refine ⟨?_, fun hook => ?_⟩
    · rw [hcount', hcount, List.countP_cons]
      omega
    · rw [htracks', htracks, List.exists_mem_cons_iff]
      by_cases hhook : hook.interface = link.name
      · have hbefore : x.2.tracks hook = false := by
          have h := (x.2.isActive_eq_false_iff link.name).mp hinactive.1 hook.direction
          rwa [← hhook] at h
        simp [hhook, hbefore, or_comm]
      · simp [hhook]

/-- Attaching to candidates of different names, where nothing is tracked yet. -/
theorem attachSelected_outcome (hnone : ∀ hook, c.tracks hook = false)
    (hrefuses : RefusesSteadily c.kernel refused) {candidates : List Link}
    (hnames : (candidates.map (·.name)).Nodup) :
    let selected := candidates.filter c.selects
    let attachable := selected.filter (isAttachable refused)
    (c.attachSelected candidates).value.1 =
        (if attachable = [] then .error (.noneAttached selected.length)
          else .ok attachable.length) ∧
      ∀ hook, (c.attachSelected candidates).value.2.tracks hook = true ↔
        ∃ link ∈ attachable, link.name = hook.interface := by
  intro selected attachable
  have hselected : (selected.map (·.name)).Nodup :=
    hnames.sublist (List.filter_sublist.map _)
  have hinactive : ∀ link ∈ selected, c.isActive link.name = false := fun link _ =>
    (c.isActive_eq_false_iff link.name).mpr fun d => hnone _
  obtain ⟨hcount, htracks⟩ :=
    foldl_attachNext_of_inactive (x := (0, c)) hrefuses hselected hinactive
  rw [Nat.zero_add, List.countP_eq_length_filter] at hcount
  rw [value_attachSelected]
  dsimp only
  refine ⟨?_, fun hook => ?_⟩
  · rw [hcount]
    exact if_congr List.length_eq_zero_iff rfl rfl
  · rw [htracks, hnone, or_iff_left Bool.false_ne_true]
    simp only [attachable, List.mem_filter, and_assoc, eq_comm]

theorem attachSelected_of_perm (hnone : ∀ hook, c.tracks hook = false)
    (hrefuses : RefusesSteadily c.kernel refused) {candidates reordered : List Link}
    (hnames : (candidates.map (·.name)).Nodup) (hperm : reordered.Perm candidates) :
    (c.attachSelected reordered).value.1 = (c.attachSelected candidates).value.1 ∧
      (c.attachSelected reordered).value.2.attachments =
        (c.attachSelected candidates).value.2.attachments := by
  have hnames' : (reordered.map (·.name)).Nodup := (hperm.map _).nodup_iff.mpr hnames
  obtain ⟨hresult, htracks⟩ := attachSelected_outcome hnone hrefuses hnames
  obtain ⟨hresult', htracks'⟩ := attachSelected_outcome hnone hrefuses hnames'
  have hselected := hperm.filter c.selects
  have hattachable := hselected.filter (isAttachable refused)
  constructor
  · rw [hresult', hresult, hselected.length_eq, hattachable.length_eq]
    refine if_congr ?_ rfl rfl
    rw [← List.isEmpty_iff, hattachable.isEmpty_eq, List.isEmpty_iff]
  · apply attachments_congr
    intro hook
    rw [Bool.eq_iff_iff, htracks', htracks]
    exact exists_congr fun link => and_congr_left' hattachable.mem_iff

/-- If it depends on the call alone whether the kernel refuses it: of the candidates that are
selected, those are attached none of whose calls is refused, on both hooks and in order, and it is an
error if there are none. The others leave no filter behind that was not there before. The order of
the candidates does not matter. -/
theorem attachSelected_isolates (selects : Link → Bool) {k : Kernel}
    {refused : KernelCall → Bool} (hrefuses : RefusesSteadily k refused) {candidates : List Link}
    (hnames : (candidates.map (·.name)).Nodup) :
    let start : LinkController := { selects, kernel := k }
    let selected := candidates.filter selects
    let attachable := selected.filter (isAttachable refused)
    let done := (start.attachSelected candidates).value
    done.1 = (if attachable = [] then .error (.noneAttached selected.length)
      else .ok attachable.length) ∧
    (∀ hook, hook ∈ done.2.attachments ↔ ∃ link ∈ attachable, link.name = hook.interface) ∧
    done.2.attachments.Pairwise (fun a b => a.le b = true ∧ a ≠ b) ∧
    (k.Detaches → ∀ link ∈ selected, link ∉ attachable → ∀ d,
      (done.2.kernel.filtersOn ⟨link.name, d⟩).Sublist (k.filtersOn ⟨link.name, d⟩)) ∧
    ∀ reordered, reordered.Perm candidates →
      (start.attachSelected reordered).value.1 = done.1 ∧
        (start.attachSelected reordered).value.2.attachments = done.2.attachments := by
  intro start selected attachable done
  have hnone : ∀ hook, start.tracks hook = false := fun hook => rfl
  obtain ⟨hresult, htracks⟩ := attachSelected_outcome hnone hrefuses hnames
  refine ⟨hresult, fun hook => ?_, ?_, fun hdetaches link hlink hnot d => ?_,
    fun reordered hperm => ?_⟩
  · rw [mem_attachments_iff_tracks]
    exact htracks hook
  · exact done.2.attachments_sorted.and done.2.nodup_attachments
  · have huntracked : done.2.tracks ⟨link.name, d⟩ = false := by
      rw [← Bool.not_eq_true, htracks]
      rintro ⟨other, hother, hname⟩
      -- names are distinct, so only the link itself could have been attached there
      have hsame : other = link := List.inj_on_of_nodup_map hnames
        (List.mem_of_mem_filter (List.mem_of_mem_filter hother)) (List.mem_of_mem_filter hlink)
        hname
      exact hnot (hsame ▸ hother)
    have hsound := (sound_start selects k hdetaches).attachSelected candidates
    apply hsound.untracked
    rwa [tracks, Option.isSome_eq_false_iff, Option.isNone_iff_eq_none] at huntracked
  · exact attachSelected_of_perm hnone hrefuses hnames hperm

/-- Refuses one call, whenever it is made, and still has filters from before. -/
def stubborn : Kernel where
  filters := (Table.empty.insert ⟨"veth1", .ingress⟩ [3]).insert ⟨"veth1", .egress⟩ [4, 5]
  nextFilter := 6
  refuses _ call := call == .purge ⟨"veth1", .egress⟩

/-- Three links of the kind, of which one cannot be attached, and one of no kind. -/
def veths : List Link :=
  [⟨1, "veth2", some "veth", true⟩, ⟨2, "veth1", some "veth", true⟩, ⟨3, "eth0", none, true⟩,
    ⟨4, "veth0", some "veth", true⟩]

theorem attachSelected_isolates_veths :
    RefusesSteadily stubborn (· == .purge ⟨"veth1", .egress⟩) ∧ (veths.map (·.name)).Nodup ∧
      stubborn.Detaches ∧
      let start : LinkController := {
        selects := (AttachPolicy.discover [] ["veth"]).accepts, kernel := stubborn }
      let done := (start.attachSelected veths).value
      done.1 = .ok 2 ∧ (∀ hook, hook ∈ done.2.attachments ↔
        hook.interface = "veth2" ∨ hook.interface = "veth0") ∧
      (done.2.kernel.filtersOn ⟨"veth1", .egress⟩).Sublist [4, 5] ∧
      (start.attachSelected veths.reverse).value.1 = .ok 2 := by
  have hrefuses : RefusesSteadily stubborn (· == .purge ⟨"veth1", .egress⟩) := fun _ _ _ _ => rfl
  have hnames : (veths.map (·.name)).Nodup := by decide
  have hdetaches : stubborn.Detaches := fun _ _ => rfl
  obtain ⟨hresult, hattached, -, hleft, hreordered⟩ :=
    attachSelected_isolates (AttachPolicy.discover [] ["veth"]).accepts hrefuses hnames
  have hattachable : (veths.filter (AttachPolicy.discover [] ["veth"]).accepts).filter
      (isAttachable (· == .purge ⟨"veth1", .egress⟩)) =
      [⟨1, "veth2", some "veth", true⟩, ⟨4, "veth0", some "veth", true⟩] := by decide
  rw [hattachable] at hresult hattached hleft
  refine ⟨hrefuses, hnames, hdetaches, hresult, fun hook => ?_, ?_, ?_⟩
  · rw [hattached]
    simp [eq_comm]
  · exact hleft hdetaches ⟨2, "veth1", some "veth", true⟩ (by decide) (by decide) .egress
  · exact (hreordered _ veths.reverse_perm).1.trans hresult

end LinkController
end FlowObserver
