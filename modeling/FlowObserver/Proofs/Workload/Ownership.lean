import FlowObserver.Proofs.Workload.Agreement

/-!
# Who owns an address

A lookup answers from the history: the workload of the last upsert at the address that nothing has
displaced since. An event about one pod takes an address from another only by an upsert at that
address, or by a delete that is about that address, whoever owns it by then.
-/

namespace FlowObserver
namespace WorkloadIndex

/-- What takes `a` away from `w` when it follows on `before`. -/
def Displaces (before : List PodEvent) (w : Workload) (a : Net.Address) : PodEvent → Prop
  | .upsert pod => pod.address = some a ∨ (pod.key = w.key ∧ pod.address ≠ some a)
  | .delete pod => effectiveAddress before pod = some a
  | .relisted _ => True

/-- An upsert of `w` at `a` that nothing displaces later. -/
def Holds (events : List PodEvent) (a : Net.Address) (w : Workload) : Prop :=
  ∃ before after, events = before ++ .upsert ⟨w, some a⟩ :: after ∧
    ∀ between e, between ++ [e] <+: after →
      ¬Displaces (before ++ .upsert ⟨w, some a⟩ :: between) w a e

/-- A delete that names an address names the pod's last one, if there is one. -/
def Faithful (events : List PodEvent) : Prop :=
  ∀ before pod named known, before ++ [.delete pod] <+: events →
    pod.address = some named → lastKnown pod.key before = some known → named = known

variable {events : List PodEvent} {e : PodEvent} {a : Net.Address} {w : Workload}

theorem not_holds_nil : ¬Holds [] a w := by
  rintro ⟨before, after, h, -⟩
  simp at h

theorem holds_concat_iff :
    Holds (events ++ [e]) a w ↔
      e = .upsert ⟨w, some a⟩ ∨ (Holds events a w ∧ ¬Displaces events w a e) := by
  constructor
  · rintro ⟨before, after, heq, hafter⟩
    rcases List.eq_nil_or_concat after with rfl | ⟨after, e', rfl⟩
    · exact Or.inl (List.singleton_inj.mp (List.append_inj' heq rfl).2)
    · rw [List.concat_eq_append, ← List.cons_append, ← List.append_assoc] at heq
      obtain ⟨rfl, he⟩ := List.append_inj' heq rfl
      cases he
      refine Or.inr ⟨⟨before, after, rfl, ?_⟩, ?_⟩
      · intro between e' hbetween
        exact hafter between e' (hbetween.trans (by simp))
      · exact hafter after e (by simp)
  · rintro (rfl | ⟨⟨before, after, rfl, hafter⟩, he⟩)
    · exact ⟨events, [], rfl, by simp⟩
    · refine ⟨before, after ++ [e], by simp, ?_⟩
      intro between e' hbetween
      rcases List.prefix_concat_iff.mp hbetween with heq | hbetween
      · obtain ⟨rfl, he'⟩ := List.append_inj' heq rfl
        cases he'
        exact he
      · exact hafter between e' hbetween

theorem faithful_of_unnamed (h : ∀ pod, .delete pod ∈ events → pod.address = none) :
    Faithful events := by
  intro before pod named known hb hnamed
  have hmem : .delete pod ∈ events := hb.subset (by simp)
  rw [h pod hmem] at hnamed
  cases hnamed

theorem Faithful.straight (hlisted : ListsOnce events) (h : Faithful events) :
    Straight events := by
  induction events using List.reverseRecOn with
  | nil =>
    intro before pod hb
    simp at hb
  | append_singleton events e ih =>
    have hevents : events <+: events ++ [e] := List.prefix_append _ _
    have hs : Straight events := ih (hlisted.restrict hevents)
      fun before pod named known hb => h before pod named known (hb.trans hevents)
    intro before pod hb
    rcases List.prefix_concat_iff.mp hb with heq | hb'
    · obtain ⟨rfl, -⟩ := List.append_inj' heq rfl
      rintro ⟨named, held, hnamed, howns, hne⟩
      have hlast := (hs.agrees_replay (hlisted.restrict hevents)).last_eq_of_owns howns
      rw [lastAddress_replay] at hlast
      exact hne (h before pod named held hb hnamed hlast).symm
    · exact hs before pod hb'

theorem lookup_concat_iff (hx : (replay events).Agrees) (he : ∀ pods, e ≠ .relisted pods) :
    (replay (events ++ [e])).lookup a = some w ↔
      e = .upsert ⟨w, some a⟩ ∨
        ((replay events).lookup a = some w ∧ ¬Displaces events w a e) := by
  rw [replay_concat]
  cases e with
  | relisted pods => exact absurd rfl (he pods)
  | delete pod =>
    rw [apply, lookup_delete, vacated_replay]
    unfold Displaces
    split_ifs with hv <;> simp [hv]
  | upsert pod =>
    rw [apply, PodEvent.upsert.injEq]
    unfold Displaces
    by_cases ha : pod.address = some a
    · have hpod : pod = ⟨w, some a⟩ ↔ pod.workload = w := by
        cases pod
        simp_all
      rw [lookup_upsert_self _ ha, hpod]
      simp [ha]
    · have hpod : pod ≠ ⟨w, some a⟩ := fun h => ha (h ▸ rfl)
      simp only [hpod, ha, false_or, ne_eq, not_false_eq_true, and_true]
      by_cases hmoved :
          (replay events).lastAddress.find? pod.key = some a ∧ (replay events).Owns pod.key a
      · obtain ⟨hlast, v, hv, hk⟩ := hmoved
        rw [lookup_upsert_moved _ ha hlast ⟨v, hv, hk⟩, hv]
        grind
      · rw [lookup_upsert_of_not _ ha fun h h' => hmoved ⟨h, h'⟩]
        refine ⟨fun hw => ⟨hw, fun hk => ?_⟩, And.left⟩
        have howns : (replay events).Owns pod.key a := ⟨w, hw, hk.symm⟩
        exact hmoved ⟨hx.last_eq_of_owns howns, howns⟩

/-- An address leads to `w` exactly when `w` was upserted there and nothing has displaced it. -/
theorem lookup_replay_iff_holds (events : List PodEvent)
    (hsingle : ∀ pods, .relisted pods ∉ events) (hfaithful : Faithful events)
    (a : Net.Address) (w : Workload) :
    (replay events).lookup a = some w ↔ Holds events a w := by
  have hstraight : Straight events := hfaithful.straight (listsOnce_of_not_mem hsingle)
  clear hfaithful
  induction events using List.reverseRecOn with
  | nil => exact iff_of_false (fun h => nomatch h) not_holds_nil
  | append_singleton events e ih =>
    have hevents : events <+: events ++ [e] := List.prefix_append _ _
    have hsingle' : ∀ pods, .relisted pods ∉ events := fun pods hp =>
      hsingle pods (hevents.subset hp)
    have hs := hstraight.restrict hevents
    have hx : (replay events).Agrees := hs.agrees_replay (listsOnce_of_not_mem hsingle')
    have he : ∀ pods, e ≠ .relisted pods := fun pods h => hsingle pods (by simp [h])
    have ih : (replay events).lookup a = some w ↔ Holds events a w := ih hsingle' hs
    rw [lookup_concat_iff hx he, holds_concat_iff, ih]

/-- A pod loses its address to another one, moves and is deleted. -/
def handover : List PodEvent :=
  [.upsert ⟨{ name := "web-1", namespaceName := "shop" }, some (.v4 5)⟩,
    .upsert ⟨{ name := "web-2", namespaceName := "shop" }, some (.v4 5)⟩,
    .upsert ⟨{ name := "web-1", namespaceName := "shop" }, some (.v4 9)⟩,
    .delete ⟨{ name := "web-1", namespaceName := "shop" }, none⟩]

theorem faithful_handover : Faithful handover :=
  faithful_of_unnamed (by simp [handover])

theorem lookup_replay_iff_holds_handover :
    (∀ pods, .relisted pods ∉ handover) ∧ Faithful handover ∧
      Holds handover (.v4 5) { name := "web-2", namespaceName := "shop" } := by
  have hsingle : ∀ pods, .relisted pods ∉ handover := by simp [handover]
  refine ⟨hsingle, faithful_handover, ?_⟩
  exact (lookup_replay_iff_holds handover hsingle faithful_handover _ _).mp (by decide)

/-- An upsert elsewhere leaves the owner of an address alone. So does a delete, unless it is about
that very address. -/
theorem lookup_apply_of_other (events : List PodEvent) (a : Net.Address) (w : Workload)
    (hw : (replay events).lookup a = some w) (pod : Pod) (hother : pod.key ≠ w.key) :
    (pod.address ≠ some a → ((replay events).apply (.upsert pod)).lookup a = some w) ∧
    ((replay events).apply (.delete pod)).lookup a =
      if effectiveAddress events pod = some a then none else some w := by
  constructor
  · intro ha
    have howns : ¬(replay events).Owns pod.key a := by
      rintro ⟨v, hv, hk⟩
      rw [hw] at hv
      cases hv
      exact hother hk.symm
    rw [apply, lookup_upsert_of_not _ ha fun _ => howns, hw]
  · rw [apply, lookup_delete, vacated_replay, hw]

theorem lookup_apply_of_other_handover :
    (replay (handover.take 3)).lookup (.v4 5) =
        some { name := "web-2", namespaceName := "shop" } ∧
      ((replay (handover.take 3)).apply
        (.delete ⟨{ name := "web-1", namespaceName := "shop" }, none⟩)).lookup (.v4 5) =
          some { name := "web-2", namespaceName := "shop" } := by
  have hw : (replay (handover.take 3)).lookup (.v4 5) =
      some { name := "web-2", namespaceName := "shop" } := by decide
  refine ⟨hw, ?_⟩
  rw [(lookup_apply_of_other _ _ _ hw _ (by decide)).2]
  decide

/-- A late delete of the former owner takes the address from the new one. -/
theorem delete_of_former_owner_evicts :
    ¬∀ events a w pod, (replay events).lookup a = some w → pod.key ≠ w.key →
      (pod.address ≠ some a → ((replay events).apply (.upsert pod)).lookup a = some w) ∧
      ((replay events).apply (.delete pod)).lookup a = some w := by
  intro hall
  have h := (hall (handover.take 2) (.v4 5) { name := "web-2", namespaceName := "shop" }
    ⟨{ name := "web-1", namespaceName := "shop" }, some (.v4 5)⟩ (by decide) (by decide)).2
  revert h
  decide

end WorkloadIndex
end FlowObserver
