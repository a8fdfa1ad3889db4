import FlowObserver.Proofs.ServiceMap.AnyOrder

/-!
# Which buckets are kept

As long as the clock does not go back, there is one bucket for each second in which a flow was
counted, in the order of time, from the latest one back to the end of the retention. Buckets are
dropped only when a flow is counted, so that the latest of them is never too old; their number is
bounded by the retention, however many flows are recorded.
-/

namespace FlowObserver
namespace ServiceMap

section

variable {l : List Nat} {t : Nat}

/-- The greatest element of a list that goes up stands at its end. -/
theorem getLast?_eq_some_iff_mem (hup : l.Pairwise (· < ·)) (hle : ∀ s ∈ l, s ≤ t) :
    l.getLast? = some t ↔ t ∈ l := by
  rcases List.eq_nil_or_concat l with rfl | ⟨front, last, rfl⟩
  · simp
  · simp only [List.concat_eq_append, List.pairwise_append, List.mem_append,
      List.mem_singleton] at hup hle
    have hlast : last ≤ t := hle last (.inr rfl)
    constructor
    · intro h
      simp_all
    · intro h
      rcases List.mem_append.mp (List.concat_eq_append ▸ h) with hfront | hend
      · have hlt : t < last := hup.2.2 t hfront last rfl
        omega
      · simp_all

def endingWith (t : Nat) (l : List Nat) : List Nat :=
  if l.getLast? = some t then l else l ++ [t]

theorem mem_endingWith_iff (s : Nat) : s ∈ endingWith t l ↔ s ∈ l ∨ s = t := by
  unfold endingWith
  split_ifs with h
  · constructor
    · exact .inl
    · rintro (hs | rfl)
      · exact hs
      · exact List.mem_of_getLast? h
  · simp

theorem pairwise_endingWith (hup : l.Pairwise (· < ·)) (hle : ∀ s ∈ l, s ≤ t) :
    (endingWith t l).Pairwise (· < ·) := by
  unfold endingWith
  simp only [getLast?_eq_some_iff_mem hup hle]
  split_ifs with h
  · exact hup
  · rw [List.pairwise_append]
    refine ⟨hup, List.pairwise_singleton _ _, ?_⟩
    intro s hs
    have hne : s ≠ t := fun hst => h (hst ▸ hs)
    simpa using lt_of_le_of_ne (hle s hs) hne

/-- Dropping small elements from the front drops all small elements. -/
theorem mem_dropWhile_older_iff (hup : l.Pairwise (· < ·)) (oldest s : Nat) :
    s ∈ l.dropWhile (· < oldest) ↔ s ∈ l ∧ oldest ≤ s := by
  induction l with
  | nil => simp
  | cons first rest ih =>
    rw [List.pairwise_cons] at hup
    rw [List.dropWhile_cons]
    split_ifs with hold
    · rw [ih hup.2, List.mem_cons]
      simp only [decide_eq_true_eq] at hold
      constructor
      · rintro ⟨hs, hs'⟩
        exact ⟨.inr hs, hs'⟩
      · rintro ⟨rfl | hs, hs'⟩
        · omega
        · exact ⟨hs, hs'⟩
    · simp only [decide_eq_true_eq, Nat.not_lt] at hold
      constructor
      · intro hs
        refine ⟨hs, ?_⟩
        rcases List.mem_cons.mp hs with rfl | hs
        · exact hold
        · exact hold.trans (hup.1 s hs).le
      · exact And.left

/-- A list that goes up within a stretch of numbers is no longer than the stretch. -/
theorem length_le_of_stretch (hup : l.Pairwise (· < ·)) (kept : Nat)
    (hin : ∀ s ∈ l, t - kept ≤ s ∧ s ≤ t) : l.length ≤ kept + 1 := by
  have hnodup : l.Nodup := hup.imp fun h => h.ne
  have hsubset : l.toFinset ⊆ Finset.Icc (t - kept) t := by
    intro s hs
    exact Finset.mem_Icc.mpr (hin s (List.mem_toFinset.mp hs))
  have hcard := Finset.card_le_card hsubset
  rw [List.toFinset_card_of_nodup hnodup, Nat.card_Icc] at hcard
  omega

end

namespace Buckets

def seconds (x : Buckets) : List Nat := x.list.map (·.second)

variable (x : Buckets) (e : FlowEvent) (now : Nat)

theorem seconds_updateLast {f : Bucket → Bucket} (hf : ∀ b, (f b).second = b.second)
    (list : List Bucket) : (updateLast f list).map (·.second) = list.map (·.second) := by
  rcases List.eq_nil_or_concat list with rfl | ⟨front, b, rfl⟩
  · rfl
  · simp [updateLast_concat, hf]

theorem seconds_prune (retention : Nat) (list : List Bucket) :
    (prune now retention list).map (·.second) =
      (list.map (·.second)).dropWhile (· < now - retention) := by
  rw [List.dropWhile_map]
  rfl

theorem seconds_opened (list : List Bucket) :
    (opened now list).map (·.second) = endingWith now (list.map (·.second)) := by
  unfold opened endingWith
  rw [List.getLast?_map]
  cases hlast : list.getLast? with
  | none => simp [List.getLast?_eq_none_iff.mp hlast]
  | some last =>
    simp only [Option.map_some, Option.some.injEq]
    split_ifs <;> simp

/-- A record opens the bucket for the present, unless it is there, and drops those that are too old
for it. -/
theorem seconds_record {key : EdgeKey} (h : EdgeKey.ofEvent? e = some key) :
    (x.record e now).seconds =
      (endingWith now x.seconds).dropWhile (· < now - x.retention) := by
  have hcount : ∀ b : Bucket, (b.count key e.flow.verdict).second = b.second := fun _ => rfl
  unfold record
  rw [h, seconds, seconds_updateLast hcount, seconds_prune, seconds_opened]
  rfl

/-- Whether a flow with identity at both ends was recorded in a second. -/
def SeenIn (log : List (FlowEvent × Nat)) (second : Nat) : Prop :=
  ∃ r ∈ log, r.2 = second ∧ EdgeKey.ofEvent? r.1 ≠ none

instance (log : List (FlowEvent × Nat)) (second : Nat) : Decidable (SeenIn log second) :=
  inferInstanceAs (Decidable (∃ r ∈ log, _))

/-- There is a bucket for each second in which a flow was seen and that is not too old for a later
one, and each has counted something. -/
structure Orderly (x : Buckets) (log : List (FlowEvent × Nat)) : Prop where
  increasing : x.seconds.Pairwise (· < ·)
  mem_iff : ∀ second, second ∈ x.seconds ↔
    SeenIn log second ∧ ∀ later, SeenIn log later → later - x.retention ≤ second
  counted : ∀ b ∈ x.list, b.edges.keys ≠ []

variable {x e now} {log : List (FlowEvent × Nat)} {key : EdgeKey}

theorem seenIn_concat_iff (second : Nat) :
    SeenIn (log ++ [(e, now)]) second ↔
      SeenIn log second ∨ now = second ∧ EdgeKey.ofEvent? e ≠ none := by
  simp only [SeenIn, List.mem_append, List.mem_singleton, or_and_right, exists_or, exists_eq_left]

theorem orderly_empty (retention : Duration) : Orderly (ofRetention retention) [] where
  increasing := List.Pairwise.nil
  mem_iff second := by simp [seconds, ofRetention, SeenIn]
  counted b hb := nomatch hb

/-- A flow without identity is not counted, and nothing is dropped for it. -/
theorem Orderly.record_unidentified (hx : x.Orderly log) (h : EdgeKey.ofEvent? e = none) :
    (x.record e now).Orderly (log ++ [(e, now)]) := by
  have hseen : ∀ second, SeenIn (log ++ [(e, now)]) second ↔ SeenIn log second := by
    intro second
    simp [seenIn_concat_iff, h]
  rw [x.record_of_unidentified e now h]
  refine ⟨hx.increasing, ?_, hx.counted⟩
  intro second
  simp only [hseen]
  exact hx.mem_iff second

theorem counted_record (hx : x.Orderly log) (h : EdgeKey.ofEvent? e = some key) :
    ∀ b ∈ (x.record e now).list, b.edges.keys ≠ [] := by
  obtain ⟨front, last, -, hlist, hrecord⟩ := x.exists_record e now h
  have hfront : ∀ b ∈ front, b ∈ x.list := by
    rcases hlist with hlist | ⟨hlist, -⟩ <;> simp +contextual [hlist]
  intro b hb
  rw [hrecord, List.mem_append, List.mem_singleton] at hb
  rcases hb with hb | rfl
  · exact hx.counted b (hfront b ((List.dropWhile_sublist _).mem hb))
  · exact List.ne_nil_of_mem ((mem_keys_count last key key e.flow.verdict).mpr (.inr rfl))

theorem Orderly.record_identified (hx : x.Orderly log) (hlog : ∀ r ∈ log, r.2 ≤ now)
    (h : EdgeKey.ofEvent? e = some key) : (x.record e now).Orderly (log ++ [(e, now)]) := by
  have hseen : ∀ second, SeenIn log second → second ≤ now := by
    rintro second ⟨r, hr, rfl, -⟩
    exact hlog r hr
  have hle : ∀ second ∈ x.seconds, second ≤ now := by
    intro second hsecond
    exact hseen second ((hx.mem_iff second).mp hsecond).1
  have hup := pairwise_endingWith hx.increasing hle
  have hseconds := x.seconds_record e now h
  refine ⟨?_, ?_, counted_record hx h⟩
  · rw [hseconds]
    exact hup.sublist (List.dropWhile_sublist _)
  · intro second
    rw [hseconds, mem_dropWhile_older_iff hup, mem_endingWith_iff, retention_record, hx.mem_iff]
    simp only [seenIn_concat_iff, h, ne_eq, reduceCtorEq, not_false_eq_true, and_true]
    constructor
    · rintro ⟨⟨hsecond, hkept⟩ | rfl, hnew⟩
      · refine ⟨.inl hsecond, ?_⟩
        rintro later (hlater | rfl)
        · exact hkept later hlater
        · exact hnew
      · refine ⟨.inr rfl, ?_⟩
        rintro later (hlater | rfl)
        · have := hseen later hlater
          omega
        · exact hnew
    · rintro ⟨hsecond | rfl, hkept⟩
      · exact ⟨.inl ⟨hsecond, fun later hlater => hkept later (.inl hlater)⟩, hkept now (.inr rfl)⟩
      · exact ⟨.inr rfl, hkept _ (.inr rfl)⟩

theorem orderly_recordAll (retention : Duration) (log : List (FlowEvent × Nat))
    (hclock : (log.map (·.2)).Pairwise (· ≤ ·)) :
    ((ofRetention retention).recordAll log).Orderly log := by
  induction log using List.reverseRecOn with
  | nil => exact orderly_empty retention
  | append_singleton log r ih =>
    obtain ⟨e, now⟩ := r
    simp only [List.map_append, List.map_cons, List.map_nil, List.pairwise_append, List.mem_map,
      List.mem_singleton, forall_eq] at hclock
    have hpast := ih hclock.1
    rw [recordAll_concat]
    cases h : EdgeKey.ofEvent? e with
    | none => exact hpast.record_unidentified h
    | some key =>
      refine hpast.record_identified ?_ h
      intro r hr
      exact hclock.2.2 r.2 ⟨r, hr, rfl⟩

/-- From the latest bucket the others reach back no further than the retention. -/
theorem Orderly.length_list_le (hx : x.Orderly log) : x.list.length ≤ x.retention + 1 := by
  have hlength : x.list.length = x.seconds.length := (List.length_map _).symm
  rw [hlength]
  rcases List.eq_nil_or_concat x.seconds with hnil | ⟨front, last, hlast⟩
  · simp [hnil]
  · have hup := hx.increasing
    have hseen : SeenIn log last := ((hx.mem_iff last).mp (by simp [hlast])).1
    refine length_le_of_stretch (t := last) hup x.retention ?_
    intro s hs
    refine ⟨((hx.mem_iff s).mp hs).2 last hseen, ?_⟩
    rw [hlast, List.concat_eq_append, List.pairwise_append] at hup
    rw [hlast, List.concat_eq_append, List.mem_append, List.mem_singleton] at hs
    rcases hs with hs | rfl
    · exact (hup.2.2 s hs last (List.mem_singleton_self _)).le
    · exact le_rfl

/-- As long as the clock does not go back, there are never more buckets than the retention has
seconds, and one. Whenever a flow with identity at both ends is recorded, the buckets go up from the
end of the retention to the second of this flow, which is the last one; each of them has counted
something, and no second in between in which such a flow was seen is without its bucket. -/
theorem buckets_go_up_to_latest (retention : Duration) (log : List (FlowEvent × Nat))
    (hclock : (log.map (·.2)).Pairwise (· ≤ ·)) :
    let x := (ofRetention retention).recordAll log
    let kept := max 1 retention.seconds
    x.list.length ≤ kept + 1 ∧
    ∀ past e now, log = past ++ [(e, now)] → EdgeKey.ofEvent? e ≠ none →
      x.seconds.Pairwise (· < ·) ∧
      x.seconds.getLast? = some now ∧
      (∀ b ∈ x.list, now - kept ≤ b.second ∧ b.second ≤ now ∧ b.edges.keys ≠ []) ∧
      ∀ second, second ∈ x.seconds ↔ now - kept ≤ second ∧ SeenIn log second := by
  intro x kept
  have hx : x.Orderly log := orderly_recordAll retention log hclock
  have hretention : x.retention = kept := retention_recordAll (ofRetention retention) log
  refine ⟨hretention ▸ hx.length_list_le, ?_⟩
  rintro past e now hlog he
  have hnow : SeenIn log now := ⟨(e, now), by simp [hlog], rfl, he⟩
  have hlatest : ∀ second, SeenIn log second → second ≤ now := by
    rintro second ⟨r, hr, rfl, -⟩
    rw [hlog, List.map_append, List.pairwise_append] at hclock
    rw [hlog, List.mem_append, List.mem_singleton] at hr
    rcases hr with hr | rfl
    · exact hclock.2.2 r.2 (List.mem_map_of_mem hr) now (List.mem_singleton_self _)
    · exact le_rfl
  have hmem : ∀ second, second ∈ x.seconds ↔ now - kept ≤ second ∧ SeenIn log second := by
    intro second
    rw [hx.mem_iff, hretention]
    constructor
    · rintro ⟨hsecond, hkept⟩
      exact ⟨hkept now hnow, hsecond⟩
    · rintro ⟨hkept, hsecond⟩
      refine ⟨hsecond, fun later hlater => ?_⟩
      have := hlatest later hlater
      omega
  have hle : ∀ second ∈ x.seconds, second ≤ now :=
    fun second hsecond => hlatest second ((hmem second).mp hsecond).2
  refine ⟨hx.increasing, ?_, ?_, hmem⟩
  · rw [getLast?_eq_some_iff_mem hx.increasing hle, hmem]
    exact ⟨Nat.sub_le _ _, hnow⟩
  · intro b hb
    have hsecond : b.second ∈ x.seconds := List.mem_map_of_mem hb
    exact ⟨((hmem b.second).mp hsecond).1, hle b.second hsecond, hx.counted b hb⟩

/-- Two flows in one second, a gap as long as the retention, and a flow without identity in the
second before the last. -/
def unhurried : List (FlowEvent × Nat) :=
  [(purchase .forwarded, 3), (purchase .dropped, 3), (purchase .forwarded, 5),
    ({ purchase .dropped with source := none }, 6), (purchase .forwarded, 7)]

theorem buckets_go_up_to_latest_unhurried :
    (unhurried.map (·.2)).Pairwise (· ≤ ·) ∧ EdgeKey.ofEvent? (purchase .forwarded) ≠ none ∧
      let x := (ofRetention (.ofSeconds 2)).recordAll unhurried
      x.list.length ≤ 3 ∧ x.seconds.getLast? = some 7 ∧ 5 ∈ x.seconds ∧ 3 ∉ x.seconds ∧
        6 ∉ x.seconds := by
  have hclock : (unhurried.map (·.2)).Pairwise (· ≤ ·) := by decide
  have hidentified : EdgeKey.ofEvent? (purchase .forwarded) ≠ none := by decide
  obtain ⟨hlength, hrecord⟩ := buckets_go_up_to_latest (.ofSeconds 2) unhurried hclock
  obtain ⟨-, hlast, -, hmem⟩ := hrecord (unhurried.take 4) (purchase .forwarded) 7 rfl hidentified
  refine ⟨hclock, hidentified, hlength, hlast, ?_, ?_, ?_⟩ <;>
    rw [hmem] <;> decide

end Buckets
end ServiceMap
end FlowObserver
