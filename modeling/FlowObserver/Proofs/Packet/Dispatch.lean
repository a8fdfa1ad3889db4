import FlowObserver.Proofs.Packet.Extent

/-!
# How many calls a walk takes

Whatever a walk holds, wherever it stands and whichever header it expects, header after header is
read by at most seven calls before one of them fails or nothing is left to read. So a limit of eight
calls is never what ends a walk. The only way back leads through a VXLAN header into a tunnel, and
there is no such way from within one.
-/

namespace FlowObserver
namespace Packet
namespace Walk

variable {packet : Bytes} {w w' : Walk}

/-- How the calls from a walk on end, and after how many of them; a call that fails counts. -/
inductive Ends (packet : Bytes) : Walk → Nat → EStateM.Result Unit Walk Unit → Prop
  | ended {w : Walk} : w.ended = true → Ends packet w 0 (.ok () w)
  | failed {w w' : Walk} : w.ended = false →
      Edit.readAs packet w.next w = .error () w' → Ends packet w 1 (.error () w')
  | moved {w w' : Walk} {calls : Nat} {result : EStateM.Result Unit Walk Unit} :
      w.ended = false → Edit.readAs packet w.next w = .ok () w' → Ends packet w' calls result →
      Ends packet w (calls + 1) result

theorem call_eq (packet : Bytes) (w : Walk) :
    Edit.readAs packet w.next w = Edit.whole w (w.step packet) := by
  rw [Edit.readAs_eq, step_eq_readAs]

/-- The rank bounds the calls. -/
theorem exists_ends (packet : Bytes) (w : Walk) :
    ∃ calls ≤ w.rank, ∃ result, Ends packet w calls result := by
  induction hrank : w.rank using Nat.strong_induction_on generalizing w with
  | _ rank ih =>
    cases hw : w.ended with
    | true => exact ⟨0, Nat.zero_le _, _, .ended hw⟩
    | false =>
      have hcall := call_eq packet w
      cases hstep : w.step packet with
      | none =>
        have hpos : w.rank ≠ 0 := fun h => by simp [ended_of_rank_eq_zero h] at hw
        rw [hstep] at hcall
        exact ⟨1, by omega, _, .failed hw hcall⟩
      | some w' =>
        have hlt : w'.rank < w.rank := rank_lt_of_step hw hstep
        obtain ⟨calls, hcalls, result, hends⟩ := ih w'.rank (by omega) w' rfl
        rw [hstep] at hcall
        exact ⟨calls + 1, by omega, result, .moved hw hcall hends⟩

/-- Reads header after header in place, by at most so many calls. -/
def dispatch (packet : Bytes) : (limit : Nat) → Edit Unit
  | 0 => pure ()
  | limit + 1 => do
    let w ← get
    if w.ended then return
    Edit.readAs packet w.next
    dispatch packet limit

theorem dispatch_of_ended (limit : Nat) (hw : w.ended = true) :
    dispatch packet limit w = .ok () w := by
  cases limit with
  | zero => rfl
  | succ limit =>
    change (if w.ended then pure () else Edit.readAs packet w.next >>= fun _ =>
      dispatch packet limit : Edit Unit) w = _
    rw [if_pos hw]
    rfl

theorem dispatch_succ (limit : Nat) (hw : w.ended = false) :
    dispatch packet (limit + 1) w = match w.step packet with
      | some w' => dispatch packet limit w'
      | none => .error () w := by
  change (if w.ended then pure () else Edit.readAs packet w.next >>= fun _ =>
    dispatch packet limit : Edit Unit) w = _
  rw [if_neg (by simp [hw])]
  change EStateM.bind (Edit.readAs packet w.next) (fun _ => dispatch packet limit) w = _
  rw [EStateM.bind, call_eq]
  cases w.step packet <;> rfl

/-- A limit that leaves room for all calls has no part in how they end. -/
theorem Ends.dispatch_eq {calls : Nat} {result : EStateM.Result Unit Walk Unit}
    (h : Ends packet w calls result) (more : Nat) :
    dispatch packet (calls + more) w = result := by
  induction h with
  | ended hw => exact dispatch_of_ended _ hw
  | @failed w w' hw hcall =>
    rw [call_eq] at hcall
    rw [Nat.add_comm, dispatch_succ _ hw]
    cases hstep : w.step packet with
    | none =>
      rw [hstep] at hcall
      exact hcall
    | some _ =>
      rw [hstep] at hcall
      cases hcall
  | @moved w w' calls result hw hcall _ ih =>
    rw [call_eq] at hcall
    rw [Nat.add_right_comm, dispatch_succ _ hw]
    cases hstep : w.step packet with
    | none =>
      rw [hstep] at hcall
      cases hcall
    | some _ =>
      rw [hstep] at hcall
      cases hcall
      exact ih

/-- What is left of reading in place when a failure has no state. -/
def reached : EStateM.Result Unit Walk Unit → Option Walk
  | .ok _ w => some w
  | .error _ _ => none

theorem run_eq_reached (packet : Bytes) (limit : Nat) (w : Walk) :
    run packet limit w = reached (dispatch packet limit w) := by
  induction limit generalizing w with
  | zero => rfl
  | succ limit ih =>
    cases hw : w.ended with
    | true =>
      rw [dispatch_of_ended _ hw, run, if_pos hw]
      rfl
    | false =>
      rw [run_succ hw, dispatch_succ _ hw]
      cases w.step packet with
      | none => rfl
      | some w' => exact ih w'

def tunnelsLeft (w : Walk) : Nat := if w.tunneled && w.next ≠ .vxlan then 0 else 1

theorem tunnelsLeft_le_one (w : Walk) : w.tunnelsLeft ≤ 1 := by
  unfold tunnelsLeft
  split_ifs <;> omega

theorem tunneled_step (hnext : w.next ≠ .vxlan) (h : w.step packet = some w') :
    w'.tunneled = w.tunneled := by
  unfold step at h
  cases hn : w.next <;> simp only [hn] at h
  case ethernet => exact (ethernet_leads h).1
  case ipv4 => exact (ipv4_leads h).1
  case tcp =>
    obtain ⟨_, -, rfl⟩ := Option.map_eq_some_iff.mp h
    rfl
  case udp =>
    obtain ⟨_, -, rfl⟩ := Option.map_eq_some_iff.mp h
    rfl
  case vxlan => exact absurd hn hnext
  case complete | unsupported =>
    cases h
    rfl

/-- A VXLAN header is expected only outside tunnels. -/
theorem next_step_ne_vxlan (ht : w.tunneled = true) (hnext : w.next ≠ .vxlan)
    (h : w.step packet = some w') : w'.next ≠ .vxlan := by
  unfold step at h
  cases hn : w.next <;> simp only [hn] at h
  case ethernet =>
    obtain ⟨-, hn' | hn'⟩ := ethernet_leads h <;> simp [hn']
  case ipv4 =>
    obtain ⟨-, hn' | hn' | hn'⟩ := ipv4_leads h <;> simp [hn']
  case tcp => simp [tcp_leads h]
  case udp =>
    obtain hn' | ⟨-, hout⟩ := udp_leads h
    · simp [hn']
    · simp [ht] at hout
  case vxlan => exact absurd hn hnext
  case complete | unsupported =>
    cases h
    simp [hn]

/-- A VXLAN header that is skipped leads into a tunnel. -/
theorem vxlan_step (hnext : w.next = .vxlan) (h : w.step packet = some w')
    (hmoved : w'.offset ≠ w.offset) : w'.tunneled = true ∧ w'.next = .ethernet := by
  unfold step vxlan at h
  simp only [hnext] at h
  split at h
  · split_ifs at h <;> cases h
    · exact ⟨rfl, rfl⟩
    · exact absurd rfl hmoved
  · cases h
    exact absurd rfl hmoved

theorem tunnelsLeft_step (h : w.step packet = some w') :
    (if w'.offset ≠ w.offset ∧ w.next = .vxlan then 1 else 0) + w'.tunnelsLeft ≤
      w.tunnelsLeft := by
  by_cases hnext : w.next = .vxlan
  · have hleft : w.tunnelsLeft = 1 := by simp [tunnelsLeft, hnext]
    split_ifs with hmoved
    · obtain ⟨ht, hn'⟩ := vxlan_step hnext h hmoved.1
      simp [tunnelsLeft, hnext, hn', ht]
    · have hone := w'.tunnelsLeft_le_one
      omega
  · rw [if_neg fun hmoved => hnext hmoved.2, Nat.zero_add]
    have ht := tunneled_step hnext h
    cases hb : w.tunneled with
    | true =>
      have hn' := next_step_ne_vxlan hb hnext h
      simp [tunnelsLeft, hn', ht, hb]
    | false => simpa [tunnelsLeft, hb] using w'.tunnelsLeft_le_one

theorem countP_vxlan_passed_le (packet : Bytes) (limit : Nat) (w : Walk) :
    (passed packet limit w).countP (·.layer = .vxlan) ≤ w.tunnelsLeft := by
  induction limit generalizing w with
  | zero => exact Nat.zero_le _
  | succ limit ih =>
    cases hw : w.ended with
    | true =>
      rw [passed_of_ended hw]
      exact Nat.zero_le _
    | false =>
      cases hstep : w.step packet with
      | none => simp [passed, hw, hstep]
      | some w' =>
        have hleft := tunnelsLeft_step hstep
        have hrest := ih w'
        rw [passed_succ hw hstep]
        split_ifs with hoffset
        · omega
        · rw [List.countP_cons]
          simp only [ne_eq, hoffset, not_false_eq_true, true_and, decide_eq_true_eq] at hleft ⊢
          omega

/-- From any walk there are at most seven calls before one fails or nothing is left to read, so that
reading with a limit of eight calls, or with any larger one, ends in the same way and with the same
walk. At most one VXLAN header is skipped meanwhile, and none from within a tunnel. -/
theorem limit_never_decides (packet : Bytes) (w : Walk) :
    (∃ calls ≤ 7, ∃ result, Ends packet w calls result ∧
      ∀ more, dispatch packet (calls + more) w = result) ∧
    (∀ more, dispatch packet (maxSteps + more) w = dispatch packet maxSteps w ∧
      run packet (maxSteps + more) w = run packet maxSteps w) ∧
    ∀ limit, (passed packet limit w).countP (·.layer = .vxlan) ≤
      if w.tunneled = true ∧ w.next ≠ .vxlan then 0 else 1 := by
  obtain ⟨calls, hcalls, result, hends⟩ := exists_ends packet w
  have hseven : calls ≤ 7 := hcalls.trans w.rank_le_seven
  have hlimit (more : Nat) : dispatch packet (maxSteps + more) w = result := by
    have hroom : maxSteps + more = calls + (maxSteps - calls + more) := by
      unfold maxSteps
      omega
    rw [hroom]
    exact hends.dispatch_eq _
  have hsame (more : Nat) :
      dispatch packet (maxSteps + more) w = dispatch packet maxSteps w :=
    (hlimit more).trans (hlimit 0).symm
  refine ⟨⟨calls, hseven, result, hends, hends.dispatch_eq⟩, fun more => ⟨hsame more, ?_⟩, ?_⟩
  · rw [run_eq_reached, run_eq_reached, hsame]
  · intro limit
    simpa [tunnelsLeft] using countP_vxlan_passed_le packet limit w

def segmentFrame : Bytes :=
  [0, 0, 0, 0, 0, 0, 0, 0, 0, 0, 0, 0, 8, 0] ++
  [0x45, 0, 0, 0, 0, 0, 0, 0, 64, 6, 0, 0, 10, 0, 0, 3, 10, 0, 0, 4] ++
  [0x1F, 0x90, 0, 80, 0, 0, 0, 0, 0, 0, 0, 0, 0x50, 2, 0, 0, 0, 0, 0, 0]

/-- A tunnel that carries a segment needs all seven calls. -/
example :
    let packet := fragmentHeaders ++ segmentFrame
    (run packet 6 {}).map (·.next) = some .tcp ∧
      (run packet 7 {}).map (·.next) = some .complete := by decide

end Walk
end Packet
end FlowObserver
