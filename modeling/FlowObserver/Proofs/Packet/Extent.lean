import FlowObserver.Proofs.Packet.Encapsulation
import FlowObserver.Proofs.Packet.Steps

/-!
# How far a walk goes

The headers that a walk passes stand one behind the other from the first byte of the packet on.
Each of them but the last lies wholly in the packet, because the fixed part of the next one does.
The last one does so too, unless it is an IPv4 header with nothing behind it to read: its options are
skipped and may be cut off, and then the walk ends behind the packet.
-/

namespace FlowObserver
namespace Packet

open Layout

/-- A header and the position where it begins. -/
structure Header where
  layer : Layer
  start : Nat
  deriving DecidableEq, Repr

namespace Header

variable (packet : Bytes) (x : Header)

def stop : Nat := x.start + headerSize packet x.layer x.start

abbrev Whole : Prop := x.stop packet ≤ packet.length

end Header

/-- Headers that could be entered, one behind the other between two positions. -/
def Row (packet : Bytes) : Nat → List Header → Nat → Prop
  | start, [], stop => start = stop
  | start, x :: rest, stop =>
    (x.start = start ∧ x.layer.isHeader = true ∧ enters packet x.layer start) ∧
      Row packet (x.stop packet) rest stop

namespace Row

variable {packet : Bytes} {start stop : Nat} {headers : List Header}

theorem start_le (h : Row packet start headers stop) (hne : headers ≠ []) :
    start ≤ packet.length := by
  cases headers with
  | nil => exact absurd rfl hne
  | cons x rest =>
    obtain ⟨⟨-, -, hlies, -⟩, -⟩ := h
    omega

/-- A header with another one behind it is whole. -/
theorem exists_last (h : Row packet start headers stop) (hne : headers ≠ []) :
    ∃ front last, headers = front ++ [last] ∧ (∀ x ∈ front, x.Whole packet) ∧
      last.stop packet = stop ∧ enters packet last.layer last.start := by
  induction headers generalizing start with
  | nil => exact absurd rfl hne
  | cons x rest ih =>
    obtain ⟨⟨rfl, -, henters⟩, hrest⟩ := h
    by_cases hempty : rest = []
    · rw [hempty] at hrest ⊢
      exact ⟨[], x, rfl, fun y hy => absurd hy List.not_mem_nil, hrest, henters⟩
    · obtain ⟨front, last, hrow, hwhole, hlast⟩ := ih hrest hempty
      refine ⟨x :: front, last, ?_, ?_, hlast⟩
      · rw [hrow, List.cons_append]
      · exact List.forall_mem_cons.mpr ⟨hrest.start_le hempty, hwhole⟩

end Row

namespace Walk

variable {packet : Bytes} {w w' : Walk}

/-- The headers that a walk passes are those over which its offset moves. -/
def passed (packet : Bytes) : (steps : Nat) → Walk → List Header
  | 0, _ => []
  | steps + 1, w =>
    if w.ended then []
    else
      match w.step packet with
      | none => []
      | some w' =>
        if w'.offset = w.offset then passed packet steps w'
        else ⟨w.next, w.offset.toNat⟩ :: passed packet steps w'

theorem isHeader_of_not_ended (h : w.ended = false) : w.next.isHeader = true := by
  unfold ended at h
  cases hn : w.next <;> simp [hn, Layer.isHeader] at h ⊢

theorem step_cases (hw : w.ended = false) (h : w.step packet = some w') :
    (enters packet w.next w.offset.toNat ∧
      w'.offset = w.skip (headerSize packet w.next w.offset.toNat) ∧ w'.offset ≠ w.offset) ∨
    w.next = .vxlan ∧ w' = { w with next := .complete } := by
  have hlayer := isHeader_of_not_ended hw
  rw [step_eq_readAs] at h
  by_cases henters : enters packet w.next w.offset.toNat
  · obtain ⟨moved, hread, hoffset⟩ := readAs_of_enters hlayer henters
    obtain rfl : moved = w' := Option.some.inj (hread.symm.trans h)
    refine Or.inl ⟨henters, hoffset, ?_⟩
    have hleast := eight_le_fixedSize hlayer
    have hsize := fixedSize_le_headerSize henters.2
    have hmost := (headerSize_le packet w.next w.offset.toNat).2
    have hlt := w.offset.toNat_lt
    generalize headerSize packet w.next w.offset.toNat = size at *
    intro heq
    have hnat := congrArg UInt64.toNat (hoffset.symm.trans heq)
    have hsmall : size < 2 ^ 64 := by omega
    rw [skip, UInt64.toNat_add, UInt64.toNat_ofNat_of_lt' hsmall] at hnat
    omega
  · rw [readAs_of_not_enters hlayer henters] at h
    split_ifs at h with hvxlan
    exact Or.inr ⟨hvxlan, (Option.some.inj h).symm⟩

theorem passed_of_ended {steps : Nat} (h : w.ended = true) : passed packet steps w = [] := by
  cases steps with
  | zero => rfl
  | succ steps => rw [passed, if_pos h]

theorem passed_succ {steps : Nat} (hw : w.ended = false) (h : w.step packet = some w') :
    passed packet (steps + 1) w =
      if w'.offset = w.offset then passed packet steps w'
      else ⟨w.next, w.offset.toNat⟩ :: passed packet steps w' := by
  rw [passed, hw, if_neg Bool.false_ne_true, h]

theorem run_succ {steps : Nat} (hw : w.ended = false) :
    run packet (steps + 1) w = (w.step packet).bind (run packet steps) := by
  rw [run, hw, if_neg Bool.false_ne_true]

theorem row_passed {steps : Nat} {last : Walk} (hrun : run packet steps w = some last)
    (hroom : w.offset.toNat + 60 * steps < 2 ^ 64) :
    Row packet w.offset.toNat (passed packet steps w) last.offset.toNat := by
  induction steps generalizing w with
  | zero =>
    obtain rfl : w = last := Option.some.inj hrun
    rfl
  | succ steps ih =>
    cases hw : w.ended with
    | true =>
      rw [run, if_pos hw] at hrun
      obtain rfl : w = last := Option.some.inj hrun
      rw [passed_of_ended hw]
      rfl
    | false =>
      rw [run_succ hw] at hrun
      obtain ⟨w', hstep, hrun⟩ := Option.bind_eq_some_iff.mp hrun
      rw [passed_succ hw hstep]
      rcases step_cases hw hstep with ⟨henters, hoffset, hmoved⟩ | ⟨-, rfl⟩
      · have hmost := (headerSize_le packet w.next w.offset.toNat).2
        have hstop : w'.offset.toNat =
            w.offset.toNat + headerSize packet w.next w.offset.toNat := by
          rw [hoffset]
          exact toNat_add_ofNat (by omega)
        rw [if_neg hmoved]
        refine ⟨⟨rfl, isHeader_of_not_ended hw, henters⟩, ?_⟩
        have hrow := ih hrun (by omega)
        rwa [hstop] at hrow
      · rw [if_pos rfl]
        exact ih hrun (by dsimp only; omega)

theorem portless_iff_of_read {h : Ipv4} (hread : Ipv4.read? packet w.offset = some h) :
    portless packet w.offset.toNat ↔
      h.fragmentOffset ≠ 0 ∨ h.protocol ≠ tcpProtocol ∧ h.protocol ≠ udpProtocol := by
  rw [Ipv4.read?] at hread
  split_ifs at hread with hfits
  have hlies : lies packet w.offset.toNat 20 := hfits
  obtain rfl := Option.some.inj hread
  simp only [Ipv4.fragmentOffset, ne_eq, byteAt_eq_iff]
  rw [toNat_wordAt (by omega)]
  rfl

/-- A transport header is looked for behind every IPv4 header that may have one. -/
theorem ipv4_leads_transport (h : w.ipv4 packet = some w')
    (hports : ¬portless packet w.offset.toNat) : w'.ended = false ∧ w'.next ≠ .vxlan := by
  cases hread : Ipv4.read? packet w.offset with
  | none =>
    rw [ipv4_of_not_read hread] at h
    cases h
  | some header =>
    rw [portless_iff_of_read hread] at hports
    rw [ipv4_of_read hread] at h
    split_ifs at h with hvalid hfragment htcp hudp
    · exact absurd (Or.inl hfragment) hports
    · obtain rfl := Option.some.inj h
      exact ⟨rfl, by simp⟩
    · obtain rfl := Option.some.inj h
      exact ⟨rfl, by simp⟩
    · exact absurd (Or.inr ⟨htcp, hudp⟩) hports

/-- A walk that reached its end has passed the header that it stood at, if that one is needed. -/
theorem passed_ne_nil {steps : Nat} {last : Walk} (hrun : run packet steps w = some last)
    (hended : last.ended = true) (hw : w.ended = false) (hvxlan : w.next ≠ .vxlan) :
    passed packet steps w ≠ [] := by
  cases steps with
  | zero =>
    obtain rfl : w = last := Option.some.inj hrun
    rw [hw] at hended
    cases hended
  | succ steps =>
    rw [run_succ hw] at hrun
    obtain ⟨w', hstep, -⟩ := Option.bind_eq_some_iff.mp hrun
    rw [passed_succ hw hstep]
    rcases step_cases hw hstep with ⟨-, -, hmoved⟩ | ⟨hvxlan', -⟩
    · rw [if_neg hmoved]
      exact List.cons_ne_nil _ _
    · exact absurd hvxlan' hvxlan

theorem portless_of_last {steps : Nat} {last : Walk} (hrun : run packet steps w = some last)
    (hended : last.ended = true) {front : List Header} {i : Nat}
    (hpassed : passed packet steps w = front ++ [⟨.ipv4, i⟩]) : portless packet i := by
  induction steps generalizing w front with
  | zero => simp [passed] at hpassed
  | succ steps ih =>
    cases hw : w.ended with
    | true => simp [passed, hw] at hpassed
    | false =>
      rw [run_succ hw] at hrun
      obtain ⟨w', hstep, hrun⟩ := Option.bind_eq_some_iff.mp hrun
      rw [passed_succ hw hstep] at hpassed
      split_ifs at hpassed
      · exact ih hrun hpassed
      · cases front with
        | cons x front => exact ih hrun (List.cons.inj hpassed).2
        | nil =>
          -- nothing was passed behind this header, so no transport header was looked for
          obtain ⟨hhead, htail⟩ := List.cons.inj hpassed
          obtain ⟨hipv4, rfl⟩ := Header.mk.inj hhead
          rw [step_eq_readAs, hipv4] at hstep
          by_contra hports
          obtain ⟨hgoes, hvxlan⟩ := ipv4_leads_transport hstep hports
          exact passed_ne_nil hrun hended hgoes hvxlan htail

end Walk

theorem exists_run_of_classify {packet : Bytes} {timestamp : UInt64} {r : WireRecord}
    (h : classify packet timestamp = some r) :
    ∃ w, Walk.run packet maxSteps {} = some w ∧ w.next = .complete := by
  obtain ⟨w, hrun, h⟩ := Option.bind_eq_some_iff.mp h
  obtain ⟨_, hguard, -⟩ := Option.bind_eq_some_iff.mp h
  unfold guard at hguard
  split_ifs at hguard with hcomplete
  exact ⟨w, hrun, hcomplete.1⟩

/-- Where a packet gives a record, the headers that were walked stand one behind the other from its
first byte on, and all but the last lie wholly in the packet, IPv4 options included. The last one
does so exactly if the walk ends within the packet. Otherwise it is an IPv4 header with nothing to
read behind it, a later fragment or a protocol without ports, of whose options up to 40 bytes are
missing. -/
theorem headers_of_classify {packet : Bytes} {timestamp : UInt64} {r : WireRecord}
    (h : classify packet timestamp = some r) :
    ∃ w, Walk.run packet maxSteps {} = some w ∧
      let headers := Walk.passed packet maxSteps {}
      Row packet 0 headers w.offset.toNat ∧
      ((∀ x ∈ headers, x.Whole packet) ↔ w.offset.toNat ≤ packet.length) ∧
      ∃ front last, headers = front ++ [last] ∧ (∀ x ∈ front, x.Whole packet) ∧
        (packet.length < w.offset.toNat ↔
          last.layer = .ipv4 ∧ portless packet last.start ∧
            packet.length < transport packet last.start) ∧
        w.offset.toNat ≤ packet.length + 40 := by
  obtain ⟨w, hrun, hcomplete⟩ := exists_run_of_classify h
  refine ⟨w, hrun, ?_⟩
  intro headers
  have hended : w.ended = true := by
    unfold Walk.ended
    rw [hcomplete]
    rfl
  have hrow : Row packet 0 headers w.offset.toNat := Walk.row_passed hrun (by decide)
  have hne : headers ≠ [] := Walk.passed_ne_nil hrun hended rfl (by decide)
  obtain ⟨front, last, hheaders, hwhole, hstop, hlies, hmarked⟩ := hrow.exists_last hne
  have hlast : last.Whole packet ↔ w.offset.toNat ≤ packet.length := by
    rw [Header.Whole, hstop]
  have hsize := headerSize_le packet last.layer last.start
  refine ⟨hrow, ?_, front, last, hheaders, hwhole, ?_, ?_⟩
  · rw [hheaders, List.forall_mem_append, List.forall_mem_singleton, hlast]
    exact and_iff_right hwhole
  · rw [← hstop]
    constructor
    · intro hbehind
      have hipv4 : last.layer = .ipv4 := by
        by_contra hother
        rw [Header.stop, headerSize_eq_fixedSize hother] at hbehind
        omega
      obtain ⟨layer, i⟩ := last
      obtain rfl : layer = .ipv4 := hipv4
      exact ⟨rfl, Walk.portless_of_last hrun hended hheaders, hbehind⟩
    · rintro ⟨hipv4, -, hbehind⟩
      rwa [Header.stop, hipv4]
  · rw [← hstop, Header.stop]
    omega

/-- An ICMP packet that ends with the fixed part of its IPv4 header, whose 40 bytes of options are
missing. -/
def clippedEcho : Bytes :=
  [0, 0, 0, 0, 0, 0, 0, 0, 0, 0, 0, 0, 8, 0] ++
  [0x4F, 0, 0, 0, 0, 0, 0, 0, 64, 1, 0, 0, 10, 0, 0, 3, 10, 0, 0, 4]

/-- In a tunnel the headers outside are whole whatever is missing inside. -/
theorem headers_of_classify_clipped :
    let packet := fragmentHeaders ++ clippedEcho
    (∃ r, classify packet 7 = some r) ∧
      ∃ w, Walk.run packet maxSteps {} = some w ∧ w.offset.toNat = packet.length + 40 ∧
        Walk.passed packet maxSteps {} =
          [⟨.ethernet, 0⟩, ⟨.ipv4, 14⟩, ⟨.udp, 38⟩, ⟨.vxlan, 46⟩, ⟨.ethernet, 54⟩] ++ [⟨.ipv4, 68⟩] ∧
        ¬∀ x ∈ Walk.passed packet maxSteps {}, x.Whole packet := by
  intro packet
  have hrecord : classify packet 7 = some
      { sourceAddress := 0x0A000003, destinationAddress := 0x0A000004, protocol := 1, verdict := 1,
        flags := 1, timestamp := 7 } := by decide
  obtain ⟨w, hrun, hrow, hwhole, -⟩ := headers_of_classify hrecord
  have hoffset : (Walk.run packet maxSteps {}).map (·.offset.toNat) = some (packet.length + 40) := by
    decide
  rw [hrun, Option.map_some, Option.some_inj] at hoffset
  refine ⟨⟨_, hrecord⟩, w, hrun, hoffset, by decide, ?_⟩
  rw [hwhole, hoffset]
  omega

/-- A record is given although the only IPv4 header is cut off. -/
theorem clipped_options_give_record :
    ∃ r w, classify clippedEcho 7 = some r ∧ Walk.run clippedEcho maxSteps {} = some w ∧
      ¬(∀ x ∈ Walk.passed clippedEcho maxSteps {}, x.Whole clippedEcho) ∧
      ¬w.offset.toNat ≤ clippedEcho.length := by
  refine ⟨
    { sourceAddress := 0x0A000003, destinationAddress := 0x0A000004, protocol := 1, verdict := 1,
      timestamp := 7 },
    { offset := 74, next := .complete, record :=
      { sourceAddress := 0x0A000003, destinationAddress := 0x0A000004, protocol := 1 } },
    by decide, rfl, by decide, by decide⟩

end Packet
end FlowObserver
