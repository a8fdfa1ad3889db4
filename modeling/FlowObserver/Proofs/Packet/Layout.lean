import FlowObserver.Flow.Basic
import FlowObserver.Proofs.Packet.Progress
import Mathlib.Data.Nat.Bitwise

/-!
# The layout of a packet

Which flow a packet shows, read off byte positions alone: no walk, no state and no bound on steps.
An IPv4 frame at `base` gives a flow of its own; where it is the outer frame of a VXLAN tunnel, the
inner frame, which may open no tunnel, gives the flow instead. `classify` reports exactly this flow.
-/

namespace FlowObserver
namespace WireRecord

/-- The record of the flow between these ends, with nothing else filled in. -/
def ofTuple (t : FiveTuple) : WireRecord where
  sourceAddress := t.source
  destinationAddress := t.destination
  sourcePort := t.sourcePort
  destinationPort := t.destinationPort
  protocol := t.protocol

theorem padding_toBytes (r : WireRecord) : r.toBytes[15]? = some 0 := rfl

end WireRecord

namespace Packet

/-- What the bytes of a packet say about its flow. -/
structure Reading where
  tuple : FiveTuple
  tunneled : Bool := false

/-- The record of a reading; none for a flow with a zero address. -/
def Reading.record? (timestamp : UInt64) (f : Reading) : Option WireRecord :=
  if f.tuple.source = 0 ∨ f.tuple.destination = 0 then none
  else some { WireRecord.ofTuple f.tuple with
    verdict := 1, flags := if f.tunneled then 1 else 0, timestamp }

namespace Layout

variable (packet : Bytes)

abbrev lies (i count : Nat) : Prop := i + count ≤ packet.length

def octet (i : Nat) : Nat := (packet.getD i 0).toNat

def short (i : Nat) : Nat := 256 * octet packet i + octet packet (i + 1)

def long (i : Nat) : Nat := 65536 * short packet i + short packet (i + 2)

/-- An Ethernet header that announces IPv4, and a well-formed IPv4 header behind it. -/
abbrev frame (base : Nat) : Prop :=
  (lies packet base 14 ∧ octet packet (base + 12) = 0x08 ∧ octet packet (base + 13) = 0x00) ∧
  lies packet (base + 14) 20 ∧
  octet packet (base + 14) / 16 = 4 ∧ 5 ≤ octet packet (base + 14) % 16

/-- Where the IPv4 header ends. -/
def transport (ip : Nat) : Nat := ip + 4 * (octet packet ip % 16)

/-- A later fragment, or a protocol that is neither TCP nor UDP. -/
abbrev portless (ip : Nat) : Prop :=
  short packet (ip + 6) % 8192 ≠ 0 ∨ (octet packet (ip + 9) ≠ 6 ∧ octet packet (ip + 9) ≠ 17)

/-- The fixed part of a TCP or UDP header. -/
def transportSize (ip : Nat) : Nat := if octet packet (ip + 9) = 6 then 20 else 8

/-- UDP to the VXLAN port, and a whole VXLAN header with its I flag behind it. -/
abbrev tunnel (ip : Nat) : Prop :=
  octet packet (ip + 9) = 17 ∧ short packet (transport packet ip + 2) = 4789 ∧
  lies packet (transport packet ip + 8) 8 ∧
  (octet packet (transport packet ip + 8)).testBit 3 = true

def tuple (ip sourcePort destinationPort : Nat) : FiveTuple where
  source := UInt32.ofNat (long packet (ip + 12))
  destination := UInt32.ofNat (long packet (ip + 16))
  sourcePort := UInt16.ofNat sourcePort
  destinationPort := UInt16.ofNat destinationPort
  protocol := packet.getD (ip + 9) 0

/-- The flow of the frame at `base`. -/
def flow (base : Nat) (tunnelAllowed : Bool) : Option Reading :=
  let ip := base + 14
  let t := transport packet ip
  if ¬ frame packet base then none
  else if portless packet ip then some ⟨tuple packet ip 0 0, false⟩
  else if ¬ lies packet t (transportSize packet ip) then none
  else if _ht : tunnelAllowed = true ∧ tunnel packet ip then
    (flow (t + 16) false).map fun f => { f with tunneled := true }
  else some ⟨tuple packet ip (short packet t) (short packet (t + 2)), false⟩
termination_by tunnelAllowed.toNat
decreasing_by simp [_ht.1]

variable {packet}

theorem field_eq {start width : Nat} (h : lies packet start width) :
    packet.field start width = (List.range width).map fun j => packet.getD (start + j) 0 := by
  apply List.ext_getElem
  · simp only [Bytes.field, List.length_take, List.length_drop, List.length_map, List.length_range]
    omega
  · intro j hj hj'
    simp only [List.length_map, List.length_range] at hj'
    have hin : start + j < packet.length := by omega
    simp [Bytes.field, List.getD_eq_getElem?_getD, hin]

theorem octet_lt (packet : Bytes) (i : Nat) : octet packet i < 256 := (packet.getD i 0).toNat_lt

theorem toNat_byteAt (i : Nat) : (byteAt packet i).toNat = octet packet i := rfl

theorem byteAt_eq_iff (i : Nat) (b : UInt8) : byteAt packet i = b ↔ octet packet i = b.toNat := by
  rw [← UInt8.toNat_inj, toNat_byteAt]

theorem wordAt_eq {i : Nat} (h : lies packet i 2) :
    wordAt packet i = UInt16.ofNat (short packet i) := by
  rw [wordAt, field_eq h]
  simp [List.range_succ, Bytes.ofBigEndian, short, octet, Nat.mul_comm]

theorem short_lt (i : Nat) : short packet i < 65536 := by
  have h0 := octet_lt packet i
  have h1 := octet_lt packet (i + 1)
  unfold short
  omega

theorem toNat_wordAt {i : Nat} (h : lies packet i 2) : (wordAt packet i).toNat = short packet i := by
  rw [wordAt_eq h, UInt16.toNat_ofNat']
  exact Nat.mod_eq_of_lt (short_lt i)

theorem addressAt_eq {i : Nat} (h : lies packet i 4) :
    addressAt packet i = UInt32.ofNat (long packet i) := by
  rw [addressAt, field_eq h]
  congr 1
  simp only [List.range_succ, List.range_zero, List.nil_append, List.cons_append, List.map_cons,
    List.map_nil, Bytes.ofBigEndian, List.foldl_cons, List.foldl_nil, long, short, octet,
    Nat.add_zero, Nat.add_assoc, Nat.reduceAdd]
  omega

theorem etherType_eq_ipv4_iff {i : Nat} (h : lies packet i 2) :
    EtherType.ofWord (wordAt packet i) = .ipv4 ↔
      octet packet i = 0x08 ∧ octet packet (i + 1) = 0x00 := by
  have hw : wordAt packet i = 0x0800 ↔ short packet i = 0x0800 := by
    rw [← UInt16.toNat_inj, toNat_wordAt h]
    rfl
  have h1 := octet_lt packet (i + 1)
  have hs : short packet i = 0x0800 ↔ octet packet i = 0x08 ∧ octet packet (i + 1) = 0x00 := by
    unfold short
    omega
  rw [← hs, ← hw]
  unfold EtherType.ofWord
  split_ifs with h0 <;> simp [h0]

/-- The I flag is bit 3 of the first byte. -/
theorem and_flag_ne_zero_iff (b : UInt8) : b &&& 0x08 ≠ 0 ↔ b.toNat.testBit 3 = true := by
  have hand : (b &&& 0x08).toNat = (b.toNat.testBit 3).toNat * 8 := by
    rw [UInt8.toNat_and]
    exact Nat.and_two_pow b.toNat 3
  rw [ne_eq, ← UInt8.toNat_inj, hand]
  cases b.toNat.testBit 3 <;> simp

end Layout

namespace Walk

def report? (timestamp : UInt64) (w : Walk) : Option WireRecord :=
  if w.next = .complete ∧ w.record.sourceAddress ≠ 0 ∧ w.record.destinationAddress ≠ 0 then
    some { w.record with
      verdict := forwardVerdict
      flags := if w.tunneled then w.record.flags ||| WireRecord.tunneledFlag else w.record.flags
      timestamp }
  else none

/-- The record that the rest of a walk leads to. -/
def reported (packet : Bytes) (timestamp : UInt64) (w : Walk) : Option WireRecord :=
  (finish packet w).bind (report? timestamp)

variable {packet : Bytes} {timestamp : UInt64}

theorem classify_eq_reported : classify packet timestamp = reported packet timestamp {} := by
  have hr : run packet maxSteps {} = finish packet {} :=
    run_eq_finish ((rank_le_seven _).trans (by decide))
  unfold classify reported
  rw [hr]
  cases finish packet {} with
  | none => rfl
  | some w =>
    change (do guard _; pure _) = report? timestamp w
    unfold report?
    by_cases h : w.next = .complete ∧ w.record.sourceAddress ≠ 0 ∧ w.record.destinationAddress ≠ 0
    · rw [if_pos h, guard, if_pos h]
      rfl
    · rw [if_neg h, guard, if_neg h]
      rfl

theorem reported_step {w : Walk} (h : w.ended = false) :
    reported packet timestamp w = (w.step packet).bind (reported packet timestamp) := by
  unfold reported
  rw [finish_step h, Option.bind_assoc]

theorem reported_complete (o : UInt64) (b : Bool) (t : FiveTuple) :
    reported packet timestamp ⟨o, .complete, b, .ofTuple t⟩ =
      Reading.record? timestamp ⟨t, b⟩ := by
  rw [reported, finish_of_ended rfl]
  simp only [Option.bind_some, report?, WireRecord.ofTuple, Reading.record?]
  by_cases hs : t.source = 0
  · simp [hs]
  · by_cases hd : t.destination = 0
    · simp [hd]
    · cases b <;> simp [hs, hd, WireRecord.tunneledFlag]

theorem reported_unsupported (o : UInt64) (b : Bool) (r : WireRecord) :
    reported packet timestamp ⟨o, .unsupported, b, r⟩ = none := by
  rw [reported, finish_of_ended rfl]
  simp [report?]

open Layout

theorem toNat_add_ofNat {o : UInt64} {n : Nat} (h : o.toNat + n < 2 ^ 64) :
    (o + UInt64.ofNat n).toNat = o.toNat + n := by
  have hn : n < 2 ^ 64 := by omega
  rw [UInt64.toNat_add, UInt64.toNat_ofNat_of_lt' hn]
  exact Nat.mod_eq_of_lt h

theorem reported_tcp (o : UInt64) (b : Bool) (ip p q : Nat) :
    reported packet timestamp ⟨o, .tcp, b, .ofTuple (tuple packet ip p q)⟩ =
      if lies packet o.toNat 20 then
        Reading.record? timestamp
          ⟨tuple packet ip (short packet o.toNat) (short packet (o.toNat + 2)), b⟩
      else none := by
  rw [reported_step rfl]
  change ((Tcp.read? packet o).map _).bind _ = _
  by_cases h : lies packet o.toNat 20
  · rw [Tcp.read?, if_pos h, if_pos (show fits packet o Tcp.size from h),
      wordAt_eq (by omega), wordAt_eq (by omega)]
    exact reported_complete _ b (tuple packet ip _ _)
  · rw [Tcp.read?, if_neg h, if_neg (show ¬fits packet o Tcp.size from h)]
    rfl

theorem reported_udp (o : UInt64) (b : Bool) (ip p q : Nat) :
    reported packet timestamp ⟨o, .udp, b, .ofTuple (tuple packet ip p q)⟩ =
      if lies packet o.toNat 8 then
        if short packet (o.toNat + 2) = 4789 ∧ b = false then
          reported packet timestamp ⟨o + UInt64.ofNat 8, .vxlan, b,
            .ofTuple (tuple packet ip (short packet o.toNat) (short packet (o.toNat + 2)))⟩
        else
          Reading.record? timestamp
            ⟨tuple packet ip (short packet o.toNat) (short packet (o.toNat + 2)), b⟩
      else none := by
  rw [reported_step rfl]
  change ((Udp.read? packet o).map _).bind _ = _
  by_cases h : lies packet o.toNat 8
  · have hport : wordAt packet (o.toNat + 2) = vxlanPort ↔ short packet (o.toNat + 2) = 4789 := by
      rw [← UInt16.toNat_inj, toNat_wordAt (by omega)]
      rfl
    rw [Udp.read?, if_pos h, if_pos (show fits packet o Udp.size from h)]
    simp only [Option.map_some, Option.bind_some, hport, Bool.and_eq_true, decide_eq_true_eq,
      Bool.not_eq_true']
    rw [wordAt_eq (by omega), wordAt_eq (by omega)]
    split_ifs with hv
    · rfl
    · exact reported_complete _ b (tuple packet ip _ _)
  · rw [Udp.read?, if_neg h, if_neg (show ¬fits packet o Udp.size from h)]
    rfl

theorem reported_vxlan (o : UInt64) (b : Bool) (t : FiveTuple) :
    reported packet timestamp ⟨o, .vxlan, b, .ofTuple t⟩ =
      if lies packet o.toNat 8 ∧ (octet packet o.toNat).testBit 3 = true then
        reported packet timestamp ⟨o + UInt64.ofNat 8, .ethernet, true, {}⟩
      else Reading.record? timestamp ⟨t, b⟩ := by
  rw [reported_step rfl]
  change (Walk.vxlan packet _).bind _ = _
  by_cases h : lies packet o.toNat 8
  · rw [vxlan, Vxlan.read?, if_pos (show fits packet o Vxlan.size from h)]
    simp only [Vxlan.hasNetworkId, bne_iff_ne, and_flag_ne_zero_iff, toNat_byteAt, h, true_and]
    split_ifs with hb
    · rfl
    · exact reported_complete o b t
  · rw [vxlan, Vxlan.read?, if_neg (show ¬fits packet o Vxlan.size from h),
      if_neg fun h' => h h'.1]
    exact reported_complete o b t

/-- A UDP header and the tunnel that may begin behind it. -/
theorem reported_datagram {o : UInt64} (ho : o.toNat + 16 < 2 ^ 64) (b : Bool) (ip p q : Nat) :
    reported packet timestamp ⟨o, .udp, b, .ofTuple (tuple packet ip p q)⟩ =
      if lies packet o.toNat 8 then
        if b = false ∧ short packet (o.toNat + 2) = 4789 ∧ lies packet (o.toNat + 8) 8 ∧
            (octet packet (o.toNat + 8)).testBit 3 = true then
          reported packet timestamp ⟨UInt64.ofNat (o.toNat + 16), .ethernet, true, {}⟩
        else
          Reading.record? timestamp
            ⟨tuple packet ip (short packet o.toNat) (short packet (o.toNat + 2)), b⟩
      else none := by
  have h8 : (o + UInt64.ofNat 8).toNat = o.toNat + 8 := toNat_add_ofNat (by omega)
  have h16 : o + UInt64.ofNat 8 + UInt64.ofNat 8 = UInt64.ofNat (o.toNat + 16) := by
    rw [← UInt64.toNat_inj, toNat_add_ofNat (by omega), h8, UInt64.toNat_ofNat_of_lt' ho]
  rw [reported_udp, reported_vxlan, h8, h16]
  by_cases hport : short packet (o.toNat + 2) = 4789 ∧ b = false
  · obtain ⟨hport, rfl⟩ := hport
    simp only [hport, true_and, and_true, if_true]
  · have htunnel : ¬(b = false ∧ short packet (o.toNat + 2) = 4789 ∧ lies packet (o.toNat + 8) 8 ∧
        (octet packet (o.toNat + 8)).testBit 3 = true) := fun h => hport ⟨h.2.1, h.1⟩
    rw [if_neg hport, if_neg htunnel]

theorem reported_ipv4 (o : UInt64) (b : Bool) (t : FiveTuple) :
    reported packet timestamp ⟨o, .ipv4, b, .ofTuple t⟩ =
      if lies packet o.toNat 20 ∧ octet packet o.toNat / 16 = 4 ∧ 5 ≤ octet packet o.toNat % 16 then
        if portless packet o.toNat then
          Reading.record? timestamp ⟨tuple packet o.toNat 0 0, b⟩
        else
          reported packet timestamp
            ⟨o + UInt64.ofNat (octet packet o.toNat % 16 * 4),
              if octet packet (o.toNat + 9) = 6 then .tcp else .udp, b,
              .ofTuple (tuple packet o.toNat 0 0)⟩
      else none := by
  rw [reported_step rfl]
  change (Walk.ipv4 packet _).bind _ = _
  by_cases h : lies packet o.toNat 20
  · rw [ipv4, Ipv4.read?, if_pos (show fits packet o Ipv4.size from h)]
    simp only [Option.bind_eq_bind, Option.bind_some, Ipv4.version, Ipv4.headerLength,
      Ipv4.fragmentOffset, toNat_byteAt, h, true_and]
    rw [addressAt_eq (by omega), addressAt_eq (by omega), toNat_wordAt (by omega)]
    have hsize : Ipv4.size ≤ octet packet o.toNat % 16 * 4 ↔ 5 ≤ octet packet o.toNat % 16 := by
      unfold Ipv4.size
      omega
    have htcp : byteAt packet (o.toNat + 9) = tcpProtocol ↔ octet packet (o.toNat + 9) = 6 :=
      byteAt_eq_iff _ _
    have hudp : byteAt packet (o.toNat + 9) = udpProtocol ↔ octet packet (o.toNat + 9) = 17 :=
      byteAt_eq_iff _ _
    simp only [hsize, htcp, hudp]
    by_cases hv : octet packet o.toNat / 16 = 4 ∧ 5 ≤ octet packet o.toNat % 16
    · rw [if_pos hv, guard, if_pos hv]
      change reported packet timestamp ⟨_, _, b, .ofTuple (tuple packet o.toNat 0 0)⟩ = _
      by_cases hfrag : short packet (o.toNat + 6) % 8192 ≠ 0
      · rw [if_pos hfrag, if_pos (Or.inl hfrag)]
        exact reported_complete _ b _
      · rw [if_neg hfrag]
        by_cases h6 : octet packet (o.toNat + 9) = 6
        · rw [if_pos h6, if_pos h6, if_neg (by omega)]
          rfl
        · rw [if_neg h6, if_neg h6]
          by_cases h17 : octet packet (o.toNat + 9) = 17
          · rw [if_pos h17, if_neg (by omega)]
            rfl
          · rw [if_neg h17, if_pos (Or.inr ⟨h6, h17⟩)]
            exact reported_complete _ b _
    · rw [if_neg hv, guard, if_neg hv]
      rfl
  · rw [ipv4, Ipv4.read?, if_neg (show ¬fits packet o Ipv4.size from h), if_neg fun h' => h h'.1]
    rfl

theorem reported_ethernet (o : UInt64) (b : Bool) (r : WireRecord) :
    reported packet timestamp ⟨o, .ethernet, b, r⟩ =
      if lies packet o.toNat 14 ∧ octet packet (o.toNat + 12) = 0x08 ∧
          octet packet (o.toNat + 13) = 0x00 then
        reported packet timestamp ⟨o + UInt64.ofNat 14, .ipv4, b, r⟩
      else none := by
  rw [reported_step rfl]
  change ((Ethernet.read? packet o).map _).bind _ = _
  by_cases h : lies packet o.toNat 14
  · rw [Ethernet.read?, if_pos (show fits packet o Ethernet.size from h)]
    simp only [Option.map_some, Option.bind_some,
      etherType_eq_ipv4_iff (show lies packet (o.toNat + 12) 2 by omega), h, true_and]
    split_ifs
    · rfl
    · exact reported_unsupported _ b r
  · rw [Ethernet.read?, if_neg (show ¬fits packet o Ethernet.size from h),
      if_neg fun h' => h h'.1]
    rfl

/-- From one frame the walk ends, or it enters the tunnel. -/
theorem reported_frame {o : UInt64} {base : Nat} (ho : o.toNat = base)
    (hbase : base + 90 < 2 ^ 64) (b : Bool) (t : FiveTuple) :
    reported packet timestamp ⟨o, .ethernet, b, .ofTuple t⟩ =
      let ip := base + 14
      let t := transport packet ip
      if ¬frame packet base then none
      else if portless packet ip then Reading.record? timestamp ⟨tuple packet ip 0 0, b⟩
      else if ¬lies packet t (transportSize packet ip) then none
      else if b = false ∧ tunnel packet ip then
        reported packet timestamp ⟨UInt64.ofNat (t + 16), .ethernet, true, {}⟩
      else
        Reading.record? timestamp ⟨tuple packet ip (short packet t) (short packet (t + 2)), b⟩ := by
  subst ho
  have hip : (o + UInt64.ofNat 14).toNat = o.toNat + 14 := toNat_add_ofNat (by omega)
  have ht : (o + UInt64.ofNat 14 +
      UInt64.ofNat (octet packet (o.toNat + 14) % 16 * 4)).toNat =
        transport packet (o.toNat + 14) := by
    rw [toNat_add_ofNat (by omega), hip, transport, Nat.mul_comm 4]
  have hbound : transport packet (o.toNat + 14) ≤ o.toNat + 74 := by
    unfold transport
    omega
  rw [reported_ethernet, reported_ipv4, hip]
  dsimp only
  by_cases hf : frame packet o.toNat
  · rw [if_pos hf.1, if_pos hf.2, if_neg (not_not.mpr hf)]
    by_cases hp : portless packet (o.toNat + 14)
    · rw [if_pos hp, if_pos hp]
    · rw [if_neg hp, if_neg hp]
      generalize o + UInt64.ofNat 14 +
        UInt64.ofNat (octet packet (o.toNat + 14) % 16 * 4) = u at ht ⊢
      by_cases h6 : octet packet (o.toNat + 14 + 9) = 6
      · rw [if_pos h6, reported_tcp, ht, transportSize, if_pos h6]
        by_cases hl : lies packet (transport packet (o.toNat + 14)) 20
        · rw [if_pos hl, if_neg (not_not.mpr hl), if_neg (by omega)]
        · rw [if_neg hl, if_pos hl]
      · have h17 : octet packet (o.toNat + 14 + 9) = 17 := by omega
        rw [if_neg h6, reported_datagram (by omega), ht, transportSize, if_neg h6]
        by_cases hl : lies packet (transport packet (o.toNat + 14)) 8
        · rw [if_pos hl, if_neg (not_not.mpr hl)]
          simp only [tunnel, h17, true_and]
        · rw [if_neg hl, if_pos hl]
  · rw [if_pos hf]
    by_cases heth : lies packet o.toNat 14 ∧ octet packet (o.toNat + 12) = 0x08 ∧
        octet packet (o.toNat + 13) = 0x00
    · rw [if_pos heth, if_neg fun h => hf ⟨heth, h⟩]
    · rw [if_neg heth]

/-- Inside a tunnel no further one is entered. -/
theorem reported_inner {o : UInt64} {base : Nat} (ho : o.toNat = base)
    (hbase : base + 90 < 2 ^ 64) (t : FiveTuple) :
    reported packet timestamp ⟨o, .ethernet, true, .ofTuple t⟩ =
      (flow packet base false).bind fun f =>
        Reading.record? timestamp { f with tunneled := true } := by
  rw [reported_frame ho hbase, flow]
  simp only [Bool.true_eq_false, Bool.false_eq_true, false_and, if_false, dif_neg, not_false_eq_true]
  split_ifs <;> rfl

theorem reported_outer {o : UInt64} {base : Nat} (ho : o.toNat = base)
    (hbase : base + 180 < 2 ^ 64) (t : FiveTuple) :
    reported packet timestamp ⟨o, .ethernet, false, .ofTuple t⟩ =
      (flow packet base true).bind (Reading.record? timestamp) := by
  have hinner : transport packet (base + 14) + 16 ≤ base + 90 := by
    unfold transport
    omega
  rw [reported_frame ho (by omega), flow]
  simp only [true_and]
  split_ifs with hframe hportless hlies htunnel
  · rfl
  · have hlt : transport packet (base + 14) + 16 < 2 ^ 64 := by omega
    rw [Option.bind_map]
    exact reported_inner (UInt64.toNat_ofNat_of_lt' hlt) (by omega) ⟨0, 0, 0, 0, 0⟩
  · rfl
  · rfl
  · rfl

end Walk

theorem padding_of_record? {timestamp : UInt64} {f : Reading} {r : WireRecord}
    (h : f.record? timestamp = some r) : r.padding = 0 := by
  by_cases hzero : f.tuple.source = 0 ∨ f.tuple.destination = 0
  · rw [Reading.record?, if_pos hzero] at h
    cases h
  · rw [Reading.record?, if_neg hzero] at h
    rw [← Option.some.inj h]
    rfl

/-- The record of a packet is that of the flow its bytes lay out, and its padding is zero, as a field
and as a byte. -/
theorem classify_eq_layout (packet : Bytes) (timestamp : UInt64) :
    classify packet timestamp =
        (Layout.flow packet 0 true).bind (Reading.record? timestamp) ∧
      ∀ r ∈ classify packet timestamp, r.padding = 0 ∧ r.toBytes[15]? = some 0 := by
  have hrecord : classify packet timestamp =
      (Layout.flow packet 0 true).bind (Reading.record? timestamp) := by
    rw [Walk.classify_eq_reported]
    exact Walk.reported_outer (o := 0) rfl (by decide) ⟨0, 0, 0, 0, 0⟩
  refine ⟨hrecord, fun r hr => ⟨?_, r.padding_toBytes⟩⟩
  rw [hrecord] at hr
  obtain ⟨f, -, hf⟩ := Option.bind_eq_some_iff.mp hr
  exact padding_of_record? hf

end Packet
end FlowObserver
