import FlowObserver.Proofs.Packet.Layout

/-!
# Frames inside a tunnel

The outer headers of a tunnel are an envelope: whatever they say beyond the marks of a tunnel, the
frame behind them is classified as if it stood alone, and its record is marked. Only a frame that
opens a tunnel itself reads differently there, because inside a tunnel no further one is entered.
-/

namespace FlowObserver

def WireRecord.inTunnel (r : WireRecord) : WireRecord :=
  { r with flags := r.flags ||| tunneledFlag }

namespace Packet
namespace Layout

section

variable (outer inner : Bytes) (i : Nat)

theorem getD_behind : (outer ++ inner).getD (outer.length + i) 0 = inner.getD i 0 := by
  rw [List.getD_append_right _ _ _ _ (Nat.le_add_right _ _), Nat.add_sub_cancel_left]

theorem octet_behind : octet (outer ++ inner) (outer.length + i) = octet inner i := by
  rw [octet, getD_behind, octet]

theorem short_behind : short (outer ++ inner) (outer.length + i) = short inner i := by
  simp only [short, Nat.add_assoc, octet_behind]

theorem long_behind : long (outer ++ inner) (outer.length + i) = long inner i := by
  simp only [long, Nat.add_assoc, short_behind]

theorem lies_behind (count : Nat) :
    lies (outer ++ inner) (outer.length + i) count ↔ lies inner i count := by
  rw [lies, lies, List.length_append]
  omega

theorem transport_behind :
    transport (outer ++ inner) (outer.length + i) = outer.length + transport inner i := by
  rw [transport, octet_behind, transport, Nat.add_assoc]

theorem transportSize_behind :
    transportSize (outer ++ inner) (outer.length + i) = transportSize inner i := by
  simp only [transportSize, Nat.add_assoc, octet_behind]

theorem tuple_behind (sourcePort destinationPort : Nat) :
    tuple (outer ++ inner) (outer.length + i) sourcePort destinationPort =
      tuple inner i sourcePort destinationPort := by
  simp only [tuple, Nat.add_assoc, long_behind, getD_behind]

theorem frame_behind : frame (outer ++ inner) (outer.length + i) ↔ frame inner i := by
  simp only [frame, Nat.add_assoc, lies_behind, octet_behind]

theorem portless_behind : portless (outer ++ inner) (outer.length + i) ↔ portless inner i := by
  simp only [portless, Nat.add_assoc, short_behind, octet_behind]

end

section

variable {packet : Bytes} (rest : Bytes) {i : Nat}

theorem getD_ahead (h : i < packet.length) : (packet ++ rest).getD i 0 = packet.getD i 0 :=
  List.getD_append _ _ _ _ h

theorem octet_ahead (h : i < packet.length) : octet (packet ++ rest) i = octet packet i := by
  rw [octet, getD_ahead rest h, octet]

theorem short_ahead (h : lies packet i 2) : short (packet ++ rest) i = short packet i := by
  rw [short, octet_ahead rest (by omega), octet_ahead rest (by omega), short]

theorem long_ahead (h : lies packet i 4) : long (packet ++ rest) i = long packet i := by
  rw [long, short_ahead rest (by omega), short_ahead rest (by omega), long]

theorem lies_ahead {count : Nat} (h : lies packet i count) : lies (packet ++ rest) i count := by
  rw [lies, List.length_append]
  omega

theorem transport_ahead (h : i < packet.length) :
    transport (packet ++ rest) i = transport packet i := by
  rw [transport, octet_ahead rest h, transport]

theorem transportSize_ahead (h : lies packet i 20) :
    transportSize (packet ++ rest) i = transportSize packet i := by
  rw [transportSize, octet_ahead rest (by omega), transportSize]

theorem portless_ahead (h : lies packet i 20) :
    portless (packet ++ rest) i ↔ portless packet i := by
  rw [portless, portless, short_ahead rest (by omega), octet_ahead rest (by omega)]

theorem tuple_ahead (h : lies packet i 20) (sourcePort destinationPort : Nat) :
    tuple (packet ++ rest) i sourcePort destinationPort =
      tuple packet i sourcePort destinationPort := by
  rw [tuple, long_ahead rest (by omega), long_ahead rest (by omega), getD_ahead rest (by omega),
    tuple]

theorem lies_of_frame {base : Nat} (h : frame packet base) : lies packet base 34 := by
  have hip : lies packet (base + 14) 20 := h.2.1
  omega

theorem frame_ahead {base : Nat} (h : lies packet base 34) :
    frame (packet ++ rest) base ↔ frame packet base := by
  have hethernet : lies (packet ++ rest) base 14 ↔ lies packet base 14 :=
    iff_of_true (lies_ahead rest (by omega)) (by omega)
  have hip : lies (packet ++ rest) (base + 14) 20 ↔ lies packet (base + 14) 20 :=
    iff_of_true (lies_ahead rest (by omega)) (by omega)
  rw [frame, frame, hethernet, hip, octet_ahead rest (by omega), octet_ahead rest (by omega),
    octet_ahead rest (by omega)]

end

theorem flow_false (packet : Bytes) (base : Nat) :
    flow packet base false =
      let ip := base + 14
      let t := transport packet ip
      if ¬frame packet base then none
      else if portless packet ip then some ⟨tuple packet ip 0 0, false⟩
      else if ¬lies packet t (transportSize packet ip) then none
      else some ⟨tuple packet ip (short packet t) (short packet (t + 2)), false⟩ := by
  rw [flow]
  simp only [Bool.false_eq_true, false_and, dite_false]

theorem flow_false_eq_some_iff {packet : Bytes} {base : Nat} {f : Reading} :
    flow packet base false = some f ↔
      let ip := base + 14
      let t := transport packet ip
      frame packet base ∧
        (portless packet ip ∧ f = ⟨tuple packet ip 0 0, false⟩ ∨
          ¬portless packet ip ∧ lies packet t (transportSize packet ip) ∧
            f = ⟨tuple packet ip (short packet t) (short packet (t + 2)), false⟩) := by
  rw [flow_false]
  dsimp only
  by_cases hframe : frame packet base
  · rw [if_neg (not_not.mpr hframe), and_iff_right hframe]
    by_cases hportless : portless packet (base + 14)
    · rw [if_pos hportless]
      simp only [hportless, true_and, not_true, false_and, or_false, Option.some.injEq, eq_comm]
    · rw [if_neg hportless]
      by_cases hlies : lies packet (transport packet (base + 14)) (transportSize packet (base + 14))
      · rw [if_neg (not_not.mpr hlies)]
        simp only [hportless, hlies, true_and, not_false_iff, false_and, false_or,
          Option.some.injEq, eq_comm]
      · rw [if_pos hlies]
        simp only [hportless, hlies, false_and, and_false, or_false, reduceCtorEq]
  · rw [if_pos hframe]
    simp only [hframe, false_and, reduceCtorEq]

/-- Such a frame shows the same flow wherever it stands. -/
theorem flow_behind (outer inner : Bytes) :
    flow (outer ++ inner) outer.length false = flow inner 0 false := by
  have hbase := frame_behind outer inner 0
  rw [Nat.add_zero] at hbase
  rw [flow_false, flow_false]
  simp only [hbase, portless_behind, tuple_behind, transport_behind, Nat.zero_add, Nat.add_assoc,
    lies_behind, transportSize_behind, short_behind]

theorem tunneled_of_flow_false {packet : Bytes} {base : Nat} {f : Reading}
    (hf : flow packet base false = some f) : f.tunneled = false := by
  rw [flow_false] at hf
  dsimp only at hf
  split_ifs at hf <;> cases hf <;> rfl

/-- An IPv4 frame with a UDP datagram to the VXLAN port, no later fragment, and a whole VXLAN header
with its I flag. -/
abbrev opensTunnel (packet : Bytes) : Prop :=
  frame packet 0 ∧ short packet 20 % 8192 = 0 ∧ tunnel packet 14

/-- The headers that open a tunnel, up to the frame inside. -/
structure Envelope (outer : Bytes) : Prop where
  opens : opensTunnel outer
  length_eq : outer.length = transport outer 14 + 16

variable {packet : Bytes}

/-- No bytes that follow can undo it. -/
theorem opensTunnel_append (h : opensTunnel packet) (rest : Bytes) :
    opensTunnel (packet ++ rest) ∧ transport (packet ++ rest) 14 = transport packet 14 := by
  obtain ⟨hframe, hfragment, hudp, hport, hvxlan, hflag⟩ := h
  have hlong : lies packet 0 34 := lies_of_frame hframe
  have htransport : transport (packet ++ rest) 14 = transport packet 14 :=
    transport_ahead rest (by omega)
  refine ⟨⟨(frame_ahead rest hlong).mpr hframe, ?_, ?_, ?_, ?_, ?_⟩, htransport⟩
  · rw [short_ahead rest (by omega), hfragment]
  · rw [octet_ahead rest (by omega), hudp]
  · rw [htransport, short_ahead rest (by omega), hport]
  · rw [htransport]
    exact lies_ahead rest hvxlan
  · rw [htransport, octet_ahead rest (by omega), hflag]

theorem not_portless_of_opensTunnel (h : opensTunnel packet) : ¬portless packet 14 := by
  obtain ⟨-, hfragment, hudp, -⟩ := h
  simp [hfragment, hudp]

theorem lies_of_opensTunnel (h : opensTunnel packet) :
    lies packet (transport packet 14) (transportSize packet 14) := by
  obtain ⟨-, -, hudp, -, hvxlan, -⟩ := h
  rw [transportSize, if_neg (by omega)]
  omega

theorem flow_of_opensTunnel (h : opensTunnel packet) :
    flow packet 0 true =
      (flow packet (transport packet 14 + 16) false).map fun f => { f with tunneled := true } := by
  rw [flow, if_neg (not_not.mpr h.1), if_neg (not_portless_of_opensTunnel h),
    if_neg (not_not.mpr (lies_of_opensTunnel h)), dif_pos ⟨rfl, h.2.2⟩]

/-- Where it may open none, the frame gives the flow of its own datagram. -/
theorem flow_false_of_opensTunnel (h : opensTunnel packet) :
    flow packet 0 false =
      some ⟨tuple packet 14 (short packet (transport packet 14)) 4789, false⟩ := by
  rw [flow_false]
  dsimp only
  rw [if_neg (not_not.mpr h.1), if_neg (not_portless_of_opensTunnel h),
    if_neg (not_not.mpr (lies_of_opensTunnel h)), h.2.2.2.1]

theorem flow_of_not_opensTunnel (h : ¬opensTunnel packet) :
    flow packet 0 true = flow packet 0 false := by
  rw [flow.eq_def packet 0 true, flow_false]
  dsimp only
  by_cases hframe : frame packet 0
  · by_cases hportless : portless packet 14
    · rw [if_pos hportless, if_pos hportless]
    · have htunnel : ¬(true = true ∧ tunnel packet 14) := by
        rintro ⟨-, htunnel⟩
        have hfragment : short packet 20 % 8192 = 0 := by
          by_contra hfragment
          exact hportless (Or.inl hfragment)
        exact h ⟨hframe, hfragment, htunnel⟩
      rw [dif_neg htunnel]
  · rw [if_pos hframe, if_pos hframe]

theorem Envelope.flow_eq {outer : Bytes} (houter : Envelope outer) (inner : Bytes) :
    flow (outer ++ inner) 0 true =
      (flow inner 0 false).map fun f => { f with tunneled := true } := by
  obtain ⟨hopens, htransport⟩ := opensTunnel_append houter.opens inner
  rw [flow_of_opensTunnel hopens, htransport, ← houter.length_eq, flow_behind]

theorem long_lt (packet : Bytes) (i : Nat) : long packet i < 4294967296 := by
  have h0 := @short_lt packet i
  have h2 := @short_lt packet (i + 2)
  unfold long
  omega

end Layout

theorem record?_tunneled (timestamp : UInt64) (t : FiveTuple) :
    Reading.record? timestamp ⟨t, true⟩ =
      (Reading.record? timestamp ⟨t, false⟩).map WireRecord.inTunnel := by
  unfold Reading.record?
  by_cases hzero : t.source = 0 ∨ t.destination = 0
  · rw [if_pos hzero, if_pos hzero, Option.map_none]
  · rw [if_neg hzero, if_neg hzero]
    simp [WireRecord.inTunnel, WireRecord.ofTuple, WireRecord.tunneledFlag]

theorem record?_of_nonzero (timestamp : UInt64) {t : FiveTuple} (hsource : t.source ≠ 0)
    (hdestination : t.destination ≠ 0) :
    Reading.record? timestamp ⟨t, true⟩ =
      some { WireRecord.ofTuple t with verdict := 1, flags := 1, timestamp } := by
  rw [Reading.record?, if_neg (not_or.mpr ⟨hsource, hdestination⟩)]
  rfl

theorem classify_eq_record (packet : Bytes) (timestamp : UInt64) :
    classify packet timestamp = (Layout.flow packet 0 true).bind (Reading.record? timestamp) := by
  rw [Walk.classify_eq_reported]
  exact Walk.reported_outer (o := 0) rfl (by decide) ⟨0, 0, 0, 0, 0⟩

open Layout

theorem classify_in_envelope {outer : Bytes} (houter : Envelope outer) (inner : Bytes)
    (timestamp : UInt64) :
    classify (outer ++ inner) timestamp =
      ((flow inner 0 false).bind (Reading.record? timestamp)).map WireRecord.inTunnel := by
  rw [classify_eq_record, houter.flow_eq]
  cases hf : flow inner 0 false with
  | none => rfl
  | some f =>
    obtain ⟨t, tunneled⟩ := f
    obtain rfl : tunneled = false := tunneled_of_flow_false hf
    exact record?_tunneled timestamp t

/-- Nothing of the outer headers reaches the record. A frame is classified inside a tunnel as it is
outside, with a mark on its record; one that opens a tunnel itself is taken for what it is, the
datagram that carries the tunnel. -/
theorem encapsulation_transparent (outer inner : Bytes) (timestamp : UInt64)
    (houter : Envelope outer) :
    (∀ other, Envelope other →
      classify (other ++ inner) timestamp = classify (outer ++ inner) timestamp) ∧
    (¬opensTunnel inner →
      classify (outer ++ inner) timestamp =
        (classify inner timestamp).map WireRecord.inTunnel) ∧
    (opensTunnel inner → long inner 26 ≠ 0 → long inner 30 ≠ 0 →
      classify (outer ++ inner) timestamp = some {
        sourceAddress := UInt32.ofNat (long inner 26)
        destinationAddress := UInt32.ofNat (long inner 30)
        sourcePort := UInt16.ofNat (short inner (transport inner 14))
        destinationPort := vxlanPort
        protocol := udpProtocol
        verdict := forwardVerdict
        flags := WireRecord.tunneledFlag
        timestamp }) := by
  refine ⟨?_, ?_, ?_⟩
  · intro other hother
    rw [classify_in_envelope hother, classify_in_envelope houter]
  · intro hinner
    rw [classify_in_envelope houter, classify_eq_record inner, flow_of_not_opensTunnel hinner]
  · intro hinner hsource hdestination
    have hzero : ∀ i, long inner i ≠ 0 → UInt32.ofNat (long inner i) ≠ 0 := by
      intro i hi h
      rw [← UInt32.toNat_inj, UInt32.toNat_ofNat_of_lt' (long_lt inner i)] at h
      exact hi h
    have hprotocol : inner.getD 23 0 = udpProtocol := UInt8.toNat_inj.mp hinner.2.2.1
    rw [classify_in_envelope houter, flow_false_of_opensTunnel hinner, Option.bind_some,
      ← record?_tunneled, record?_of_nonzero timestamp (hzero 26 hsource) (hzero 30 hdestination)]
    rw [WireRecord.ofTuple, tuple, hprotocol]
    rfl

/-- Outer headers without options and between zero addresses. -/
def plainHeaders : Bytes :=
  [0, 0, 0, 0, 0, 0, 0, 0, 0, 0, 0, 0, 8, 0] ++
  [0x45, 0, 0, 0, 0, 0, 0x40, 0, 64, 17, 0, 0, 0, 0, 0, 0, 0, 0, 0, 0] ++
  [0xC0, 0, 0x12, 0xB5, 0, 0, 0, 0] ++ [8, 0, 0, 0, 0, 0, 42, 0]

/-- The first fragment of a datagram, with four bytes of options, from 10.0.0.1 to 10.0.0.2. -/
def fragmentHeaders : Bytes :=
  [1, 2, 3, 4, 5, 6, 7, 8, 9, 10, 11, 12, 8, 0] ++
  [0x46, 3, 0, 99, 7, 7, 0x20, 0, 1, 17, 5, 5, 10, 0, 0, 1, 10, 0, 0, 2, 1, 1, 1, 0] ++
  [0, 80, 0x12, 0xB5, 0, 8, 9, 9] ++ [0xFF, 1, 1, 1, 0, 0, 7, 1]

def echoFrame : Bytes :=
  [0, 0, 0, 0, 0, 0, 0, 0, 0, 0, 0, 0, 8, 0] ++
  [0x45, 0, 0, 0, 0, 0, 0, 0, 64, 1, 0, 0, 10, 0, 0, 3, 10, 0, 0, 4]

theorem encapsulation_transparent_nested :
    Envelope plainHeaders ∧ Envelope fragmentHeaders ∧
      (¬opensTunnel echoFrame ∧
        classify (fragmentHeaders ++ echoFrame) 7 =
          (classify echoFrame 7).map WireRecord.inTunnel) ∧
      opensTunnel (fragmentHeaders ++ echoFrame) ∧
      classify (plainHeaders ++ (fragmentHeaders ++ echoFrame)) 7 = some {
        sourceAddress := 0x0A000001, destinationAddress := 0x0A000002, sourcePort := 80
        destinationPort := 4789, protocol := 17, verdict := 1, flags := 1, timestamp := 7 } := by
  have hplain : Envelope plainHeaders := ⟨by decide, by decide⟩
  have hfragment : Envelope fragmentHeaders := ⟨by decide, by decide⟩
  have hecho : ¬opensTunnel echoFrame := by decide
  have hnested : opensTunnel (fragmentHeaders ++ echoFrame) := by decide
  refine ⟨hplain, hfragment, ⟨hecho, ?_⟩, hnested, ?_⟩
  · exact (encapsulation_transparent fragmentHeaders echoFrame 7 hfragment).2.1 hecho
  · exact (encapsulation_transparent plainHeaders (fragmentHeaders ++ echoFrame) 7 hplain).2.2
      hnested (by decide) (by decide)

end Packet
end FlowObserver
