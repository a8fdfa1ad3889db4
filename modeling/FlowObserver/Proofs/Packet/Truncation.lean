import FlowObserver.Proofs.Packet.Emission

/-!
# Packets that are cut off, and bytes behind a packet

A packet is read up to the end of its last header, and what stands behind has no part in its record.
So a packet that is cut off gives no record or the same one, and bytes that are appended to it change
nothing. The one exception is a tunnel whose VXLAN header is cut off, because the outer datagram is
a flow too.
-/

namespace FlowObserver
namespace Packet
namespace Layout

variable {packet : Bytes} {base : Nat} {f : Reading} (rest : Bytes)

theorem flow_false_append (hf : flow packet base false = some f) :
    flow (packet ++ rest) base false = some f := by
  obtain ⟨hframe, hports⟩ := flow_false_eq_some_iff.mp hf
  have hlong : lies packet base 34 := lies_of_frame hframe
  have hip : lies packet (base + 14) 20 := hframe.2.1
  have htransport : transport (packet ++ rest) (base + 14) = transport packet (base + 14) :=
    transport_ahead rest (by omega)
  refine flow_false_eq_some_iff.mpr ⟨(frame_ahead rest hlong).mpr hframe, ?_⟩
  rw [portless_ahead rest hip, tuple_ahead rest hip, tuple_ahead rest hip, htransport,
    transportSize_ahead rest hip]
  rcases hports with ⟨hportless, rfl⟩ | ⟨hportless, hlies, rfl⟩
  · exact Or.inl ⟨hportless, rfl⟩
  · have hsize : 8 ≤ transportSize packet (base + 14) := by
      unfold transportSize
      split_ifs <;> omega
    refine Or.inr ⟨hportless, lies_ahead rest hlies, ?_⟩
    rw [short_ahead rest (by omega), short_ahead rest (by omega)]

/-- More bytes change the flow only where they complete a tunnel. -/
theorem flow_append (hf : flow packet 0 true = some f)
    (hcomplete : opensTunnel (packet ++ rest) → opensTunnel packet) :
    flow (packet ++ rest) 0 true = some f := by
  by_cases hopens : opensTunnel packet
  · obtain ⟨hopens', htransport⟩ := opensTunnel_append hopens rest
    rw [flow_of_opensTunnel hopens] at hf
    obtain ⟨inner, hinner, rfl⟩ := Option.map_eq_some_iff.mp hf
    rw [flow_of_opensTunnel hopens', htransport, flow_false_append rest hinner, Option.map_some]
  · rw [flow_of_not_opensTunnel hopens] at hf
    rw [flow_of_not_opensTunnel (mt hcomplete hopens)]
    exact flow_false_append rest hf

def datagramEnd (packet : Bytes) : Nat := transport packet 14 + 8

/-- The flow of the first datagram, tunnel or not. -/
def datagram (packet : Bytes) : Reading where
  tuple := tuple packet 14 (short packet (transport packet 14))
    (short packet (transport packet 14 + 2))

/-- Where a tunnel is opened the datagram goes to its port. -/
theorem tuple_datagram (h : opensTunnel packet) :
    (datagram packet).tuple.protocol = udpProtocol ∧
      (datagram packet).tuple.destinationPort = vxlanPort := by
  obtain ⟨-, -, hudp, hport, -⟩ := h
  constructor
  · exact UInt8.toNat_inj.mp hudp
  · rw [datagram, tuple, hport]
    rfl

theorem flow_false_eq_datagram (h : opensTunnel packet) :
    flow packet 0 false = some (datagram packet) := by
  refine flow_false_eq_some_iff.mpr ⟨h.1, Or.inr ⟨not_portless_of_opensTunnel h, ?_, rfl⟩⟩
  exact lies_of_opensTunnel h

theorem thirtyFour_le_transport (h : frame packet 0) : 34 ≤ transport packet 14 := by
  have hlength : 5 ≤ octet packet 14 % 16 := h.2.2.2
  unfold transport
  omega

section

variable {rest} (h : opensTunnel (packet ++ rest))

include h

/-- A VXLAN header that lies ahead opens the tunnel already. -/
theorem opensTunnel_of_append (hlong : datagramEnd (packet ++ rest) + 8 ≤ packet.length) :
    opensTunnel packet := by
  obtain ⟨hframe, hfragment, hudp, hport, -, hflag⟩ := h
  have hstart := thirtyFour_le_transport hframe
  unfold datagramEnd at hlong
  rw [transport_ahead rest (by omega)] at hlong hstart hport hflag
  rw [frame_ahead rest (by omega)] at hframe
  rw [short_ahead rest (by omega)] at hfragment hport
  rw [octet_ahead rest (by omega)] at hudp hflag
  exact ⟨hframe, hfragment, hudp, hport, hlong, hflag⟩

/-- What a whole outer IPv4 header says of the datagram behind it. -/
theorem headers_of_append (hip : lies packet 14 20) :
    ¬portless packet 14 ∧ transportSize packet 14 = 8 ∧
      transport (packet ++ rest) 14 = transport packet 14 := by
  have hudp := h.2.2.1
  rw [octet_ahead rest (by omega)] at hudp
  refine ⟨?_, ?_, transport_ahead rest (by omega)⟩
  · rw [← portless_ahead rest hip]
    exact not_portless_of_opensTunnel h
  · rw [transportSize, hudp]
    rfl

/-- Ahead of the tunnel there is no flow but that of the outer datagram, if its header is whole. -/
theorem flow_false_eq_some_iff_of_append :
    flow packet 0 false = some f ↔
      datagramEnd (packet ++ rest) ≤ packet.length ∧ f = datagram (packet ++ rest) := by
  have hwhole := flow_false_eq_datagram h
  have hsame : ∀ g, flow packet 0 false = some g → g = datagram (packet ++ rest) := by
    intro g hg
    have hg' := flow_false_append rest hg
    rw [hwhole] at hg'
    exact (Option.some.inj hg').symm
  constructor
  · intro hf
    refine ⟨?_, hsame f hf⟩
    obtain ⟨hframe, hports⟩ := flow_false_eq_some_iff.mp hf
    obtain ⟨hportless, hsize, htransport⟩ := headers_of_append h hframe.2.1
    rcases hports with ⟨hportless', -⟩ | ⟨-, hlies, -⟩
    · exact absurd hportless' hportless
    · rw [hsize] at hlies
      rwa [datagramEnd, htransport]
  · rintro ⟨hlong, rfl⟩
    have hstart := thirtyFour_le_transport h.1
    unfold datagramEnd at hlong
    obtain ⟨hportless, hsize, htransport⟩ := headers_of_append h (by omega)
    have hframe : frame packet 0 := (frame_ahead rest (by omega)).mp h.1
    have hlies : lies packet (transport packet 14) (transportSize packet 14) := by
      rwa [hsize, ← htransport]
    have hf := flow_false_eq_some_iff.mpr ⟨hframe, Or.inr ⟨hportless, hlies, rfl⟩⟩
    rw [hf, hsame _ hf]

/-- A part of the packet shows the outer datagram where it ends in the VXLAN header. -/
theorem flow_of_append (hcut : ¬opensTunnel packet) :
    flow packet 0 true = some f ↔
      datagramEnd (packet ++ rest) ≤ packet.length ∧
        packet.length < datagramEnd (packet ++ rest) + 8 ∧ f = datagram (packet ++ rest) := by
  have hshort : packet.length < datagramEnd (packet ++ rest) + 8 := by
    by_contra hlong
    exact hcut (opensTunnel_of_append h (by omega))
  rw [flow_of_not_opensTunnel hcut, flow_false_eq_some_iff_of_append h]
  simp only [hshort, true_and]

end

end Layout

open Layout

theorem tunneled_iff_opensTunnel {packet : Bytes} {timestamp : UInt64} {r : WireRecord}
    (h : classify packet timestamp = some r) : r.tunneled = true ↔ opensTunnel packet := by
  obtain ⟨f, hf, -, -, hr⟩ := exists_flow_of_classify h
  have hflags : r.flags = if f.tunneled then 1 else 0 := by rw [hr]
  have hmarked : r.tunneled = f.tunneled := by
    rw [WireRecord.tunneled, hflags]
    cases f.tunneled <;> rfl
  rw [hmarked]
  by_cases hopens : opensTunnel packet
  · rw [flow_of_opensTunnel hopens] at hf
    obtain ⟨inner, -, rfl⟩ := Option.map_eq_some_iff.mp hf
    exact iff_of_true rfl hopens
  · rw [flow_of_not_opensTunnel hopens] at hf
    rw [tunneled_of_flow_false hf]
    exact iff_of_false Bool.false_ne_true hopens

/-- A part of a packet gives no record, the same, or that of the outer datagram. -/
theorem classify_of_append {packet rest : Bytes} {timestamp : UInt64} {r : WireRecord}
    (h : classify (packet ++ rest) timestamp = some r) :
    if r.tunneled = true ∧ datagramEnd (packet ++ rest) ≤ packet.length ∧
        packet.length < datagramEnd (packet ++ rest) + 8 then
      classify packet timestamp = (datagram (packet ++ rest)).record? timestamp
    else classify packet timestamp = none ∨ classify packet timestamp = some r := by
  simp only [tunneled_iff_opensTunnel h]
  by_cases hcut : opensTunnel (packet ++ rest) ∧ ¬opensTunnel packet
  · obtain ⟨hopens, hcut⟩ := hcut
    have hflow := fun f => flow_of_append (f := f) hopens hcut
    split_ifs with hlength
    · rw [classify_eq_record, (hflow _).mpr ⟨hlength.2.1, hlength.2.2, rfl⟩, Option.bind_some]
    · refine Or.inl ?_
      have hnone : flow packet 0 true = none := by
        rw [Option.eq_none_iff_forall_ne_some]
        intro f hf
        obtain ⟨hstart, hend, -⟩ := (hflow f).mp hf
        exact hlength ⟨hopens, hstart, hend⟩
      rw [classify_eq_record, hnone, Option.bind_none]
  · have hcomplete : opensTunnel (packet ++ rest) → opensTunnel packet := by
      intro hopens
      by_contra hcut'
      exact hcut ⟨hopens, hcut'⟩
    have hlength : ¬(opensTunnel (packet ++ rest) ∧
        datagramEnd (packet ++ rest) ≤ packet.length ∧
        packet.length < datagramEnd (packet ++ rest) + 8) := by
      rintro ⟨hopens, -, hend⟩
      obtain ⟨-, -, -, -, hvxlan, -⟩ := hcomplete hopens
      rw [datagramEnd, (opensTunnel_append (hcomplete hopens) rest).2] at hend
      omega
    rw [if_neg hlength]
    cases hf : flow packet 0 true with
    | none =>
      refine Or.inl ?_
      rw [classify_eq_record, hf, Option.bind_none]
    | some f =>
      refine Or.inr ?_
      rw [← h, classify_eq_record, classify_eq_record, hf, flow_append rest hf hcomplete]

/-- The first `n` bytes of a packet give no record or the record of the packet, unless the packet is
tunneled and they end in its VXLAN header: then they give the record of the outer datagram. With any
bytes behind it the packet gives the same record, unless it is a datagram to the VXLAN port that ends
before a VXLAN header would. -/
theorem classify_take_append (packet : Bytes) (timestamp : UInt64) {r : WireRecord}
    (h : classify packet timestamp = some r) :
    let headerEnd := datagramEnd packet
    (∀ n ≤ packet.length,
      if r.tunneled = true ∧ headerEnd ≤ n ∧ n < headerEnd + 8 then
        classify (packet.take n) timestamp = (datagram packet).record? timestamp
      else
        classify (packet.take n) timestamp = none ∨ classify (packet.take n) timestamp = some r) ∧
    ∀ suffix, ¬(r.tunneled = false ∧ r.protocol = udpProtocol ∧ r.destinationPort = vxlanPort ∧
        packet.length < headerEnd + 8) →
      classify (packet ++ suffix) timestamp = some r := by
  intro headerEnd
  constructor
  · intro n hn
    have hlength : (packet.take n).length = n := by
      rw [List.length_take, Nat.min_eq_left hn]
    have hwhole : classify (packet.take n ++ packet.drop n) timestamp = some r := by
      rwa [List.take_append_drop]
    have hpart := classify_of_append hwhole
    rwa [List.take_append_drop, hlength] at hpart
  · intro suffix hwhole
    obtain ⟨f, hf, -, -, hr⟩ := exists_flow_of_classify h
    have hcomplete : opensTunnel (packet ++ suffix) → opensTunnel packet := by
      intro hopens
      by_contra hcut
      obtain ⟨hstart, hend, rfl⟩ := (flow_of_append hopens hcut).mp hf
      obtain ⟨hprotocol, hport⟩ := tuple_datagram hopens
      refine hwhole ⟨?_, ?_, ?_, ?_⟩
      · rwa [← tunneled_iff_opensTunnel h, Bool.not_eq_true] at hcut
      · rw [hr]
        exact hprotocol
      · rw [hr]
        exact hport
      · unfold datagramEnd at hstart hend
        have hip := thirtyFour_le_transport hopens.1
        rwa [transport_ahead suffix (by omega)] at hend
    rw [← h, classify_eq_record, classify_eq_record, hf, flow_append suffix hf hcomplete]

def carrierRecord : WireRecord where
  sourceAddress := 0x0A000001
  destinationAddress := 0x0A000002
  sourcePort := 80
  destinationPort := 4789
  protocol := 17
  verdict := 1
  timestamp := 7

theorem classify_take_append_tunnel :
    let packet := fragmentHeaders ++ echoFrame
    classify packet 7 = some echoRecord ∧ datagramEnd packet = 46 ∧
      classify (packet.take 45) 7 = none ∧ classify (packet.take 46) 7 = some carrierRecord ∧
      classify (packet.take 53) 7 = some carrierRecord ∧ classify (packet.take 54) 7 = none ∧
      classify (packet ++ [1, 2, 3]) 7 = some echoRecord := by
  intro packet
  have hrecord : classify packet 7 = some echoRecord := by decide
  have hend : datagramEnd packet = 46 := by decide
  have hmarked : echoRecord.tunneled = true := by decide
  have hdatagram : (datagram packet).record? 7 = some carrierRecord := by decide
  obtain ⟨hpart, hwhole⟩ := classify_take_append packet 7 hrecord
  have hcut : ∀ n, 46 ≤ n → n < 54 → classify (packet.take n) 7 = some carrierRecord := by
    intro n hstart hshort
    have hn := hpart n (by rw [show packet.length = 88 from rfl]; omega)
    rwa [if_pos ⟨hmarked, by omega, by omega⟩, hdatagram] at hn
  refine ⟨hrecord, hend, by decide, hcut 46 (by decide) (by decide), hcut 53 (by decide) (by decide),
    by decide, hwhole [1, 2, 3] ?_⟩
  rintro ⟨hplain, -⟩
  rw [hmarked] at hplain
  cases hplain

end Packet
end FlowObserver
