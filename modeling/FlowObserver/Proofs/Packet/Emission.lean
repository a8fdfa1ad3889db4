import FlowObserver.Proofs.Flow.Codec
import FlowObserver.Proofs.Ingest.Accounting
import FlowObserver.Proofs.Packet.Encapsulation

/-!
# What is emitted can be read

The record of a packet names its flow between two addresses that are not zero, with the one verdict
that a classified packet has, and with ports only where the protocol has them. So it decodes to this
very flow, and ingestion discards none of the records that packets give.
-/

namespace FlowObserver
namespace Packet

open Layout

/-- Neither TCP nor UDP, so there are no ports to show. -/
theorem ports_of_flow_false {packet : Bytes} {base : Nat} {f : Reading}
    (hf : flow packet base false = some f) (htcp : f.tuple.protocol ≠ tcpProtocol)
    (hudp : f.tuple.protocol ≠ udpProtocol) :
    f.tuple.sourcePort = 0 ∧ f.tuple.destinationPort = 0 := by
  have hoctet : ∀ b : UInt8, packet.getD (base + 14 + 9) 0 ≠ b →
      octet packet (base + 14 + 9) ≠ b.toNat := by
    intro b hb h
    exact hb (UInt8.toNat_inj.mp h)
  obtain ⟨-, ⟨-, rfl⟩ | ⟨hportless, -, rfl⟩⟩ := flow_false_eq_some_iff.mp hf
  · exact ⟨rfl, rfl⟩
  · -- a frame with a transport header carries TCP or UDP
    exact absurd (Or.inr ⟨hoctet _ htcp, hoctet _ hudp⟩) hportless

theorem ports_of_flow {packet : Bytes} {f : Reading} (hf : flow packet 0 true = some f)
    (htcp : f.tuple.protocol ≠ tcpProtocol) (hudp : f.tuple.protocol ≠ udpProtocol) :
    f.tuple.sourcePort = 0 ∧ f.tuple.destinationPort = 0 := by
  by_cases hopens : opensTunnel packet
  · rw [flow_of_opensTunnel hopens] at hf
    obtain ⟨inner, hinner, rfl⟩ := Option.map_eq_some_iff.mp hf
    exact ports_of_flow_false (f := inner) hinner htcp hudp
  · rw [flow_of_not_opensTunnel hopens] at hf
    exact ports_of_flow_false hf htcp hudp

theorem exists_flow_of_classify {packet : Bytes} {timestamp : UInt64} {r : WireRecord}
    (h : classify packet timestamp = some r) :
    ∃ f, flow packet 0 true = some f ∧ f.tuple.source ≠ 0 ∧ f.tuple.destination ≠ 0 ∧
      r = { WireRecord.ofTuple f.tuple with
        verdict := forwardVerdict, flags := if f.tunneled then 1 else 0, timestamp } := by
  rw [classify_eq_record] at h
  obtain ⟨f, hf, hr⟩ := Option.bind_eq_some_iff.mp h
  by_cases hzero : f.tuple.source = 0 ∨ f.tuple.destination = 0
  · rw [Reading.record?, if_pos hzero] at hr
    cases hr
  · rw [Reading.record?, if_neg hzero] at hr
    rw [not_or] at hzero
    exact ⟨f, hf, hzero.1, hzero.2, (Option.some.inj hr).symm⟩

/-- What a record says of its flow is what the decoder reads. -/
theorem decode_of_classify {packet : Bytes} {timestamp : UInt64} {r : WireRecord}
    (h : classify packet timestamp = some r) (suffix : Bytes) :
    Flow.decode (r.toBytes ++ suffix) = .ok (Flow.ofRecord r .forwarded) := by
  obtain ⟨f, -, -, -, hr⟩ := exists_flow_of_classify h
  have hverdict : Verdict.ofByte? r.verdict = some .forwarded := by
    rw [hr]
    rfl
  rw [Flow.decode_toBytes, hverdict]

def emitted (packets : List (Bytes × UInt64)) : List Bytes :=
  packets.filterMap fun p => (classify p.1 p.2).map WireRecord.toBytes

theorem accepted_of_mem_emitted {packets : List (Bytes × UInt64)} {record : Bytes}
    (h : record ∈ emitted packets) :
    Ingestion.isTruncated record = false ∧ Ingestion.isMalformed record = false := by
  obtain ⟨p, -, hp⟩ := List.mem_filterMap.mp h
  obtain ⟨r, hr, rfl⟩ := Option.map_eq_some_iff.mp hp
  have hdecode := decode_of_classify hr []
  rw [List.append_nil] at hdecode
  unfold Ingestion.isTruncated Ingestion.isMalformed
  rw [hdecode]
  exact ⟨rfl, rfl⟩

end Packet

namespace Ingestion

theorem Accounts.none_discarded {course : List Step} {x : Activity} (hx : Accounts course x)
    (haccepted : ∀ record ∈ source course, isTruncated record = false ∧ isMalformed record = false) :
    x.ingestion.stats.truncated = 0 ∧ x.ingestion.stats.malformed = 0 := by
  have hsource : ∀ record ∈ taken course, record.2 ∈ source course := by
    intro record hrecord
    exact (List.of_mem_zip hrecord).2
  constructor
  · rw [hx.processed.truncated, List.countP_eq_zero]
    intro record hrecord
    simp [(haccepted _ (hsource record hrecord)).1]
  · rw [hx.processed.malformed, List.countP_eq_zero]
    intro record hrecord
    simp [(haccepted _ (hsource record hrecord)).2]

end Ingestion

namespace Packet

/-- Every record that a packet gives decodes, with any bytes behind it, to the flow that it names; and
ingestion that reads such records, in whatever batches and whatever else befalls it, discards none. -/
theorem emitted_records_accepted (settings : PipelineSettings) {channel : Handoff}
    (hfresh : channel.placed = []) :
    (∀ packet timestamp r, classify packet timestamp = some r →
      (∀ suffix, Flow.decode (r.toBytes ++ suffix) = .ok {
        tuple := {
          source := r.sourceAddress
          destination := r.destinationAddress
          sourcePort := r.sourcePort
          destinationPort := r.destinationPort
          protocol := r.protocol }
        verdict := .forwarded
        timestamp := r.timestamp
        tunneled := r.tunneled }) ∧
      r.timestamp = timestamp ∧ r.sourceAddress ≠ 0 ∧ r.destinationAddress ≠ 0 ∧
      (r.protocol ≠ tcpProtocol → r.protocol ≠ udpProtocol →
        r.sourcePort = 0 ∧ r.destinationPort = 0)) ∧
    ∀ packets,
      (∀ course x, Ingestion.Run settings (.initial settings channel) course x →
        Ingestion.source course <+: emitted packets →
        x.ingestion.stats.truncated = 0 ∧ x.ingestion.stats.malformed = 0) ∧
      ∀ index script shutdownAt tick, 0 < tick →
        script.flatMap Ingestion.Read.records = emitted packets →
        let done := (Ingestion.run settings index channel script shutdownAt tick).value.2
        done.ingestion.stats.truncated = 0 ∧ done.ingestion.stats.malformed = 0 := by
  have hcourse : ∀ packets course x, Ingestion.Run settings (.initial settings channel) course x →
      Ingestion.source course <+: emitted packets →
      x.ingestion.stats.truncated = 0 ∧ x.ingestion.stats.malformed = 0 := by
    intro packets course x hrun hsource
    apply ((Ingestion.accounts_initial settings hfresh).run hrun).none_discarded
    intro record hrecord
    exact accepted_of_mem_emitted (hsource.subset hrecord)
  refine ⟨?_, fun packets => ⟨hcourse packets, ?_⟩⟩
  · intro packet timestamp r h
    obtain ⟨f, hf, hsource, hdestination, rfl⟩ := exists_flow_of_classify h
    exact ⟨decode_of_classify h, rfl, hsource, hdestination, ports_of_flow hf⟩
  · intro index script shutdownAt tick htick hscript done
    obtain ⟨reads, htook, course, x, hrun, hsource, -, -, hingestion, -⟩ :=
      Ingestion.exists_course_of_run settings index hfresh script shutdownAt htick
    have hprefix : Ingestion.source course <+: emitted packets := by
      rw [hsource, ← hscript]
      exact htook.takes.isPrefix.flatMap _
    have hnone := hcourse packets course x hrun hprefix
    rwa [hingestion] at hnone

/-- A frame in a tunnel, the same frame by itself, and a frame that is cut off. -/
def echoes : List (Bytes × UInt64) :=
  [(fragmentHeaders ++ echoFrame, 7), (echoFrame, 8), (echoFrame.take 30, 9)]

def echoRecord : WireRecord where
  sourceAddress := 0x0A000003
  destinationAddress := 0x0A000004
  protocol := 1
  verdict := 1
  flags := 1
  timestamp := 7

theorem emitted_records_accepted_echoes :
    let script : List Ingestion.Read := [{ result := .batch (emitted echoes) }]
    let done := (Ingestion.run {} none { capacity := 1 } script none).value.2
    ({ capacity := 1 } : Handoff).placed = [] ∧
      script.flatMap Ingestion.Read.records = emitted echoes ∧ (emitted echoes).length = 2 ∧
      classify (fragmentHeaders ++ echoFrame) 7 = some echoRecord ∧
      Flow.decode (echoRecord.toBytes ++ [1, 2, 3]) =
        .ok ⟨⟨0x0A000003, 0x0A000004, 0, 0, 1⟩, .forwarded, 7, true⟩ ∧
      done.ingestion.stats.truncated = 0 ∧ done.ingestion.stats.malformed = 0 := by
  intro script done
  have hfresh : ({ capacity := 1 } : Handoff).placed = [] := rfl
  have hscript : script.flatMap Ingestion.Read.records = emitted echoes := List.append_nil _
  have hrecord : classify (fragmentHeaders ++ echoFrame) 7 = some echoRecord := by decide
  have hmarked : echoRecord.tunneled = true := by decide
  obtain ⟨hall, hnone⟩ := emitted_records_accepted {} hfresh
  have hdecode := (hall _ 7 echoRecord hrecord).1 [1, 2, 3]
  rw [hmarked] at hdecode
  exact ⟨hfresh, hscript, by decide, hrecord, hdecode,
    (hnone echoes).2 none script none Ingestion.nanosPerMilli (by decide) hscript⟩

end Packet
end FlowObserver
