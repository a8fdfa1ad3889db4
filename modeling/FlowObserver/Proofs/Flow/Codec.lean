import FlowObserver.Flow.Decode
import Mathlib.Data.List.GetD
import Mathlib.Data.List.TakeDrop
import Mathlib.Tactic

/-!
# Reading back a record

Each field of a record stands where the decoder looks for it, and its bytes give back its value. So
the bytes of a record decode to what the record says, with whatever comes behind them, unless its
verdict byte names no verdict. Conversely, a flow that was decoded is written again as the bytes that
it was read from, but for those bits that the decoder passes over.
-/

namespace FlowObserver

namespace Bytes

theorem ofLittleEndian_littleEndian_of_lt {width n : Nat} (h : n < Nat.pow 256 width) :
    ofLittleEndian (littleEndian width n) = n := by
  rw [ofLittleEndian_littleEndian, Nat.mod_eq_of_lt h]

theorem ofNat_littleEndian_two (x : UInt16) :
    UInt16.ofNat (ofLittleEndian (littleEndian 2 x.toNat)) = x := by
  rw [ofLittleEndian_littleEndian_of_lt x.toNat_lt, UInt16.ofNat_toNat]

theorem ofNat_littleEndian_four (x : UInt32) :
    UInt32.ofNat (ofLittleEndian (littleEndian 4 x.toNat)) = x := by
  rw [ofLittleEndian_littleEndian_of_lt x.toNat_lt, UInt32.ofNat_toNat]

theorem ofNat_littleEndian_eight (x : UInt64) :
    UInt64.ofNat (ofLittleEndian (littleEndian 8 x.toNat)) = x := by
  rw [ofLittleEndian_littleEndian_of_lt x.toNat_lt, UInt64.ofNat_toNat]

theorem ofLittleEndian_lt (bs : Bytes) : ofLittleEndian bs < Nat.pow 256 bs.length := by
  have h := ofLittleEndian_littleEndian bs.length (ofLittleEndian bs)
  rw [littleEndian_ofLittleEndian] at h
  rw [h]
  exact Nat.mod_lt _ (Nat.pow_pos (by decide))

variable (bs : Bytes)

theorem length_field {start width : Nat} (h : start + width ≤ bs.length) :
    (bs.field start width).length = width := by
  rw [field, List.length_take, List.length_drop]
  omega

theorem field_append (start first second : Nat) :
    bs.field start first ++ bs.field (start + first) second = bs.field start (first + second) := by
  rw [field, field, field, List.take_add, List.drop_drop]

theorem field_one {i : Nat} (h : i < bs.length) : bs.field i 1 = [bs.getD i 0] := by
  rw [field, List.take_one_drop_eq_of_lt_length h, List.getD_eq_getElem _ _ h]
  rfl

/-- Fields of these widths, one behind the other. -/
def fieldsFrom (start : Nat) : List Nat → List Bytes
  | [] => []
  | width :: rest => bs.field start width :: fieldsFrom (start + width) rest

theorem flatten_fieldsFrom (start : Nat) (widths : List Nat) :
    (bs.fieldsFrom start widths).flatten = bs.field start widths.sum := by
  induction widths generalizing start with
  | nil => rfl
  | cons width rest ih => rw [fieldsFrom, List.flatten_cons, ih, field_append, List.sum_cons]

end Bytes

namespace Flow

open Bytes

variable (r : WireRecord) (suffix : Bytes)

def ofRecord (r : WireRecord) (verdict : Verdict) : Flow where
  tuple := ⟨r.sourceAddress, r.destinationAddress, r.sourcePort, r.destinationPort, r.protocol⟩
  verdict
  timestamp := r.timestamp
  tunneled := r.tunneled

theorem tuple_toBytes :
    (⟨UInt32.ofNat (numberAt (r.toBytes ++ suffix) 0 4),
      UInt32.ofNat (numberAt (r.toBytes ++ suffix) 4 4),
      UInt16.ofNat (numberAt (r.toBytes ++ suffix) 8 2),
      UInt16.ofNat (numberAt (r.toBytes ++ suffix) 10 2),
      (r.toBytes ++ suffix).getD 12 0⟩ : FiveTuple) =
    ⟨r.sourceAddress, r.destinationAddress, r.sourcePort, r.destinationPort, r.protocol⟩ := by
  have hsource : numberAt (r.toBytes ++ suffix) 0 4 =
      ofLittleEndian (littleEndian 4 r.sourceAddress.toNat) := rfl
  have hdestination : numberAt (r.toBytes ++ suffix) 4 4 =
      ofLittleEndian (littleEndian 4 r.destinationAddress.toNat) := rfl
  have hsourcePort : numberAt (r.toBytes ++ suffix) 8 2 =
      ofLittleEndian (littleEndian 2 r.sourcePort.toNat) := rfl
  have hdestinationPort : numberAt (r.toBytes ++ suffix) 10 2 =
      ofLittleEndian (littleEndian 2 r.destinationPort.toNat) := rfl
  have hprotocol : (r.toBytes ++ suffix).getD 12 0 = r.protocol := rfl
  rw [hsource, hdestination, hsourcePort, hdestinationPort, hprotocol, ofNat_littleEndian_four,
    ofNat_littleEndian_four, ofNat_littleEndian_two, ofNat_littleEndian_two]

/-- The bytes of a record are refused only for a verdict byte that names no verdict. -/
theorem decode_toBytes :
    decode (r.toBytes ++ suffix) =
      match Verdict.ofByte? r.verdict with
      | none => .error (.malformed r.verdict)
      | some verdict => .ok (ofRecord r verdict) := by
  have hlong : ¬(r.toBytes ++ suffix).length < WireRecord.size := by
    rw [List.length_append, WireRecord.length_toBytes]
    omega
  have hverdict : (r.toBytes ++ suffix).getD 13 0 = r.verdict := rfl
  have hflags : (r.toBytes ++ suffix).getD 14 0 = r.flags := rfl
  have htimestamp : numberAt (r.toBytes ++ suffix) 16 8 =
      ofLittleEndian (littleEndian 8 r.timestamp.toNat) := rfl
  rw [decode, if_neg hlong, hverdict]
  cases Verdict.ofByte? r.verdict with
  | none => rfl
  | some verdict =>
    dsimp only
    rw [tuple_toBytes, htimestamp, ofNat_littleEndian_eight, hflags]
    rfl

section

variable {bytes : Bytes} {start : Nat}

theorem littleEndian_numberAt {width : Nat} (h : start + width ≤ bytes.length) :
    littleEndian width (numberAt bytes start width) = bytes.field start width := by
  have hback := littleEndian_ofLittleEndian (bytes.field start width)
  rwa [length_field bytes h] at hback

theorem numberAt_lt {width : Nat} (h : start + width ≤ bytes.length) :
    numberAt bytes start width < Nat.pow 256 width := by
  have hlt := ofLittleEndian_lt (bytes.field start width)
  rwa [length_field bytes h] at hlt

theorem littleEndian_two_numberAt (h : start + 2 ≤ bytes.length) :
    littleEndian 2 (UInt16.ofNat (numberAt bytes start 2)).toNat = bytes.field start 2 := by
  rw [UInt16.toNat_ofNat_of_lt' (numberAt_lt h), littleEndian_numberAt h]

theorem littleEndian_four_numberAt (h : start + 4 ≤ bytes.length) :
    littleEndian 4 (UInt32.ofNat (numberAt bytes start 4)).toNat = bytes.field start 4 := by
  rw [UInt32.toNat_ofNat_of_lt' (numberAt_lt h), littleEndian_numberAt h]

theorem littleEndian_eight_numberAt (h : start + 8 ≤ bytes.length) :
    littleEndian 8 (UInt64.ofNat (numberAt bytes start 8)).toNat = bytes.field start 8 := by
  rw [UInt64.toNat_ofNat_of_lt' (numberAt_lt h), littleEndian_numberAt h]

theorem front_eq (hlong : 24 ≤ bytes.length) :
    bytes.field 0 14 = bytes.field 0 4 ++ (bytes.field 4 4 ++ (bytes.field 8 2 ++
      (bytes.field 10 2 ++ [bytes.getD 12 0, bytes.getD 13 0]))) := by
  have hfields := flatten_fieldsFrom bytes 0 [4, 4, 2, 2, 1, 1]
  change bytes.field 0 4 ++ (bytes.field 4 4 ++ (bytes.field 8 2 ++ (bytes.field 10 2 ++
    (bytes.field 12 1 ++ (bytes.field 13 1 ++ []))))) = bytes.field 0 14 at hfields
  rw [← hfields, field_one bytes (by omega), field_one bytes (by omega)]
  rfl

theorem take_size_eq (hlong : 24 ≤ bytes.length) :
    bytes.take 24 = bytes.field 0 14 ++ (bytes.getD 14 0 :: bytes.getD 15 0 :: bytes.field 16 8) := by
  have hfields := flatten_fieldsFrom bytes 0 [14, 1, 1, 8]
  change bytes.field 0 14 ++ (bytes.field 14 1 ++ (bytes.field 15 1 ++ (bytes.field 16 8 ++ []))) =
    bytes.take 24 at hfields
  rw [← hfields, field_one bytes (by omega), field_one bytes (by omega), List.append_nil]
  rfl

theorem set_behind {front : Bytes} (hfront : front.length = 14) (flags padding a b : UInt8)
    (last : Bytes) :
    ((front ++ flags :: padding :: last).set 14 a).set 15 b = front ++ a :: b :: last := by
  rw [List.set_append_right _ _ (by omega), List.set_append_right _ _ (by omega), hfront]
  rfl

theorem toByte_of_ofByte? {b : UInt8} {verdict : Verdict} (h : Verdict.ofByte? b = some verdict) :
    verdict.toByte = b := by
  unfold Verdict.ofByte? at h
  split_ifs at h with hforward hdrop
  · rw [hforward, ← Option.some.inj h]
    rfl
  · rw [hdrop, ← Option.some.inj h]
    rfl

/-- The mark of a flow is the lowest bit of its flags. -/
theorem mark_eq (flags : UInt8) :
    (if (flags &&& WireRecord.tunneledFlag != 0) = true then WireRecord.tunneledFlag else 0) =
      flags &&& WireRecord.tunneledFlag := by
  have hbit : (flags &&& WireRecord.tunneledFlag).toNat = flags.toNat % 2 := by
    rw [UInt8.toNat_and]
    exact Nat.and_one_is_mod flags.toNat
  split_ifs with hset
  · have hodd : (flags &&& WireRecord.tunneledFlag).toNat ≠ 0 :=
      fun h => bne_iff_ne.mp hset (UInt8.toNat_inj.mp h)
    apply UInt8.toNat_inj.mp
    change 1 = _
    omega
  · rw [bne_iff_ne, not_not] at hset
    exact hset.symm

/-- What the decoder passes over is all that is lost: the flags but one, and the padding. -/
theorem exists_decode_eq_ok (hlong : WireRecord.size ≤ bytes.length) {verdict : Verdict}
    (hverdict : Verdict.ofByte? (bytes.getD 13 0) = some verdict) :
    ∃ f, decode bytes = .ok f ∧ f.toRecord.toBytes =
      ((bytes.take 24).set 14 (bytes.getD 14 0 &&& WireRecord.tunneledFlag)).set 15 0 := by
  refine ⟨_, by rw [decode, if_neg (Nat.not_lt.mpr hlong), hverdict], ?_⟩
  change 24 ≤ bytes.length at hlong
  have hfront : (bytes.field 0 14).length = 14 := length_field bytes (by omega)
  rw [take_size_eq hlong, set_behind hfront, front_eq hlong, WireRecord.toBytes, toRecord]
  dsimp only
  rw [littleEndian_four_numberAt (by omega), littleEndian_four_numberAt (by omega),
    littleEndian_two_numberAt (by omega), littleEndian_two_numberAt (by omega),
    littleEndian_eight_numberAt (by omega), toByte_of_ofByte? hverdict, mark_eq]
  simp only [List.append_assoc, List.cons_append, List.nil_append]

end

def numberAt? (bytes : Bytes) (start width : Nat) : Option Nat :=
  if start + width ≤ bytes.length then some (numberAt bytes start width) else none

/-- The decoder with every access checked: none as soon as it asks for a byte that is not there. -/
def decodeChecked (bytes : Bytes) : Option (Except DecodeError Flow) :=
  if bytes.length < WireRecord.size then some (.error (.truncated bytes.length))
  else do
    let verdictByte ← bytes[13]?
    match Verdict.ofByte? verdictByte with
    | none => return .error (.malformed verdictByte)
    | some verdict => do
      let source ← numberAt? bytes 0 4
      let destination ← numberAt? bytes 4 4
      let sourcePort ← numberAt? bytes 8 2
      let destinationPort ← numberAt? bytes 10 2
      let protocol ← bytes[12]?
      let timestamp ← numberAt? bytes 16 8
      let flags ← bytes[14]?
      return .ok {
        tuple := {
          source := UInt32.ofNat source
          destination := UInt32.ofNat destination
          sourcePort := UInt16.ofNat sourcePort
          destinationPort := UInt16.ofNat destinationPort
          protocol }
        verdict
        timestamp := UInt64.ofNat timestamp
        tunneled := flags &&& WireRecord.tunneledFlag != 0 }

theorem getElem?_eq_getD {bytes : Bytes} {i : Nat} (h : i < bytes.length) :
    bytes[i]? = some (bytes.getD i 0) := by
  rw [List.getD_eq_getElem _ _ h, List.getElem?_eq_getElem h]

theorem decodeChecked_eq (bytes : Bytes) : decodeChecked bytes = some (decode bytes) := by
  rw [decodeChecked, decode]
  by_cases hshort : bytes.length < WireRecord.size
  · rw [if_pos hshort, if_pos hshort]
  · rw [if_neg hshort, if_neg hshort]
    have hlong : 24 ≤ bytes.length := Nat.not_lt.mp hshort
    have hnumber : ∀ start width, start + width ≤ 24 →
        numberAt? bytes start width = some (numberAt bytes start width) :=
      fun start width h => if_pos (h.trans hlong)
    rw [getElem?_eq_getD (by omega), getElem?_eq_getD (by omega), getElem?_eq_getD (by omega),
      hnumber 0 4 (by decide), hnumber 4 4 (by decide), hnumber 8 2 (by decide),
      hnumber 10 2 (by decide), hnumber 16 8 (by decide)]
    simp only [Option.bind_eq_bind, Option.bind_some]
    cases Verdict.ofByte? (bytes.getD 13 0) <;> rfl

theorem ofByte?_eq_some {b : UInt8} (h : b = 1 ∨ b = 2) :
    ∃ verdict, Verdict.ofByte? b = some verdict := by
  rcases h with rfl | rfl
  · exact ⟨.forwarded, rfl⟩
  · exact ⟨.dropped, rfl⟩

theorem decode_eq_error_iff (bytes : Bytes) (e : DecodeError) :
    decode bytes = .error e ↔
      bytes.length < 24 ∧ e = .truncated bytes.length ∨
        24 ≤ bytes.length ∧ e = .malformed (bytes.getD 13 0) ∧
          bytes.getD 13 0 ≠ 1 ∧ bytes.getD 13 0 ≠ 2 := by
  rw [decode, WireRecord.size]
  by_cases hshort : bytes.length < 24
  · rw [if_pos hshort]
    simp [hshort, Nat.not_le.mpr hshort, eq_comm]
  · rw [if_neg hshort, ← Verdict.ofByte?_eq_none_iff]
    cases Verdict.ofByte? (bytes.getD 13 0) with
    | none => simp [hshort, Nat.not_lt.mp hshort, eq_comm]
    | some verdict => simp [hshort]

/-- Every byte string decodes without an access out of range: one that is too short is refused with
its length, any other only for a verdict byte that names no verdict, and what is decoded is written
again as the bytes that were read, with all flags but the lowest and the padding cleared. A record
with one of the two verdicts is read back from its bytes whatever stands behind them. -/
theorem decode_exact :
    (∀ bytes : Bytes,
      decodeChecked bytes = some (decode bytes) ∧
      (∀ n, decode bytes = .error (.truncated n) ↔ bytes.length < 24 ∧ n = bytes.length) ∧
      (∀ b, decode bytes = .error (.malformed b) ↔
        24 ≤ bytes.length ∧ bytes[13]? = some b ∧ b ≠ 1 ∧ b ≠ 2) ∧
      (24 ≤ bytes.length → bytes[13]? = some 1 ∨ bytes[13]? = some 2 →
        ∃ f, decode bytes = .ok f ∧
          f.toRecord.toBytes = ((bytes.take 24).set 14 (bytes.getD 14 0 &&& 1)).set 15 0)) ∧
    ∀ (r : WireRecord) (suffix : Bytes), r.verdict = 1 ∨ r.verdict = 2 →
      ∃ f, decode (r.toBytes ++ suffix) = .ok f ∧
        f.tuple = ⟨r.sourceAddress, r.destinationAddress, r.sourcePort, r.destinationPort,
          r.protocol⟩ ∧
        f.verdict.toByte = r.verdict ∧ f.timestamp = r.timestamp ∧ f.tunneled = r.tunneled := by
  constructor
  · intro bytes
    refine ⟨decodeChecked_eq bytes, ?_, ?_, ?_⟩
    · intro n
      rw [decode_eq_error_iff]
      simp
    · intro b
      rw [decode_eq_error_iff]
      constructor
      · rintro (⟨-, he⟩ | ⟨hlong, he, hforward, hdrop⟩)
        · cases he
        · obtain rfl := DecodeError.malformed.inj he
          exact ⟨hlong, getElem?_eq_getD (by omega), hforward, hdrop⟩
      · rintro ⟨hlong, hbyte, hforward, hdrop⟩
        rw [getElem?_eq_getD (by omega), Option.some_inj] at hbyte
        rw [hbyte]
        exact Or.inr ⟨hlong, rfl, hforward, hdrop⟩
    · intro hlong hbyte
      rw [getElem?_eq_getD (by omega), Option.some_inj, Option.some_inj] at hbyte
      obtain ⟨verdict, hverdict⟩ := ofByte?_eq_some hbyte
      exact exists_decode_eq_ok hlong hverdict
  · intro r suffix hbyte
    obtain ⟨verdict, hverdict⟩ := ofByte?_eq_some hbyte
    rw [decode_toBytes, hverdict]
    exact ⟨_, rfl, rfl, toByte_of_ofByte? hverdict, rfl, rfl⟩

/-- A record with every flag set, to which its reader pays no more heed than to the two bytes behind
it. -/
def markedRecord : WireRecord where
  sourceAddress := 0xFFFFFFFF
  destinationAddress := 0x0A000009
  sourcePort := 43210
  destinationPort := 65535
  protocol := 255
  verdict := 2
  flags := 0xFF
  timestamp := 0xFFFFFFFFFFFFFFFF

theorem decode_exact_marked :
    let bytes := markedRecord.toBytes ++ [1, 2]
    (∃ f, decode bytes = .ok f ∧ f.toRecord.toBytes = { markedRecord with flags := 1 }.toBytes) ∧
      (∃ f, decode bytes = .ok f ∧ f.tunneled = true ∧ f.timestamp = 0xFFFFFFFFFFFFFFFF) ∧
      decode (bytes.take 23) = .error (.truncated 23) ∧
      decode (bytes.set 13 3) = .error (.malformed 3) := by
  intro bytes
  obtain ⟨hbytes, hrecords⟩ := decode_exact
  refine ⟨?_, ?_, ?_, ?_⟩
  · obtain ⟨f, hf, hwritten⟩ := (hbytes bytes).2.2.2 (by decide) (by decide)
    refine ⟨f, hf, ?_⟩
    rw [hwritten]
    decide
  · obtain ⟨f, hf, -, -, htimestamp, htunneled⟩ := hrecords markedRecord [1, 2] (by decide)
    exact ⟨f, hf, htunneled, htimestamp⟩
  · exact ((hbytes (bytes.take 23)).2.1 23).mpr (by decide)
  · exact ((hbytes (bytes.set 13 3)).2.2.1 3).mpr (by decide)

end Flow
end FlowObserver
