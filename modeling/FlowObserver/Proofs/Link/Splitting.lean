import FlowObserver.Link.Netlink
import Mathlib

/-!
# Splitting a buffer of link messages

Messages lie one behind the other, each padded to a multiple of four bytes. Whatever reads them, two
facts about it suffice: a length is accepted if it counts the header and lies in the buffer, and
what is read of a message depends on its own bytes alone. Then the messages in front of any bytes
are found first and in order, and then what is found in those bytes. The splitting ends: every
message takes at least the sixteen bytes of its header. It may step past the end, where the last
message lacks its padding, and reads nothing there.
-/

namespace FlowObserver

namespace Bytes

variable (bs rest : Bytes)

def from? (start : Nat) : Option Bytes :=
  if start ≤ bs.length then some (bs.drop start) else none

theorem field_append_left {start width : Nat} (h : start + width ≤ bs.length) :
    (bs ++ rest).field start width = bs.field start width := by
  unfold field
  rw [List.drop_append_of_le_length (by omega), List.take_append_of_le_length]
  simp only [List.length_drop]
  omega

end Bytes

namespace Netlink

theorem le_padded (length : Nat) : length ≤ padded length := by
  unfold padded
  omega

/-- What the splitting relies on. -/
structure Reader.Documented {M : Type} (r : Reader M) : Prop where
  length?_eq_some_iff : ∀ bytes length, r.length? bytes = some length ↔
    length = numberAt bytes 0 4 ∧ headerSize ≤ length ∧ length ≤ bytes.length
  read_take : ∀ bytes length, r.length? bytes = some length →
    r.read (bytes.take length) = r.read bytes

namespace Reader

variable {M : Type} {r : Reader M}

theorem front_eq_ok_iff {buffer : Bytes} {m : M} {length : Nat} :
    r.front buffer = .ok (m, length) ↔ r.length? buffer = some length ∧ r.read buffer = .ok m := by
  unfold front
  cases r.length? buffer with
  | none => simp
  | some n =>
    cases r.read buffer with
    | error reason => simp
    | ok content => simp [and_comm]

theorem numberAt_append {bytes : Bytes} (h : headerSize ≤ bytes.length) (rest : Bytes) :
    numberAt (bytes ++ rest) 0 4 = numberAt bytes 0 4 := by
  unfold numberAt
  rw [Bytes.field_append_left]
  exact (by decide : 0 + 4 ≤ headerSize).trans h

namespace Documented

variable (h : r.Documented)
include h

theorem headerSize_le {bytes : Bytes} {length : Nat} (hlength : r.length? bytes = some length) :
    headerSize ≤ length :=
  ((h.length?_eq_some_iff _ _).mp hlength).2.1

theorem le_length {bytes : Bytes} {length : Nat} (hlength : r.length? bytes = some length) :
    length ≤ bytes.length :=
  ((h.length?_eq_some_iff _ _).mp hlength).2.2

theorem front_append {bytes : Bytes} {m : M} (hfront : r.front bytes = .ok (m, bytes.length))
    (rest : Bytes) : r.front (bytes ++ rest) = .ok (m, bytes.length) := by
  obtain ⟨hlength, hread⟩ := front_eq_ok_iff.mp hfront
  obtain ⟨hnumber, hheader, -⟩ := (h.length?_eq_some_iff _ _).mp hlength
  have hlength' : r.length? (bytes ++ rest) = some bytes.length := by
    rw [h.length?_eq_some_iff, numberAt_append hheader, List.length_append]
    exact ⟨hnumber, hheader, Nat.le_add_right _ _⟩
  have hread' := h.read_take _ _ hlength'
  rw [List.take_left, hread] at hread'
  exact front_eq_ok_iff.mpr ⟨hlength', hread'.symm⟩

/-- What is read at the front of a buffer is a message by itself. -/
theorem front_take {buffer : Bytes} {m : M} {length : Nat}
    (hfront : r.front buffer = .ok (m, length)) :
    (buffer.take length).length = length ∧ r.front (buffer.take length) = .ok (m, length) := by
  obtain ⟨hlength, hread⟩ := front_eq_ok_iff.mp hfront
  obtain ⟨hnumber, hheader, hin⟩ := (h.length?_eq_some_iff _ _).mp hlength
  have hsize : (buffer.take length).length = length := List.length_take_of_le hin
  have hnumber' : numberAt (buffer.take length) 0 4 = length := by
    rw [← numberAt_append (by rwa [hsize]) (buffer.drop length), List.take_append_drop]
    exact hnumber.symm
  refine ⟨hsize, front_eq_ok_iff.mpr ⟨?_, ?_⟩⟩
  · exact (h.length?_eq_some_iff _ _).mpr ⟨hnumber'.symm, hheader, hsize.ge⟩
  · rw [h.read_take _ _ hlength, hread]

end Documented

theorem split_nil : r.split [] = ([], none) := by
  rw [split]
  rfl

theorem split_of_error {buffer : Bytes} {reason : Option String}
    (hfront : r.front buffer = .error reason) (hne : buffer ≠ []) :
    r.split buffer = ([], reason) := by
  rw [split]
  simp [hfront, hne]

theorem Documented.split_of_ok (h : r.Documented) {buffer : Bytes} {m : M} {length : Nat}
    (hfront : r.front buffer = .ok (m, length)) :
    r.split buffer = (m :: (r.split (buffer.drop (padded length))).1,
      (r.split (buffer.drop (padded length))).2) := by
  have hlength := (front_eq_ok_iff.mp hfront).1
  have hheader := h.headerSize_le hlength
  have hne : buffer ≠ [] := by
    rintro rfl
    simpa using hheader.trans (h.le_length hlength)
  have hpos : length ≠ 0 := Nat.ne_of_gt (Nat.lt_of_lt_of_le (by decide) hheader)
  rw [split]
  simp [hfront, hne, hpos]

/-- The splitting from a position on, with every slice checked: none as soon as one is out of range,
or if there is something left to split after so many turns. -/
def splitFrom? (r : Reader M) (buffer : Bytes) (turns start : Nat) :
    Option (List M × Option String) :=
  if buffer.length ≤ start then some ([], none)
  else
    match turns with
    | 0 => none
    | turns + 1 => do
      match r.front (← buffer.from? start) with
      | .error reason => return ([], reason)
      | .ok (m, length) =>
        if length = 0 then return ([m], none)
        else
          let (rest, reason) ← splitFrom? r buffer turns (start + padded length)
          return (m :: rest, reason)

theorem Documented.splitFrom?_eq (h : r.Documented) (buffer : Bytes) (turns start : Nat)
    (hturns : buffer.length ≤ start + headerSize * turns) :
    r.splitFrom? buffer turns start = some (r.split (buffer.drop start)) := by
  induction turns generalizing start with
  | zero =>
    have hend : buffer.length ≤ start := by omega
    unfold splitFrom?
    rw [if_pos hend, List.drop_eq_nil_of_le hend, split_nil]
  | succ turns ih =>
    unfold splitFrom?
    split_ifs with hend
    · rw [List.drop_eq_nil_of_le hend, split_nil]
    · have hfrom : buffer.from? start = some (buffer.drop start) := if_pos (by omega)
      simp only [hfrom, Option.bind_eq_bind, Option.bind_some]
      cases hfront : r.front (buffer.drop start) with
      | error reason =>
        have hne : buffer.drop start ≠ [] := by simpa using hend
        simp [split_of_error hfront hne]
      | ok found =>
        obtain ⟨m, length⟩ := found
        -- a turn gets past a header at least
        have hheader := h.headerSize_le (front_eq_ok_iff.mp hfront).1
        have hpast : headerSize ≤ padded length := hheader.trans (le_padded length)
        have hpos : length ≠ 0 := Nat.ne_of_gt (Nat.lt_of_lt_of_le (by decide) hheader)
        have hlater := ih (start + padded length) (by rw [Nat.mul_add_one] at hturns; omega)
        simp [hpos, hlater, h.split_of_ok hfront, List.drop_drop]

end Reader

/-- A message as it lies in a buffer, and the bytes that pad it. -/
structure Packed {M : Type} (r : Reader M) where
  bytes : Bytes
  padding : Bytes
  content : M
  /-- The length field counts the bytes of the message. -/
  length?_eq : r.length? bytes = some bytes.length
  readable : r.read bytes = .ok content
  aligned : 4 ∣ bytes.length + padding.length
  padding_lt : padding.length < 4

variable {M : Type} {r : Reader M}

namespace Packed

def raw (p : Packed r) : Bytes := p.bytes ++ p.padding

variable (p : Packed r)

theorem front_bytes : r.front p.bytes = .ok (p.content, p.bytes.length) :=
  Reader.front_eq_ok_iff.mpr ⟨p.length?_eq, p.readable⟩

theorem length_raw : p.raw.length = padded p.bytes.length := by
  have haligned := p.aligned
  have hshort := p.padding_lt
  rw [raw, List.length_append, padded]
  omega

variable (h : r.Documented)
include h

theorem headerSize_le_raw : headerSize ≤ p.raw.length :=
  (h.headerSize_le p.length?_eq).trans (p.length_raw ▸ le_padded _)

theorem split_append (rest : Bytes) :
    r.split (p.raw ++ rest) = (p.content :: (r.split rest).1, (r.split rest).2) := by
  have hfront : r.front (p.raw ++ rest) = .ok (p.content, p.bytes.length) := by
    rw [raw, List.append_assoc]
    exact h.front_append p.front_bytes _
  rw [h.split_of_ok hfront, ← p.length_raw, List.drop_left]

/-- The last message may lack its padding, or a part of it. -/
theorem split_unpadded (k : Nat) :
    r.split (p.bytes ++ p.padding.take k) = ([p.content], none) := by
  have hend : (p.bytes ++ p.padding.take k).length ≤ padded p.bytes.length := by
    rw [← p.length_raw]
    simp [raw]
  rw [h.split_of_ok (h.front_append p.front_bytes _), List.drop_eq_nil_of_le hend,
    Reader.split_nil]

end Packed

def packed (ms : List (Packed r)) : Bytes := ms.flatMap Packed.raw

theorem split_packed_append (h : r.Documented) (ms : List (Packed r)) (rest : Bytes) :
    r.split (packed ms ++ rest) =
      (ms.map Packed.content ++ (r.split rest).1, (r.split rest).2) := by
  induction ms with
  | nil => rfl
  | cons p ms ih =>
    rw [packed, List.flatMap_cons, List.append_assoc, p.split_append h, ← packed, ih]
    rfl

/-- What is read at the front of a buffer is a message, which is padded as far as the buffer goes
on. -/
theorem exists_packed_of_front (h : r.Documented) {buffer : Bytes} {m : M} {length : Nat}
    (hfront : r.front buffer = .ok (m, length)) :
    ∃ p : Packed r,
      (∃ rest, buffer = p.raw ++ rest) ∨ ∃ k, buffer = p.bytes ++ p.padding.take k := by
  obtain ⟨hsize, hown⟩ := h.front_take hfront
  obtain ⟨hlength, hread⟩ := Reader.front_eq_ok_iff.mp hown
  let back := buffer.drop length
  -- where the buffer ends in the padding, the rest of it is made up
  let padding := (back ++ List.replicate 3 0).take (padded length - length)
  have hpadding : padding.length = padded length - length := by
    simp only [padding, padded, List.length_take, List.length_append, List.length_replicate]
    omega
  let p : Packed r := {
    bytes := buffer.take length
    padding
    content := m
    length?_eq := by rw [hsize, hlength]
    readable := hread
    aligned := by
      rw [hsize, hpadding, padded]
      omega
    padding_lt := by
      rw [hpadding, padded]
      omega }
  have hbuffer : buffer = p.bytes ++ back := (List.take_append_drop _ _).symm
  refine ⟨p, ?_⟩
  by_cases hend : padded length - length ≤ back.length
  · left
    refine ⟨back.drop (padded length - length), ?_⟩
    have hfull : padding = back.take (padded length - length) := List.take_append_of_le_length hend
    rw [Packed.raw, List.append_assoc, show p.padding = padding from rfl, hfull,
      List.take_append_drop]
    exact hbuffer
  · right
    refine ⟨back.length, ?_⟩
    have hback : p.padding.take back.length = back := by
      rw [show p.padding = padding from rfl, List.take_take, Nat.min_eq_left (by omega),
        List.take_left]
    rw [hback]
    exact hbuffer

/-- Every buffer is made of messages, and then it is at its end, or in the padding of a last one, or
something stands there that is no message. -/
theorem exists_packed (h : r.Documented) (buffer : Bytes) :
    ∃ (ms : List (Packed r)) (rest : Bytes), buffer = packed ms ++ rest ∧
      (rest = [] ∨ (∃ reason, r.front rest = .error reason) ∨
        ∃ last : Packed r, ∃ k, rest = last.bytes ++ last.padding.take k) := by
  induction hlength : buffer.length using Nat.strong_induction_on generalizing buffer with
  | _ n ih =>
    cases hfront : r.front buffer with
    | error reason => exact ⟨[], buffer, rfl, .inr (.inl ⟨reason, hfront⟩)⟩
    | ok found =>
      obtain ⟨p, ⟨rest, rfl⟩ | hlast⟩ := exists_packed_of_front h hfront
      · have hshorter : rest.length < n := by
          have := p.headerSize_le_raw h
          simp only [headerSize, List.length_append] at this hlength
          omega
        obtain ⟨ms, last, rfl, hend⟩ := ih _ hshorter rest rfl
        exact ⟨p :: ms, last, by simp [packed], hend⟩
      · exact ⟨[], buffer, rfl, .inr (.inr ⟨p, hlast⟩)⟩

/-- The loop that splits a buffer ends after at most one turn for every sixteen bytes, and one, and
asks for no byte that is not there. Whatever stands behind messages one behind the other, these are
found first and in order, and then what is found in the rest; so it is where the last message lacks
some of its padding, and where the rest is no message nothing more is found. Every buffer is made of
messages and one of these ends. -/
theorem splitting_is_compositional {M : Type} (r : Reader M) (h : r.Documented) :
    (∀ buffer : Bytes,
      r.splitFrom? buffer (buffer.length / 16 + 1) 0 =
        some ((r.splitting buffer).value, (r.split buffer).2)) ∧
    (∀ (ms : List (Packed r)) (rest : Bytes),
      (r.splitting (packed ms ++ rest)).value =
        ms.map Packed.content ++ (r.splitting rest).value ∧
      (r.splitting (packed ms ++ rest)).signals = (r.splitting rest).signals) ∧
    (∀ (ms : List (Packed r)) (last : Packed r) (k : Nat),
      (r.splitting (packed ms ++ (last.bytes ++ last.padding.take k))).value =
        ms.map Packed.content ++ [last.content]) ∧
    (∀ (ms : List (Packed r)) (rest : Bytes) (reason : Option String),
      r.front rest = .error reason →
      (r.splitting (packed ms ++ rest)).value = ms.map Packed.content) ∧
    ∀ buffer : Bytes, ∃ (ms : List (Packed r)) (rest : Bytes), buffer = packed ms ++ rest ∧
      (rest = [] ∨ (∃ reason, r.front rest = .error reason) ∨
        ∃ last : Packed r, ∃ k, rest = last.bytes ++ last.padding.take k) := by
  have hvalue : ∀ buffer, (r.splitting buffer).value = (r.split buffer).1 := fun _ => rfl
  refine ⟨?_, ?_, ?_, ?_, exists_packed h⟩
  · intro buffer
    have hturns : buffer.length ≤ 0 + headerSize * (buffer.length / 16 + 1) := by
      simp only [headerSize]
      omega
    rw [h.splitFrom?_eq buffer _ 0 hturns]
    rfl
  · intro ms rest
    have hsplit := split_packed_append h ms rest
    constructor
    · rw [hvalue, hvalue, hsplit]
    · unfold Reader.splitting
      rw [hsplit]
      rfl
  · intro ms last k
    rw [hvalue, split_packed_append h, last.split_unpadded h]
  · intro ms rest reason hfront
    have hnone : (r.split rest).1 = [] := by
      by_cases hend : rest = []
      · rw [hend, Reader.split_nil]
      · rw [Reader.split_of_error hfront hend]
    rw [hvalue, split_packed_append h, hnone, List.append_nil]

theorem length?_eq_some_iff (bytes : Bytes) (length : Nat) :
    length? bytes = some length ↔
      length = numberAt bytes 0 4 ∧ headerSize ≤ length ∧ length ≤ bytes.length := by
  unfold length?
  dsimp only
  split_ifs with hcut
  · simp only [Bool.or_eq_true, decide_eq_true_eq] at hcut
    simp only [false_iff]
    omega
  · simp only [Bool.or_eq_true, decide_eq_true_eq, not_or, not_lt] at hcut
    simp only [Option.some.injEq]
    omega

theorem message_take {bytes : Bytes} {length : Nat} (h : length? bytes = some length) :
    message (bytes.take length) = message bytes := by
  obtain ⟨hnumber, hheader, hin⟩ := (length?_eq_some_iff _ _).mp h
  have hsize : (bytes.take length).length = length := List.length_take_of_le hin
  have hfield : ∀ start width, start + width ≤ length →
      Bytes.field (bytes.take length) start width = bytes.field start width := by
    intro start width hw
    rw [← Bytes.field_append_left (bytes.take length) (bytes.drop length) (by rwa [hsize]),
      List.take_append_drop]
  have hsmall : headerSize = 16 := rfl
  have hown : length? (bytes.take length) = some length := by
    rw [length?_eq_some_iff, numberAt, hfield 0 4 (by omega)]
    exact ⟨hnumber, hheader, hsize.ge⟩
  have htype := hfield 4 2 (by omega)
  have hpayload := hfield headerSize (length - headerSize) (by omega)
  simp only [message, h, hown, numberAt, htype, hpayload]

theorem linkReader_documented : linkReader.Documented where
  length?_eq_some_iff := length?_eq_some_iff
  read_take _ _ h :=
    congrArg (Except.mapError fun fault : Fault => "Decode error occurred: " ++ fault.reason)
      (message_take h)

/-- A link that is up, and its name, which leaves a byte of padding. -/
def lo : Packed linkReader where
  bytes := [39, 0, 0, 0, 16, 0, 0, 0, 1, 0, 0, 0, 0, 0, 0, 0] ++
    [0, 0, 0, 0, 7, 0, 0, 0, 1, 0, 0, 0, 0, 0, 0, 0] ++ [7, 0, 3, 0, 108, 111, 0]
  padding := [255]
  content := .newLink { index := 7, name := some "lo", up := true }
  length?_eq := by decide
  readable := by cbv
  aligned := by decide
  padding_lt := by decide

theorem splitting_is_compositional_cut_off :
    linkReader.Documented ∧ linkReader.front (lo.bytes.take 20) = .error none ∧
      (linkReader.splitting (packed [lo, lo] ++ lo.bytes.take 20)).value =
        [lo.content, lo.content] := by
  have hcut : linkReader.front (lo.bytes.take 20) = .error none := by rfl
  exact ⟨linkReader_documented, hcut,
    (splitting_is_compositional linkReader linkReader_documented).2.2.2.1 [lo, lo] _ _ hcut⟩

end Netlink
end FlowObserver
