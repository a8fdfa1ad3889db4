import FlowObserver.Proofs.Packet.Layout

/-!
# Single steps

What the reading of one header does to a walk, wherever the walk stands and whatever it holds.
Carried out in place, one assignment after the other, it fails only ahead of the first assignment, so
that a failure changes nothing. Otherwise the offset moves over the header that was entered, by no
more than such a header can measure; only a VXLAN header that is not entered leaves it where it is.
-/

namespace FlowObserver
namespace Packet

namespace Layer

def isHeader : Layer → Bool
  | .complete | .unsupported => false
  | .ethernet | .ipv4 | .tcp | .udp | .vxlan => true

/-- The part of a header that is never missing. -/
def fixedSize : Layer → Nat
  | .ethernet => Ethernet.size
  | .ipv4 => Ipv4.size
  | .tcp => Tcp.size
  | .udp => Udp.size
  | .vxlan => Vxlan.size
  | .complete | .unsupported => 0

end Layer

namespace Layout

variable (packet : Bytes)

def headerSize : Layer → Nat → Nat
  | .ipv4, i => 4 * (octet packet i % 16)
  | layer, _ => layer.fixedSize

/-- The marks without which the bytes at a position are no such header. -/
abbrev marked : Layer → Nat → Prop
  | .ipv4, i => octet packet i / 16 = 4 ∧ 5 ≤ octet packet i % 16
  | .vxlan, i => (octet packet i).testBit 3 = true
  | _, _ => True

/-- Whether a walk enters the header at a position. -/
abbrev enters (layer : Layer) (i : Nat) : Prop :=
  lies packet i layer.fixedSize ∧ marked packet layer i

variable {packet} {layer : Layer} {i : Nat}

theorem eight_le_fixedSize (h : layer.isHeader = true) : 8 ≤ layer.fixedSize := by
  cases layer
  case complete => cases h
  case unsupported => cases h
  all_goals decide

theorem fixedSize_le_headerSize (h : marked packet layer i) :
    layer.fixedSize ≤ headerSize packet layer i := by
  cases layer
  case ipv4 =>
    obtain ⟨-, hlength⟩ := h
    change 20 ≤ 4 * _
    omega
  all_goals exact le_rfl

theorem headerSize_eq_fixedSize (h : layer ≠ .ipv4) :
    headerSize packet layer i = layer.fixedSize := by
  cases layer
  case ipv4 => exact absurd rfl h
  all_goals rfl

/-- Options make up no more than 40 bytes, and only IPv4 headers have any. -/
theorem headerSize_le (packet : Bytes) (layer : Layer) (i : Nat) :
    headerSize packet layer i ≤ layer.fixedSize + 40 ∧ headerSize packet layer i ≤ 60 := by
  cases layer
  case ipv4 =>
    change 4 * _ ≤ 20 + 40 ∧ 4 * _ ≤ 60
    omega
  all_goals exact ⟨Nat.le_add_right _ _, Nat.le_of_ble_eq_true rfl⟩

end Layout

namespace Walk

open Layout

variable {packet : Bytes} {layer : Layer} {w : Walk}

/-- Reads a header of this kind, whatever the walk expects at its offset. -/
def readAs (packet : Bytes) : Layer → Walk → Option Walk
  | .ethernet => ethernet packet
  | .ipv4 => ipv4 packet
  | .tcp => tcp packet
  | .udp => udp packet
  | .vxlan => vxlan packet
  | .complete | .unsupported => some

theorem step_eq_readAs (packet : Bytes) (w : Walk) : w.step packet = readAs packet w.next w := by
  unfold step
  cases w.next <;> rfl

theorem ipv4_of_read {h : Ipv4} (hread : Ipv4.read? packet w.offset = some h) :
    w.ipv4 packet =
      if h.version = 4 ∧ Ipv4.size ≤ h.headerLength then
        some { w with
          offset := w.skip h.headerLength
          record := { w.record with
            sourceAddress := h.source
            destinationAddress := h.destination
            protocol := h.protocol
            sourcePort := 0
            destinationPort := 0 }
          next :=
            if h.fragmentOffset ≠ 0 then .complete
            else if h.protocol = tcpProtocol then .tcp
            else if h.protocol = udpProtocol then .udp
            else .complete }
      else none := by
  rw [ipv4, hread]
  by_cases hvalid : h.version = 4 ∧ Ipv4.size ≤ h.headerLength
  · rw [if_pos hvalid]
    simp [hvalid]
  · rw [if_neg hvalid]
    simp [guard, hvalid]

theorem ipv4_of_not_read (hread : Ipv4.read? packet w.offset = none) : w.ipv4 packet = none := by
  rw [ipv4, hread]
  rfl

/-- What makes a header that is read an IPv4 header. -/
theorem exists_read_ipv4 (h : lies packet w.offset.toNat Ipv4.size) :
    ∃ header, Ipv4.read? packet w.offset = some header ∧
      (header.version = 4 ∧ Ipv4.size ≤ header.headerLength ↔
        marked packet .ipv4 w.offset.toNat) ∧
      header.headerLength = headerSize packet .ipv4 w.offset.toNat := by
  rw [Ipv4.read?, if_pos (show fits packet w.offset Ipv4.size from h)]
  refine ⟨_, rfl, ?_, ?_⟩
  · simp only [Ipv4.version, Ipv4.headerLength, Ipv4.size, toNat_byteAt, marked]
    omega
  · simp only [Ipv4.headerLength, headerSize, toNat_byteAt]
    omega

theorem exists_read_vxlan (h : lies packet w.offset.toNat Vxlan.size) :
    ∃ header, Vxlan.read? packet w.offset = some header ∧
      (header.hasNetworkId = true ↔ marked packet .vxlan w.offset.toNat) := by
  rw [Vxlan.read?, if_pos (show fits packet w.offset Vxlan.size from h)]
  exact ⟨_, rfl, bne_iff_ne.trans (and_flag_ne_zero_iff _)⟩

theorem readAs_of_enters (hlayer : layer.isHeader = true)
    (h : enters packet layer w.offset.toNat) :
    ∃ w', readAs packet layer w = some w' ∧
      w'.offset = w.skip (headerSize packet layer w.offset.toNat) := by
  obtain ⟨hlies, hmarked⟩ := h
  cases layer
  case ethernet =>
    rw [readAs, ethernet, Ethernet.read?,
      if_pos (show fits packet w.offset Ethernet.size from hlies)]
    exact ⟨_, rfl, rfl⟩
  case ipv4 =>
    obtain ⟨header, hread, hvalid, hlength⟩ := exists_read_ipv4 hlies
    rw [readAs, ipv4_of_read hread, if_pos (hvalid.mpr hmarked)]
    exact ⟨_, rfl, congrArg w.skip hlength⟩
  case tcp =>
    rw [readAs, tcp, Tcp.read?, if_pos (show fits packet w.offset Tcp.size from hlies)]
    exact ⟨_, rfl, rfl⟩
  case udp =>
    rw [readAs, udp, Udp.read?, if_pos (show fits packet w.offset Udp.size from hlies)]
    exact ⟨_, rfl, rfl⟩
  case vxlan =>
    obtain ⟨header, hread, hflag⟩ := exists_read_vxlan hlies
    rw [readAs, vxlan, hread]
    exact ⟨_, if_pos (hflag.mpr hmarked), rfl⟩
  case complete => cases hlayer
  case unsupported => cases hlayer

/-- Without a tunnel the datagram stands; any other header is needed. -/
theorem readAs_of_not_enters (hlayer : layer.isHeader = true)
    (h : ¬enters packet layer w.offset.toNat) :
    readAs packet layer w = if layer = .vxlan then some { w with next := .complete } else none := by
  have hfits (hmarked : marked packet layer w.offset.toNat) :
      ¬fits packet w.offset layer.fixedSize := fun hlies => h ⟨hlies, hmarked⟩
  cases layer
  case ethernet =>
    rw [readAs, ethernet, Ethernet.read?,
      if_neg (show ¬fits packet w.offset Ethernet.size from hfits trivial)]
    rfl
  case ipv4 =>
    by_cases hlies : lies packet w.offset.toNat Ipv4.size
    · obtain ⟨header, hread, hvalid, -⟩ := exists_read_ipv4 hlies
      have hinvalid := mt hvalid.mp fun hmarked => h ⟨hlies, hmarked⟩
      rw [readAs, ipv4_of_read hread, if_neg hinvalid]
      rfl
    · have hread : Ipv4.read? packet w.offset = none := by
        rw [Ipv4.read?, if_neg (show ¬fits packet w.offset Ipv4.size from hlies)]
      rw [readAs, ipv4_of_not_read hread]
      rfl
  case tcp =>
    rw [readAs, tcp, Tcp.read?, if_neg (show ¬fits packet w.offset Tcp.size from hfits trivial)]
    rfl
  case udp =>
    rw [readAs, udp, Udp.read?, if_neg (show ¬fits packet w.offset Udp.size from hfits trivial)]
    rfl
  case vxlan =>
    rw [readAs, vxlan, if_pos rfl]
    by_cases hlies : lies packet w.offset.toNat Vxlan.size
    · obtain ⟨header, hread, hflag⟩ := exists_read_vxlan hlies
      rw [hread]
      exact if_neg (mt hflag.mp fun hmarked => h ⟨hlies, hmarked⟩)
    · rw [Vxlan.read?, if_neg (show ¬fits packet w.offset Vxlan.size from hlies)]
  case complete => cases hlayer
  case unsupported => cases hlayer

/-- Assignments to a walk, one by one. A failure keeps those that were made before it. -/
abbrev Edit := EStateM Unit Walk

namespace Edit

def need {α : Type} : Option α → Edit α
  | some a => pure a
  | none => throw ()

def advance (size : Nat) : Edit Unit := modify fun w => { w with offset := w.skip size }

def expect (next : Layer) : Edit Unit := modify fun w => { w with next }

def revise (f : WireRecord → WireRecord) : Edit Unit :=
  modify fun w => { w with record := f w.record }

def ethernet (packet : Bytes) : Edit Unit := do
  let h ← need (Ethernet.read? packet (← get).offset)
  advance Ethernet.size
  if h.etherType = .ipv4 then expect .ipv4 else expect .unsupported

def ipv4 (packet : Bytes) : Edit Unit := do
  let h ← need (Ipv4.read? packet (← get).offset)
  if h.version ≠ 4 ∨ h.headerLength < Ipv4.size then throw ()
  advance h.headerLength
  revise fun r => { r with sourceAddress := h.source }
  revise fun r => { r with destinationAddress := h.destination }
  revise fun r => { r with protocol := h.protocol }
  revise fun r => { r with sourcePort := 0 }
  revise fun r => { r with destinationPort := 0 }
  if h.fragmentOffset ≠ 0 then
    expect .complete
    return
  if h.protocol = tcpProtocol then expect .tcp
  else if h.protocol = udpProtocol then expect .udp
  else expect .complete

def tcp (packet : Bytes) : Edit Unit := do
  let h ← need (Tcp.read? packet (← get).offset)
  advance Tcp.size
  revise fun r => { r with sourcePort := h.sourcePort }
  revise fun r => { r with destinationPort := h.destinationPort }
  expect .complete

def udp (packet : Bytes) : Edit Unit := do
  let h ← need (Udp.read? packet (← get).offset)
  advance Udp.size
  revise fun r => { r with sourcePort := h.sourcePort }
  revise fun r => { r with destinationPort := h.destinationPort }
  if h.destinationPort = vxlanPort && !(← get).tunneled then expect .vxlan else expect .complete

def vxlan (packet : Bytes) : Edit Unit := do
  match Vxlan.read? packet (← get).offset with
  | none => expect .complete
  | some h =>
    if !h.hasNetworkId then
      expect .complete
      return
    advance Vxlan.size
    modify fun w => { w with tunneled := true }
    revise fun _ => {}
    expect .ethernet

def readAs (packet : Bytes) : Layer → Edit Unit
  | .ethernet => ethernet packet
  | .ipv4 => ipv4 packet
  | .tcp => tcp packet
  | .udp => udp packet
  | .vxlan => vxlan packet
  | .complete | .unsupported => pure ()

/-- The end of an edit that is made as a whole or not at all. -/
def whole (w : Walk) : Option Walk → EStateM.Result Unit Walk Unit
  | some w' => .ok () w'
  | none => .error () w

theorem need_bind {α : Type} (o : Option α) (f : α → Edit Unit) (w : Walk) :
    (need o >>= f) w = match o with
      | some a => f a w
      | none => .error () w := by
  cases o <;> rfl

theorem ethernet_eq (packet : Bytes) (w : Walk) :
    ethernet packet w = whole w (w.ethernet packet) := by
  change (need (Ethernet.read? packet w.offset) >>= _) w = _
  rw [need_bind, Walk.ethernet]
  cases Ethernet.read? packet w.offset with
  | none => rfl
  | some h =>
    dsimp only [Option.map_some]
    split_ifs <;> rfl

theorem tcp_eq (packet : Bytes) (w : Walk) : tcp packet w = whole w (w.tcp packet) := by
  change (need (Tcp.read? packet w.offset) >>= _) w = _
  rw [need_bind, Walk.tcp]
  cases Tcp.read? packet w.offset <;> rfl

theorem udp_eq (packet : Bytes) (w : Walk) : udp packet w = whole w (w.udp packet) := by
  change (need (Udp.read? packet w.offset) >>= _) w = _
  rw [need_bind, Walk.udp]
  cases Udp.read? packet w.offset with
  | none => rfl
  | some h =>
    dsimp only [Option.map_some]
    change (ite ((h.destinationPort = vxlanPort && !w.tunneled) = true) (expect .vxlan)
      (expect .complete) : Edit Unit) _ = _
    split_ifs <;> rfl

theorem ipv4_eq (packet : Bytes) (w : Walk) : ipv4 packet w = whole w (w.ipv4 packet) := by
  change (need (Ipv4.read? packet w.offset) >>= _) w = _
  rw [need_bind]
  cases hread : Ipv4.read? packet w.offset with
  | none =>
    rw [ipv4_of_not_read hread]
    rfl
  | some h =>
    rw [ipv4_of_read hread]
    dsimp only
    by_cases hvalid : h.version = 4 ∧ Ipv4.size ≤ h.headerLength
    · have hpasses : ¬(h.version ≠ 4 ∨ h.headerLength < Ipv4.size) := by omega
      rw [if_neg hpasses, if_pos hvalid]
      change (ite (h.fragmentOffset ≠ 0) _ _ : Edit Unit) _ = _
      split_ifs <;> rfl
    · have hfails : h.version ≠ 4 ∨ h.headerLength < Ipv4.size := by omega
      rw [if_pos hfails, if_neg hvalid]
      rfl

theorem vxlan_eq (packet : Bytes) (w : Walk) : vxlan packet w = whole w (w.vxlan packet) := by
  unfold vxlan Walk.vxlan
  change (match Vxlan.read? packet w.offset with | none => _ | some _ => _ : Edit Unit) w = _
  cases Vxlan.read? packet w.offset with
  | none => rfl
  | some h =>
    dsimp only
    cases h.hasNetworkId <;> rfl

theorem readAs_eq (packet : Bytes) (layer : Layer) (w : Walk) :
    readAs packet layer w = whole w (w.readAs packet layer) := by
  cases layer
  case ethernet => exact ethernet_eq packet w
  case ipv4 => exact ipv4_eq packet w
  case tcp => exact tcp_eq packet w
  case udp => exact udp_eq packet w
  case vxlan => exact vxlan_eq packet w
  case complete => rfl
  case unsupported => rfl

end Edit

/-- Whatever a walk holds and wherever it stands, even where no packet reaches: a header that cannot
be entered makes the reading fail, with nothing changed, unless it is a VXLAN header, of which only
the expectation is given up. A header that is entered moves the offset by its own length, which is
computed without wrapping and reaches no more than 40 bytes beyond the packet. -/
theorem reading_all_or_nothing (packet : Bytes) (hlength : packet.length < 2 ^ 63) (layer : Layer)
    (hlayer : layer.isHeader = true) (w : Walk) :
    let i := w.offset.toNat
    let size := headerSize packet layer i
    (¬enters packet layer i ∧ layer ≠ .vxlan ∧
      Edit.readAs packet layer w = .error () w ∧ w.readAs packet layer = none) ∨
    ∃ w', Edit.readAs packet layer w = .ok () w' ∧ w.readAs packet layer = some w' ∧
      (¬enters packet layer i ∧ layer = .vxlan ∧ w' = { w with next := .complete } ∨
        enters packet layer i ∧ 8 ≤ size ∧ size ≤ 60 ∧ w'.offset.toNat = i + size ∧
          i + size ≤ packet.length + 40) := by
  intro i size
  rw [Edit.readAs_eq]
  by_cases henters : enters packet layer i
  · obtain ⟨w', hread, hoffset⟩ := readAs_of_enters hlayer henters
    obtain ⟨hlies, hmarked⟩ := henters
    have hleast : 8 ≤ layer.fixedSize := eight_le_fixedSize hlayer
    have hfixed : layer.fixedSize ≤ size := fixedSize_le_headerSize hmarked
    obtain ⟨hoptions, hmost⟩ : size ≤ layer.fixedSize + 40 ∧ size ≤ 60 :=
      headerSize_le packet layer i
    have hmoved : w'.offset.toNat = i + size := by
      have hwithin : i + size < 2 ^ 64 := by omega
      rw [hoffset]
      exact toNat_add_ofNat hwithin
    refine Or.inr ⟨w', ?_, hread, Or.inr ⟨⟨hlies, hmarked⟩, ?_, hmost, hmoved, ?_⟩⟩
    · rw [hread]
      rfl
    · omega
    · omega
  · have hread := readAs_of_not_enters hlayer henters
    by_cases hvxlan : layer = .vxlan
    · rw [if_pos hvxlan] at hread
      refine Or.inr ⟨_, ?_, hread, Or.inl ⟨henters, hvxlan, rfl⟩⟩
      rw [hread]
      rfl
    · rw [if_neg hvxlan] at hread
      refine Or.inl ⟨henters, hvxlan, ?_, hread⟩
      rw [hread]
      rfl

/-- The fixed part of an IPv4 header that announces all the options there can be. -/
def longestHeader : Bytes := [0x4F, 0, 0, 0, 0, 0, 0, 0, 64, 1, 0, 0, 10, 0, 0, 1, 10, 0, 0, 2]

theorem reading_all_or_nothing_longest :
    longestHeader.length < 2 ^ 63 ∧ Layer.ipv4.isHeader = true ∧
      (∃ w', Edit.readAs longestHeader .ipv4 {} = .ok () w' ∧
        w'.offset.toNat = longestHeader.length + 40) ∧
      ∀ w : Walk, w.offset = 0xFFFFFFFFFFFFFFFF →
        Edit.readAs longestHeader .ipv4 w = .error () w := by
  have hlength : longestHeader.length < 2 ^ 63 := by decide
  refine ⟨hlength, rfl, ?_, ?_⟩
  · rcases reading_all_or_nothing longestHeader hlength .ipv4 rfl {} with
      ⟨hnot, -⟩ | ⟨w', hedit, -, ⟨hnot, -⟩ | ⟨-, -, -, hmoved, -⟩⟩
    · exact absurd (by decide) hnot
    · exact absurd (by decide) hnot
    · exact ⟨w', hedit, hmoved⟩
  · intro w hw
    have hbeyond : ¬enters longestHeader .ipv4 w.offset.toNat := by
      rw [hw]
      decide
    rcases reading_all_or_nothing longestHeader hlength .ipv4 rfl w with
      ⟨-, -, hedit, -⟩ | ⟨w', -, -, ⟨-, hvxlan, -⟩ | ⟨henters, -⟩⟩
    · exact hedit
    · cases hvxlan
    · exact absurd henters hbeyond

end Walk
end Packet
end FlowObserver
