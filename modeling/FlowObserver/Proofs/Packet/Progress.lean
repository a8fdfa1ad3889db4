import FlowObserver.Packet.Walk
import Mathlib.Tactic

/-!
# Progress of a walk

Each layer leads only to later ones, and the VXLAN layer, which leads back to Ethernet, is entered
from a walk that is not tunneled yet. A rank that falls with every step bounds the walk, so that
`run` with enough steps is the walk to its very end.
-/

namespace FlowObserver
namespace Packet
namespace Walk

variable {packet : Bytes} {w w' : Walk}

/-- The most steps that may be left. -/
def rank (w : Walk) : Nat :=
  match w.next, w.tunneled with
  | .complete, _ | .unsupported, _ => 0
  | .tcp, _ | .udp, true => 1
  | .ipv4, true => 2
  | .ethernet, true => 3
  | .vxlan, _ => 4
  | .udp, false => 5
  | .ipv4, false => 6
  | .ethernet, false => 7

theorem rank_le_seven (w : Walk) : w.rank ≤ 7 := by
  unfold rank
  split <;> omega

theorem ethernet_leads (h : w.ethernet packet = some w') :
    w'.tunneled = w.tunneled ∧ (w'.next = .ipv4 ∨ w'.next = .unsupported) := by
  obtain ⟨e, -, rfl⟩ := Option.map_eq_some_iff.mp h
  refine ⟨rfl, ?_⟩
  dsimp only
  split_ifs
  · exact Or.inl rfl
  · exact Or.inr rfl

theorem ipv4_leads (h : w.ipv4 packet = some w') :
    w'.tunneled = w.tunneled ∧ (w'.next = .complete ∨ w'.next = .tcp ∨ w'.next = .udp) := by
  obtain ⟨e, -, h⟩ := Option.bind_eq_some_iff.mp h
  obtain ⟨-, -, h⟩ := Option.bind_eq_some_iff.mp h
  cases h
  refine ⟨rfl, ?_⟩
  dsimp only
  split_ifs
  · exact Or.inl rfl
  · exact Or.inr (Or.inl rfl)
  · exact Or.inr (Or.inr rfl)
  · exact Or.inl rfl

theorem tcp_leads (h : w.tcp packet = some w') : w'.next = .complete := by
  obtain ⟨e, -, rfl⟩ := Option.map_eq_some_iff.mp h
  rfl

theorem udp_leads (h : w.udp packet = some w') :
    w'.next = .complete ∨ (w'.next = .vxlan ∧ w.tunneled = false) := by
  obtain ⟨e, -, rfl⟩ := Option.map_eq_some_iff.mp h
  dsimp only
  split_ifs with hv
  · simp only [Bool.and_eq_true, Bool.not_eq_true'] at hv
    exact Or.inr ⟨rfl, hv.2⟩
  · exact Or.inl rfl

theorem vxlan_leads (h : w.vxlan packet = some w') :
    w'.next = .complete ∨ (w'.next = .ethernet ∧ w'.tunneled = true) := by
  unfold vxlan at h
  split at h
  · split_ifs at h <;> cases h
    · exact Or.inr ⟨rfl, rfl⟩
    · exact Or.inl rfl
  · cases h
    exact Or.inl rfl

theorem rank_lt_of_step (hw : w.ended = false) (h : w.step packet = some w') :
    w'.rank < w.rank := by
  unfold step at h
  unfold ended at hw
  cases hn : w.next <;> simp only [hn] at h hw
  case ethernet =>
    obtain ⟨ht, hn' | hn'⟩ := ethernet_leads h <;> cases hb : w.tunneled <;>
      simp [rank, hn, hn', ht, hb]
  case ipv4 =>
    obtain ⟨ht, hn' | hn' | hn'⟩ := ipv4_leads h <;> cases hb : w.tunneled <;>
      simp [rank, hn, hn', ht, hb]
  case tcp => simp [rank, hn, tcp_leads h]
  case udp =>
    obtain hn' | ⟨hn', hb⟩ := udp_leads h
    · cases hb : w.tunneled <;> simp [rank, hn, hn', hb]
    · simp [rank, hn, hn', hb]
  case vxlan =>
    obtain hn' | ⟨hn', hb⟩ := vxlan_leads h <;> simp [rank, *]
  case complete => simp at hw
  case unsupported => simp at hw

/-- Steps until nothing is left to read. -/
def finish (packet : Bytes) (w : Walk) : Option Walk :=
  if _hw : w.ended = true then some w
  else
    match _hs : w.step packet with
    | some w' => finish packet w'
    | none => none
termination_by w.rank
decreasing_by exact rank_lt_of_step (by simpa using _hw) _hs

theorem finish_of_ended (h : w.ended = true) : finish packet w = some w := by
  rw [finish, dif_pos h]

theorem finish_step (h : w.ended = false) :
    finish packet w = (w.step packet).bind (finish packet) := by
  rw [finish, dif_neg (by simp [h])]
  split <;> simp [*]

theorem ended_of_rank_eq_zero (h : w.rank = 0) : w.ended = true := by
  unfold rank at h
  unfold ended
  cases hn : w.next <;> cases hb : w.tunneled <;> simp_all

theorem run_eq_finish {steps : Nat} (h : w.rank ≤ steps) :
    run packet steps w = finish packet w := by
  induction steps generalizing w with
  | zero => rw [finish_of_ended (ended_of_rank_eq_zero (Nat.le_zero.mp h)), run]
  | succ steps ih =>
    rw [run]
    cases he : w.ended with
    | true => rw [if_pos rfl, finish_of_ended he]
    | false =>
      rw [if_neg (by simp), finish_step he]
      cases hs : w.step packet with
      | none => rfl
      | some w' =>
        have hlt := rank_lt_of_step he hs
        exact ih (by omega)

end Walk
end Packet
end FlowObserver
