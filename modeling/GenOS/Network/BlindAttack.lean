/-
  GenOS.Network.BlindAttack — what a forged segment can do to a stream.

  A segment that guesses the addresses and ports of a stream changes its record
  only with the exact next sequence number (a reset) or with a sequence number in
  the receive window and one of at most three acknowledgments.  Everything else
  costs at most a challenge acknowledgment.
-/
import GenOS.Network.StreamEvents

namespace GenOS.Network

open GenOS.Lib GenOS.Socket NetworkStack

namespace PassiveTcpStreamOperation

variable (op : PassiveTcpStreamOperation)

/-- The record without the tick of the last challenge. -/
def unchallenged : PassiveTcpStreamOperation := { op with challengeAckTick := none }

/-- The sequence number of an acceptable reset. -/
def ResetBy (segment : PassiveSegment) : Prop :=
  segment.rst = true ∧ segment.sequence = op.remoteSequence

/-- A segment that proves knowledge of both sequence numbers: it lies in the
receive window, or at the next byte if the window is zero, and acknowledges the
local sequence, the flight or the FIN. -/
structure AuthenticatedBy (segment : PassiveSegment) : Prop where
  flags : segment.rst = false ∧ segment.syn = false ∧ segment.ack = true
  sequence : (segment.sequence - op.remoteSequence).toNat < (receiveWindow op).toNat
    ∨ (receiveWindow op = 0 ∧ segment.sequence = op.remoteSequence)
  acknowledgment : segment.acknowledgment = op.localSequence
    ∨ (op.sendFlight ≠ 0
      ∧ segment.acknowledgment = op.localSequence + BitVec.ofNat 32 op.sendFlight)
    ∨ (op.finSent = true ∧ op.finAcked = false
      ∧ segment.acknowledgment = op.localSequence + 1)

/-- A zero window admits the next byte only. -/
theorem sequenceInWindow_iff {sequence next : BitVec 32} {window : BitVec 16} :
    sequenceInWindow sequence next window = true
      ↔ (sequence - next).toNat < window.toNat ∨ (window = 0 ∧ sequence = next) := by
  rw [sequenceInWindow, decide_eq_true_iff]
  by_cases hzero : window = 0
  · subst hzero
    have hmax : max (0 : BitVec 16).toNat 1 = 1 := rfl
    rw [hmax, Nat.lt_one_iff]
    constructor
    · intro h
      have hdiff : sequence - next = 0#32 := BitVec.eq_of_toNat_eq h
      exact .inr ⟨rfl, by rw [← BitVec.sub_add_cancel sequence next, hdiff, BitVec.zero_add]⟩
    · rintro (h | ⟨-, h⟩)
      · exact absurd h (Nat.not_lt_zero _)
      · rw [h, BitVec.sub_self]
        rfl
  · have hpos : 0 < window.toNat := by
      refine Nat.pos_of_ne_zero fun h => hzero ?_
      exact BitVec.eq_of_toNat_eq h
    rw [Nat.max_eq_left hpos]
    exact ⟨.inl, fun h => h.resolve_right (fun hz => hzero hz.1)⟩

theorem Acknowledges.authenticated {op : PassiveTcpStreamOperation} {segment : PassiveSegment}
    (h : op.Acknowledges segment) (hflags : segment.rst = false ∧ segment.syn = false) :
    op.AuthenticatedBy segment := by
  obtain ⟨hack, hvalid, hnumber⟩ := h
  refine ⟨⟨hflags.1, hflags.2, hack⟩, sequenceInWindow_iff.mp hvalid, ?_⟩
  rcases hnumber with h | h | ⟨hfin, h⟩
  · exact .inl h
  · exact .inr (.inl h)
  · simp only [finOutstanding, Bool.and_eq_true, Bool.not_eq_true'] at hfin
    exact .inr (.inr ⟨hfin.1, hfin.2, h⟩)

/-- **A segment changes the record only by an exact reset or with both
sequence numbers.** -/
theorem handleSegment_changes (wire : Wire) (segment : PassiveSegment) (tick : Nat) :
    (op.handleSegment wire segment tick).1.unchallenged = op.unchallenged
      ∨ op.ResetBy segment ∨ op.AuthenticatedBy segment := by
  have hhandled := op.handleSegment_handled wire segment tick
  have hacked := op.acceptAcknowledgment_cases segment tick
  generalize op.handleSegment wire segment tick = result at hhandled ⊢
  cases hhandled with
  | reset hflags hsequence => exact .inr (.inl ⟨hflags, hsequence⟩)
  | challenged => exact .inl rfl
  | ignored => exact .inl rfl
  | refused hflags hcarries | bare hflags hcarries =>
    rcases hacked with h | ⟨hacks, -⟩
    · rw [h]
      exact .inl rfl
    · exact .inr (.inr (hacks.authenticated hflags))
  | oversized hflags hvalid | accepted hflags hcarries hvalid hopen hlen hwindow hoverlap =>
    rcases hacked with h | ⟨hacks, -⟩
    · rw [h] at hvalid
      cases hvalid
    · exact .inr (.inr (hacks.authenticated hflags))

end PassiveTcpStreamOperation

/-- A received segment concerns at most the stream of its addresses and
ports. -/
theorem route_streams (s : NetworkStack) (segment : PassiveSegment) (tick : Nat)
    (slot : Fin passiveTcpStreamSlots) :
    (s.routePassiveSegment segment tick).passiveStreams slot = s.passiveStreams slot
    ∨ ∃ op, s.passiveStreams slot = some op ∧ segment.tuple = op.tuple
      ∧ (s.routePassiveSegment segment tick).passiveStreams slot
        = some (op.handleSegment s.wire segment tick).1 := by
  unfold routePassiveSegment
  split
  · rename_i index hindex
    obtain ⟨op, hop, htuple⟩ := Slots.position_some hindex
    have hrun : s.handleStreamSegment index segment tick
        = s.putStream index (some (op.handleSegment s.wire segment tick).1)
          (op.handleSegment s.wire segment tick).2 := by
      simp only [handleStreamSegment, hop]
    rw [hrun]
    by_cases hslot : slot = index
    · subst hslot
      exact .inr ⟨op, hop, (of_decide_eq_true htuple).symm, Function.update_self _ _ _⟩
    · exact .inl (Function.update_of_ne hslot _ _)
  · split
    · unfold handleHandshakeSegment
      split <;> exact .inl rfl
    · exact .inl (by rw [(s.noteSyn_spec segment).1])

/-- **Established streams resist blind attacks.**  Whatever segment arrives: no
stream appears or disappears, a stream of other addresses and ports keeps its
record, and the record of the stream itself changes, but for the challenge tick,
only by an exact reset or by a segment that knows both sequence numbers. -/
theorem blind_attack_resistance (s : NetworkStack) (segment : PassiveSegment) (tick : Nat)
    (slot : Fin passiveTcpStreamSlots) :
    (s.passiveStreams slot = none →
      (s.routePassiveSegment segment tick).passiveStreams slot = none)
    ∧ ∀ op, s.passiveStreams slot = some op →
      ∃ op', (s.routePassiveSegment segment tick).passiveStreams slot = some op'
        ∧ (segment.tuple ≠ op.tuple → op' = op)
        ∧ (op'.unchallenged = op.unchallenged ∨ op.ResetBy segment
          ∨ op.AuthenticatedBy segment) := by
  rcases route_streams s segment tick slot with hsame | ⟨op, hop, htuple, hhandled⟩
  · refine ⟨fun hnone => hsame.trans hnone, fun op hop => ?_⟩
    exact ⟨op, hsame.trans hop, fun _ => rfl, Or.inl rfl⟩
  · refine ⟨fun hnone => ?_, fun op' hop' => ?_⟩
    · rw [hop] at hnone
      cases hnone
    · rw [hop] at hop'
      cases hop'
      exact ⟨_, hhandled, fun hne => absurd htuple hne,
        op.handleSegment_changes s.wire segment tick⟩

end GenOS.Network
