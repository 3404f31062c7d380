/-
  GenOS.Network.SendSteps — what an event does to the sending half.

  The sending half of a stream makes eight kinds of moves (`SendMove`): it takes a
  send, launches a flight, has a flight or the FIN acknowledged, retransmits,
  hands out a completion or starts to close; everything else leaves it alone.  A
  move carries a mark of what can be seen of it from outside (`SendMark`): the
  bytes it took, the segment it sent, the bytes that were acknowledged, the
  completion.  Every event is a sequence of moves, and the data and FIN segments
  it logs are those of its marks (`StreamEvent.step_moves`).
-/
import GenOS.Network.StreamLife

namespace GenOS.Network

open GenOS.Lib GenOS.Socket List

/-! ## §1. Moves. -/

inductive SendMark where
  | taken (bytes : Bytes)
  | transmitted (em : Emission)
  | acknowledged (count : Nat)
  | consumed

/-- The segment of a mark. -/
def SendMark.emission : SendMark → Option Emission
  | .transmitted em => some em
  | _ => none

variable {marks : List SendMark} {op' op : PassiveTcpStreamOperation}

namespace PassiveTcpStreamOperation

variable (op : PassiveTcpStreamOperation)

/-- The flight as a segment. -/
def flight : Emission :=
  op.emission op.localSequence 0x18 (op.send.take op.sendFlight)

/-- A move of the sending half, with its marks. -/
inductive SendMove : List SendMark → PassiveTcpStreamOperation → Prop
  | same {op' : PassiveTcpStreamOperation} (hsame : SameSend op op') : SendMove [] op'
  | taken {op' : PassiveTcpStreamOperation} (bytes : Bytes) (tick : Nat) (hbytes : bytes ≠ [])
      (hlen : bytes.length ≤ passiveTcpStreamBufferCapacity)
      (hidle : op.send = [] ∧ op.sendCompleted = false ∧ op.finSent = false)
      (hsame : SameSend (op.queued bytes tick) op') : SendMove [.taken bytes] op'
  | launched {op' : PassiveTcpStreamOperation} (tick : Nat) (hready : op.flightLen ≠ 0)
      (hnone : op.sendFlight = 0) (hsame : SameSend (op.launched tick) op') :
      SendMove [.transmitted (op.launched tick).flight] op'
  | flightAcked {op' : PassiveTcpStreamOperation} (tick : Nat) (hflight : op.sendFlight ≠ 0)
      (hsame : SameSend (op.flightAcked (op.localSequence + BitVec.ofNat 32 op.sendFlight) tick)
        op') : SendMove [.acknowledged op.sendFlight] op'
  | finAcked {op' : PassiveTcpStreamOperation} (tick : Nat) (hfin : op.finOutstanding = true)
      (hsame : SameSend (op.finAckReceived (op.localSequence + 1) tick) op') : SendMove [] op'
  | retried {op' : PassiveTcpStreamOperation} (tick : Nat) (flags : BitVec 8) (len : Nat)
      (hout : op.outstanding = some (flags, len)) (hattempts : op.attempts < retries)
      (hsame : SameSend (op.backedOff tick) op') :
      SendMove [.transmitted (op.emission op.localSequence flags (op.send.take len))] op'
  | consumed {op' : PassiveTcpStreamOperation} (hcompleted : op.sendCompleted = true)
      (hsame : SameSend { op with sendCompleted := false } op') : SendMove [.consumed] op'
  | closing {op' : PassiveTcpStreamOperation} (tick : Nat)
      (hidle : op.send = [] ∧ op.sendCompleted = false ∧ op.finSent = false)
      (hsame : SameSend (op.closing tick) op') :
      SendMove [.transmitted ((op.closing tick).fullEmission 0x11)] op'

/-- Moves one after the other. -/
inductive SendRun : List SendMark → PassiveTcpStreamOperation → Prop
  | refl : SendRun [] op
  | tail {marks more : List SendMark} {op' op'' : PassiveTcpStreamOperation}
      (run : SendRun marks op') (move : op'.SendMove more op'') : SendRun (marks ++ more) op''

variable {op}

theorem SendRun.single (move : op.SendMove marks op') : op.SendRun marks op' :=
  SendRun.tail .refl move

theorem SendRun.trans {more : List SendMark} {op'' : PassiveTcpStreamOperation}
    (run : op.SendRun marks op') (run' : op'.SendRun more op'') :
    op.SendRun (marks ++ more) op'' := by
  induction run' with
  | refl => rwa [append_nil]
  | tail _ move ih =>
    rw [← append_assoc]
    exact ih.tail move

/-- **What moves keep, runs keep.** -/
theorem SendRun.invariant {I : PassiveTcpStreamOperation → Prop}
    (hmove : ∀ op marks op', I op → op.SendMove marks op' → I op') (run : op.SendRun marks op')
    (hop : I op) : I op' := by
  induction run with
  | refl => exact hop
  | tail _ move ih => exact hmove _ _ _ ih move

/-! ## §2. The order of sends, completions and the close. -/

/-- The flight is a part of the send buffer; there is no FIN while a send or its
completion is pending, and no send while a completion is. -/
structure Sendable (op : PassiveTcpStreamOperation) : Prop where
  flight : op.sendFlight ≤ op.send.length
  send : op.send.length ≤ passiveTcpStreamBufferCapacity
  open_of_send : op.send ≠ [] → op.finSent = false
  open_of_completed : op.sendCompleted = true → op.finSent = false
  done : op.sendCompleted = true → op.send = []

theorem Sendable.of_same (hsame : SameSend op op') (h : op.Sendable) : op'.Sendable := by
  refine ⟨?_, ?_, ?_, ?_, ?_⟩
  · rw [hsame.sendFlight, hsame.send]
    exact h.flight
  · rw [hsame.send]
    exact h.send
  · rw [hsame.send, hsame.finSent]
    exact h.open_of_send
  · rw [hsame.sendCompleted, hsame.finSent]
    exact h.open_of_completed
  · rw [hsame.sendCompleted, hsame.send]
    exact h.done

section

variable (op : PassiveTcpStreamOperation)

/-- The sending half after an acknowledged flight. -/
theorem flightAcked_send (acknowledgment : BitVec 32) (tick : Nat) :
    SameSend { op with
      rtoTicks := op.sampledRto tick
      localSequence := acknowledgment
      congestionWindow := op.grownCwnd
      send := op.send.drop op.sendFlight
      sendFlight := 0
      sendCompleted := (op.send.drop op.sendFlight).isEmpty
      attempts := 0 } (op.flightAcked acknowledgment tick) := by
  refine .refreshed ?_ tick
  exact ⟨rfl, rfl, rfl, rfl, rfl, rfl, rfl, rfl, rfl, rfl⟩

/-- The sending half after the FIN was acknowledged. -/
theorem finAckReceived_send (acknowledgment : BitVec 32) (tick : Nat) :
    SameSend { op with localSequence := acknowledgment, finAcked := true, attempts := 0 }
      (op.finAckReceived acknowledgment tick) := by
  refine .refreshed ?_ tick
  exact ⟨rfl, rfl, rfl, rfl, rfl, rfl, rfl, rfl, rfl, rfl⟩

theorem flightLen_le : op.flightLen ≤ op.send.length :=
  Nat.le_trans (Nat.min_le_left _ _) (Nat.min_le_left _ _)

end

/-- **Every move keeps the order.** -/
theorem Sendable.move (h : op.Sendable) (move : op.SendMove marks op') : op'.Sendable := by
  cases move with
  | same hsame => exact .of_same hsame h
  | taken bytes tick hbytes hlen hidle hsame =>
    refine .of_same hsame ⟨?_, hlen, fun _ => hidle.2.2, h.open_of_completed, ?_⟩
    · have hflight := h.flight
      rw [hidle.1] at hflight
      exact Nat.le_trans hflight (Nat.zero_le _)
    · intro hcompleted
      have hnone : op.sendCompleted = true := hcompleted
      rw [hidle.2.1] at hnone
      cases hnone
  | launched tick hready hnone hsame =>
    exact .of_same hsame
      ⟨op.flightLen_le, h.send, h.open_of_send, h.open_of_completed, h.done⟩
  | flightAcked tick hflight hsame =>
    have hopen : op.finSent = false := by
      refine h.open_of_send fun hempty => hflight ?_
      have hle := h.flight
      rw [hempty] at hle
      exact Nat.le_zero.mp hle
    refine .of_same ((op.flightAcked_send _ tick).trans hsame) ?_
    refine ⟨Nat.zero_le _, ?_, fun _ => hopen, fun _ => hopen, isEmpty_iff.mp⟩
    show (op.send.drop op.sendFlight).length ≤ _
    rw [length_drop]
    exact Nat.le_trans (Nat.sub_le _ _) h.send
  | finAcked tick hfin hsame =>
    refine .of_same ((op.finAckReceived_send _ tick).trans hsame) ?_
    exact ⟨h.flight, h.send, h.open_of_send, h.open_of_completed, h.done⟩
  | retried tick flags len hout hattempts hsame =>
    exact .of_same hsame ⟨h.flight, h.send, h.open_of_send, h.open_of_completed, h.done⟩
  | consumed hcompleted hsame =>
    refine .of_same hsame ⟨h.flight, h.send, h.open_of_send, ?_, ?_⟩
    · exact fun hfalse => nomatch hfalse
    · exact fun hfalse => nomatch hfalse
  | closing tick hidle hsame =>
    refine .of_same hsame ⟨h.flight, h.send, ?_, ?_, h.done⟩
    · exact fun hsend => absurd hidle.1 hsend
    intro hcompleted
    have hnone : op.sendCompleted = true := hcompleted
    rw [hidle.2.1] at hnone
    cases hnone

theorem Sendable.run (h : op.Sendable) (run : op.SendRun marks op') : op'.Sendable :=
  run.invariant (fun _ _ _ hop move => hop.move move) h

end PassiveTcpStreamOperation

/-! ## §3. Segments with data or FIN. -/

/-- The segments the marks are about: those with PSH or FIN. -/
def Emission.tracked (em : Emission) : Bool :=
  em.segment.flags == 0x18 || em.segment.flags == 0x11

/-- A step of the stream from one record and wire to others, seen from its sending
half. -/
structure SendStep (op : PassiveTcpStreamOperation) (wire : Wire) (marks : List SendMark)
    (op' : PassiveTcpStreamOperation) (wire' : Wire) : Prop where
  run : op.SendRun marks op'
  log : ∃ more, wire'.sent = wire.sent ++ more
    ∧ more.filter Emission.tracked = marks.filterMap SendMark.emission

namespace SendStep

variable {op op' op'' : PassiveTcpStreamOperation} {wire wire' wire'' : Wire}
  {marks more : List SendMark}

theorem trans (h : SendStep op wire marks op' wire') (h' : SendStep op' wire' more op'' wire'') :
    SendStep op wire (marks ++ more) op'' wire'' := by
  obtain ⟨run, sent, hsent, hlog⟩ := h
  obtain ⟨run', sent', hsent', hlog'⟩ := h'
  refine ⟨run.trans run', sent ++ sent', ?_, ?_⟩
  · rw [hsent', hsent, append_assoc]
  · rw [filter_append, filterMap_append, hlog, hlog']

/-- A move that sends no data and no FIN. -/
theorem quiet (move : op.SendMove marks op') (hmarks : marks.filterMap SendMark.emission = [])
    (hgrows : Wire.Grows (fun em => em.tracked = false) wire wire') :
    SendStep op wire marks op' wire' := by
  obtain ⟨-, sent, hsent, hquiet⟩ := hgrows
  refine ⟨.single move, sent, hsent, ?_⟩
  rw [hmarks]
  exact filter_eq_nil_iff.mpr fun em hem => by simp [hquiet em hem]

/-- A move that sends one segment with data or FIN. -/
theorem sent {em : Emission} (move : op.SendMove [.transmitted em] op')
    (htracked : em.tracked = true) (hsent : wire'.sent = wire.sent ++ [em]) :
    SendStep op wire [.transmitted em] op' wire' :=
  ⟨.single move, [em], hsent, by rw [filter_cons_of_pos htracked]; rfl⟩

theorem refl (op : PassiveTcpStreamOperation) (wire : Wire) : SendStep op wire [] op wire :=
  quiet (.same (.refl op)) rfl (Wire.Grows.refl wire)

/-- Nothing was sent for the sending half. -/
theorem same (hsame : SameSend op op')
    (hgrows : Wire.Grows (fun em => em.tracked = false) wire wire') :
    SendStep op wire [] op' wire' :=
  quiet (.same hsame) rfl hgrows

end SendStep

/-! ## §4. The functions of the stream. -/

namespace PassiveTcpStreamOperation

variable (op : PassiveTcpStreamOperation)

theorem sendStreamAck_quiet (wire : Wire) :
    Wire.Grows (fun em => em.tracked = false) wire (op.sendStreamAck wire).1 :=
  Wire.sendTcpWithWindow_grows rfl

theorem sendReset_quiet (wire : Wire) :
    Wire.Grows (fun em => em.tracked = false) wire (op.sendReset wire).1 :=
  Wire.sendTcpWithWindow_grows rfl

/-- The acknowledgment part of a segment. -/
theorem acceptAcknowledgment_moves (segment : PassiveSegment) (tick : Nat) :
    ∃ marks, op.SendMove marks (op.acceptAcknowledgment segment tick).1
      ∧ marks.filterMap SendMark.emission = [] := by
  rcases op.acceptAcknowledgment_cases segment tick with h | ⟨-, h⟩
  · rw [h]
    exact ⟨[], .same (.refl op), rfl⟩
  · rw [h]
    rcases op.matchAcknowledgment_cases segment.acknowledgment tick with
      ⟨hmatch, -⟩ | ⟨hmatch, hflight, hack⟩ | ⟨hmatch, hfin, hack⟩ | hmatch
    · rw [hmatch]
      exact ⟨[], .same (op.updateWindow_send segment), rfl⟩
    · rw [hmatch, hack]
      exact ⟨_, .flightAcked tick hflight (updateWindow_send _ segment), rfl⟩
    · rw [hmatch, hack]
      exact ⟨_, .finAcked tick hfin (updateWindow_send _ segment), rfl⟩
    · rw [hmatch]
      exact ⟨[], .same (op.updateWindow_send segment), rfl⟩

theorem handleSegment_moves (wire : Wire) (segment : PassiveSegment) (tick : Nat) :
    ∃ marks, SendStep op wire marks (op.handleSegment wire segment tick).1
      (op.handleSegment wire segment tick).2 := by
  obtain ⟨marks, hmove, hmarks⟩ := op.acceptAcknowledgment_moves segment tick
  have hhandled := op.handleSegment_handled wire segment tick
  generalize op.handleSegment wire segment tick = result at hhandled ⊢
  cases hhandled with
  | reset => exact ⟨[], .same ⟨rfl, rfl, rfl, rfl, rfl, rfl, rfl, rfl, rfl, rfl⟩ (Wire.Grows.refl wire)⟩
  | challenged =>
    exact ⟨[], .same ⟨rfl, rfl, rfl, rfl, rfl, rfl, rfl, rfl, rfl, rfl⟩
      (op.sendStreamAck_quiet wire)⟩
  | ignored => exact ⟨[], .refl op wire⟩
  | refused => exact ⟨marks, .quiet hmove hmarks (sendStreamAck_quiet _ wire)⟩
  | oversized =>
    exact ⟨_, (SendStep.quiet hmove hmarks (sendReset_quiet _ wire)).trans
      (.same ⟨rfl, rfl, rfl, rfl, rfl, rfl, rfl, rfl, rfl, rfl⟩ (Wire.Grows.refl _))⟩
  | bare => exact ⟨marks, .quiet hmove hmarks (Wire.Grows.refl wire)⟩
  | accepted =>
    have haccept := accept_send (op.acceptAcknowledgment segment tick).1 segment tick
    refine ⟨_, (SendStep.quiet hmove hmarks (Wire.Grows.refl wire)).trans
      (.same (haccept.trans ?_) (sendStreamAck_quiet _ wire))⟩
    exact ⟨rfl, rfl, rfl, rfl, rfl, rfl, rfl, rfl, rfl, rfl⟩

/-- A segment of at most a buffer is logged. -/
theorem sendSegment_sent {payload : Bytes} (h : payload.length ≤ passiveTcpStreamBufferCapacity)
    (wire : Wire) (sequence : BitVec 32) (flags : BitVec 8) :
    (op.sendSegment wire sequence flags payload).1.sent
      = wire.sent ++ [op.emission sequence flags payload] := by
  have hcapacity : segmentCapacity = 1400 := rfl
  have hsize : passiveTcpStreamBufferCapacity = 128 := rfl
  unfold sendSegment Wire.sendTcpWithWindow
  rw [if_neg (by omega)]
  rfl

variable {op}

theorem take_bounded (h : op.send.length ≤ passiveTcpStreamBufferCapacity) (n : Nat) :
    (op.send.take n).length ≤ passiveTcpStreamBufferCapacity :=
  Nat.le_trans (length_take_le' n op.send) h

section

variable (hsend : op.send.length ≤ passiveTcpStreamBufferCapacity)

include hsend

variable (wire : Wire) (tick : Nat)

/-- A flight is launched, or there is nothing to send. -/
theorem transmitStreamFlight_moves :
    ∃ marks, SendStep op wire marks (op.transmitStreamFlight wire tick).1
      (op.transmitStreamFlight wire tick).2.1 := by
  unfold transmitStreamFlight
  split
  · exact ⟨[], .refl op wire⟩
  rename_i hready
  rw [not_or, not_not] at hready
  refine ⟨_, SendStep.sent (.launched tick hready.1 hready.2 (.refl _)) rfl ?_⟩
  exact sendSegment_sent (op.launched tick) (take_bounded hsend op.flightLen) wire _ _

theorem transmitOrFail_moves :
    ∃ marks, SendStep op wire marks (op.transmitOrFail wire tick).1
      (op.transmitOrFail wire tick).2.1 := by
  obtain ⟨marks, hstep⟩ := transmitStreamFlight_moves hsend wire tick
  refine ⟨_, hstep.trans (.same ?_ (Wire.Grows.refl _))⟩
  exact ⟨rfl, rfl, rfl, rfl, rfl, rfl, rfl, rfl, rfl, rfl⟩

theorem resume_moves :
    ∃ marks, SendStep op wire marks (op.resume wire tick).1 (op.resume wire tick).2 := by
  unfold resume
  split
  · split
    · exact transmitOrFail_moves hsend wire tick
    split
    · have hquiet : Wire.Grows (fun em => em.tracked = false) wire
          (op.sendSegment wire (op.localSequence - 1) 0x10 [0]).1 :=
        Wire.sendTcpWithWindow_grows rfl
      exact ⟨[], .same ⟨rfl, rfl, rfl, rfl, rfl, rfl, rfl, rfl, rfl, rfl⟩ hquiet⟩
    · exact ⟨[], .refl op wire⟩
  · exact ⟨[], .refl op wire⟩

end

/-- What is retransmitted has PSH or FIN. -/
theorem outstanding_tracked {flags : BitVec 8} {len : Nat}
    (h : op.outstanding = some (flags, len)) (sequence : BitVec 32) (payload : Bytes) :
    (op.emission sequence flags payload).tracked = true := by
  unfold outstanding at h
  split at h
  · cases h
    rfl
  · split at h
    · cases h
      rfl
    · cases h

/-- A retransmission; if the device refuses it the record is dropped after the
segment is logged. -/
theorem retransmit_moves (hsend : op.send.length ≤ passiveTcpStreamBufferCapacity) (wire : Wire)
    (tick : Nat) :
    ∃ marks op', SendStep op wire marks op' (op.retransmit wire tick).2
      ∧ ((op.retransmit wire tick).1 = some op' ∨ (op.retransmit wire tick).1 = none) := by
  unfold retransmit
  split
  · split
    · exact ⟨[], op, .refl op wire, .inl rfl⟩
    rename_i flags len hout
    split
    · exact ⟨[], op, .refl op wire, .inr rfl⟩
    rename_i hattempts
    have hsent := op.sendSegment_sent (take_bounded hsend len) wire op.localSequence flags
    have hmove : op.SendMove _ (op.backedOff tick) :=
      .retried tick flags len hout (Nat.lt_of_not_le hattempts) (.refl _)
    have hstep := SendStep.sent hmove (outstanding_tracked hout _ _) hsent
    split
    · rename_i hpair
      rw [hpair] at hstep
      exact ⟨_, _, hstep, .inl rfl⟩
    · rename_i hpair
      rw [hpair] at hstep
      exact ⟨_, _, hstep, .inr rfl⟩
  · exact ⟨[], op, .refl op wire, .inl rfl⟩

theorem poll_moves (hop : op.Sendable) (wire : Wire) (tick : Nat) :
    ∃ marks op', SendStep op wire marks op' (op.poll wire tick).2.1
      ∧ ((op.poll wire tick).1 = some op' ∨ (op.poll wire tick).1 = none) := by
  unfold poll
  split
  · exact ⟨[], op, .refl op wire, .inr rfl⟩
  split
  · exact ⟨[], op, .refl op wire, .inr rfl⟩
  split
  · exact ⟨[], op, .same (.refl op) (op.sendReset_quiet wire), .inr rfl⟩
  obtain ⟨marks, hresume⟩ := resume_moves hop.send wire tick
  obtain ⟨more, op', hretry, hresult⟩ :=
    retransmit_moves (hop.run hresume.run).send (op.resume wire tick).2 tick
  have hstep := hresume.trans hretry
  refine ⟨marks ++ more, op', ?_, ?_⟩
  · dsimp only
    split
    all_goals
      rename_i hpair
      rw [hpair] at hstep
      exact hstep
  · dsimp only
    split
    · exact .inr rfl
    rename_i hpair
    rw [hpair] at hresult
    exact hresult

theorem startSend_moves (hop : op.Sendable) {wire wire' : Wire} {bytes : Bytes} {tick : Nat}
    {result : Bool} {changed : PassiveTcpStreamOperation}
    (h : op.startSend wire bytes tick = some (changed, wire', result)) :
    ∃ marks, SendStep op wire (.taken bytes :: marks) changed wire' := by
  unfold startSend at h
  split at h
  · cases h
  rename_i hready
  simp only [not_or, Nat.not_lt, Bool.not_eq_true, not_not] at hready
  obtain ⟨hbytes, hlen, -, hsend, hcompleted, hfin⟩ := hready
  have htaken : SendStep op wire [.taken bytes] (op.queued bytes tick) wire :=
    .quiet (.taken bytes tick hbytes hlen ⟨hsend, hcompleted, hfin⟩ (.refl _)) rfl
      (Wire.Grows.refl wire)
  split at h
  · cases h
    exact ⟨[], htaken⟩
  · obtain ⟨marks, hflight⟩ :=
      transmitOrFail_moves (hop.run htaken.run).send wire tick
    rw [Option.some.inj h] at hflight
    exact ⟨marks, htaken.trans hflight⟩

end PassiveTcpStreamOperation

/-- **Every event is a sequence of moves.**  The record it leaves is the one the
moves end in, unless the stream ends. -/
theorem StreamEvent.step_moves (hop : op.Sendable) (wire : Wire) (event : StreamEvent) :
    ∃ marks op', SendStep op wire marks op' (event.step op wire).2
      ∧ ((event.step op wire).1 = some op' ∨ (event.step op wire).1 = none) := by
  cases event with
  | arrival segment tick =>
    obtain ⟨marks, hstep⟩ := op.handleSegment_moves wire segment tick
    exact ⟨marks, _, hstep, .inl rfl⟩
  | poll tick => exact PassiveTcpStreamOperation.poll_moves hop wire tick
  | startSend bytes tick =>
    simp only [StreamEvent.step]
    split
    · exact ⟨[], op, .refl op wire, .inl rfl⟩
    rename_i hsend
    obtain ⟨marks, hstep⟩ := PassiveTcpStreamOperation.startSend_moves hop hsend
    exact ⟨_, _, hstep, .inl rfl⟩
  | consumeReceive =>
    simp only [StreamEvent.step, PassiveTcpStreamOperation.consumeReceive]
    by_cases hempty : op.receive = []
    · rw [if_pos hempty]
      exact ⟨[], op, .refl op wire, .inl rfl⟩
    · rw [if_neg hempty]
      exact ⟨[], _, .same op.consumed_send (op.consumed.sendStreamAck_quiet wire), .inl rfl⟩
  | consumeSend =>
    simp only [StreamEvent.step, PassiveTcpStreamOperation.consumeSend]
    split
    · rename_i hcompleted
      exact ⟨[.consumed], _, .quiet (.consumed hcompleted (.refl _)) rfl (Wire.Grows.refl wire),
        .inl rfl⟩
    · exact ⟨[], op, .refl op wire, .inl rfl⟩
  | consumePeerClose =>
    simp only [StreamEvent.step, PassiveTcpStreamOperation.consumePeerClose]
    split
    · refine ⟨[], { op with peerFinPending := false }, .same ?_ (Wire.Grows.refl wire), .inl rfl⟩
      exact ⟨rfl, rfl, rfl, rfl, rfl, rfl, rfl, rfl, rfl, rfl⟩
    · exact ⟨[], op, .refl op wire, .inl rfl⟩
  | startClose tick =>
    simp only [StreamEvent.step, PassiveTcpStreamOperation.startClose]
    by_cases hready : op.send ≠ [] ∨ op.sendCompleted = true ∨ op.finSent = true
    · rw [if_pos hready]
      exact ⟨[], op, .refl op wire, .inl rfl⟩
    · rw [if_neg hready]
      simp only [not_or, Bool.not_eq_true, not_not] at hready
      exact ⟨_, _, .sent (.closing tick hready (.refl _)) rfl rfl, .inl rfl⟩
  | finish => exact ⟨[], op, .refl op wire, .inr rfl⟩
  | cancel => exact ⟨[], op, .same (.refl op) (op.sendReset_quiet wire), .inr rfl⟩

/-- The order holds along the life of a stream. -/
theorem PassiveTcpStreamOperation.Sendable.step (hop : op.Sendable) {event : StreamEvent}
    {wire : Wire} (hstep : (event.step op wire).1 = some op') : op'.Sendable := by
  obtain ⟨marks, op'', hsteps, hresult⟩ := event.step_moves hop wire
  rcases hresult with h | h
  · rw [h] at hstep
    cases hstep
    exact hop.run hsteps.run
  · rw [h] at hstep
    cases hstep

end GenOS.Network
