/-
  GenOS.Network.StreamSteps — what a step on a stream leaves alone.

  The record of a stream has a receiving half and a sending half.  An
  acknowledgment and a transmission work on the sending half (`SameReceive`),
  payload and FIN of the peer and their consumption on the receiving half
  (`SameSend`).  `Handled` lists the outcomes of `handle_stream_segment`.
-/
import GenOS.Network.Calls

namespace GenOS.Network

open GenOS.Lib GenOS.Socket PassiveSegment
open GenOS.Ipv6 (saturatingAdd)

/-! ## §1. The two halves. -/

/-- The receiving half is the same. -/
structure SameReceive (op op' : PassiveTcpStreamOperation) : Prop where
  peer : op'.peer = op.peer
  remoteSequence : op'.remoteSequence = op.remoteSequence
  receive : op'.receive = op.receive
  deferred : op'.deferred = op.deferred
  peerFin : op'.peerFin = op.peerFin
  peerFinPending : op'.peerFinPending = op.peerFinPending

/-- The sending half is the same. -/
structure SameSend (op op' : PassiveTcpStreamOperation) : Prop where
  peer : op'.peer = op.peer
  localSequence : op'.localSequence = op.localSequence
  send : op'.send = op.send
  sendFlight : op'.sendFlight = op.sendFlight
  sendCompleted : op'.sendCompleted = op.sendCompleted
  finSent : op'.finSent = op.finSent
  finAcked : op'.finAcked = op.finAcked
  attempts : op'.attempts = op.attempts
  rtoTicks : op'.rtoTicks = op.rtoTicks
  congestionWindow : op'.congestionWindow = op.congestionWindow

namespace SameReceive

variable {op op' op'' : PassiveTcpStreamOperation}

theorem refl (op : PassiveTcpStreamOperation) : SameReceive op op :=
  ⟨rfl, rfl, rfl, rfl, rfl, rfl⟩

theorem trans (h : SameReceive op op') (h' : SameReceive op' op'') : SameReceive op op'' :=
  ⟨h'.peer.trans h.peer, h'.remoteSequence.trans h.remoteSequence, h'.receive.trans h.receive,
    h'.deferred.trans h.deferred, h'.peerFin.trans h.peerFin,
    h'.peerFinPending.trans h.peerFinPending⟩

theorem buffered (h : SameReceive op op') : op'.buffered = op.buffered := by
  rw [PassiveTcpStreamOperation.buffered, h.receive, h.deferred]
  rfl

/-- The idle deadline belongs to neither half. -/
theorem refreshed (h : SameReceive op op') (tick : Nat) :
    SameReceive op (op'.refreshStreamIdle tick) := by
  unfold PassiveTcpStreamOperation.refreshStreamIdle
  split
  · exact h.trans ⟨rfl, rfl, rfl, rfl, rfl, rfl⟩
  · exact h

end SameReceive

namespace SameSend

variable {op op' op'' : PassiveTcpStreamOperation}

theorem refl (op : PassiveTcpStreamOperation) : SameSend op op :=
  ⟨rfl, rfl, rfl, rfl, rfl, rfl, rfl, rfl, rfl, rfl⟩

theorem trans (h : SameSend op op') (h' : SameSend op' op'') : SameSend op op'' :=
  ⟨h'.peer.trans h.peer, h'.localSequence.trans h.localSequence, h'.send.trans h.send,
    h'.sendFlight.trans h.sendFlight, h'.sendCompleted.trans h.sendCompleted,
    h'.finSent.trans h.finSent, h'.finAcked.trans h.finAcked, h'.attempts.trans h.attempts,
    h'.rtoTicks.trans h.rtoTicks, h'.congestionWindow.trans h.congestionWindow⟩

theorem refreshed (h : SameSend op op') (tick : Nat) :
    SameSend op (op'.refreshStreamIdle tick) := by
  unfold PassiveTcpStreamOperation.refreshStreamIdle
  split
  · exact h.trans ⟨rfl, rfl, rfl, rfl, rfl, rfl, rfl, rfl, rfl, rfl⟩
  · exact h

end SameSend

variable {wire : Wire} {tick : Nat}

namespace PassiveTcpStreamOperation

variable (op : PassiveTcpStreamOperation)

/-! ## §2. The acknowledgment. -/

theorem matchAcknowledgment_receive (acknowledgment : BitVec 32) (tick : Nat) :
    SameReceive op (op.matchAcknowledgment acknowledgment tick).1 := by
  unfold matchAcknowledgment
  split
  · exact .refl op
  split
  · refine .refreshed ?_ tick
    exact ⟨rfl, rfl, rfl, rfl, rfl, rfl⟩
  split
  · refine .refreshed ?_ tick
    exact ⟨rfl, rfl, rfl, rfl, rfl, rfl⟩
  · exact .refl op

variable (segment : PassiveSegment)

theorem updateWindow_receive : SameReceive op (op.updateWindow segment) := by
  unfold updateWindow
  split <;> exact ⟨rfl, rfl, rfl, rfl, rfl, rfl⟩

theorem updateWindow_send : SameSend op (op.updateWindow segment) := by
  unfold updateWindow
  split <;> exact ⟨rfl, rfl, rfl, rfl, rfl, rfl, rfl, rfl, rfl, rfl⟩

/-- The acknowledgments a segment may carry. -/
def Acknowledges : Prop :=
  segment.ack = true ∧ op.sequenceValid segment = true
    ∧ (segment.acknowledgment = op.localSequence
      ∨ (op.sendFlight ≠ 0
        ∧ segment.acknowledgment = op.localSequence + BitVec.ofNat 32 op.sendFlight)
      ∨ (op.finOutstanding = true ∧ segment.acknowledgment = op.localSequence + 1))

/-- A number that matches is the local sequence, or that behind the flight or
the FIN. -/
theorem matchAcknowledgment_cases (acknowledgment : BitVec 32) (tick : Nat) :
    (op.matchAcknowledgment acknowledgment tick = (op, true) ∧ acknowledgment = op.localSequence)
    ∨ (op.matchAcknowledgment acknowledgment tick = (op.flightAcked acknowledgment tick, true)
      ∧ op.sendFlight ≠ 0
      ∧ acknowledgment = op.localSequence + BitVec.ofNat 32 op.sendFlight)
    ∨ (op.matchAcknowledgment acknowledgment tick = (op.finAckReceived acknowledgment tick, true)
      ∧ op.finOutstanding = true ∧ acknowledgment = op.localSequence + 1)
    ∨ op.matchAcknowledgment acknowledgment tick = (op, false) := by
  unfold matchAcknowledgment
  split
  · rename_i h
    exact .inl ⟨rfl, h⟩
  split
  · rename_i h
    exact .inr (.inl ⟨rfl, h.1, h.2⟩)
  split
  · rename_i h
    exact .inr (.inr (.inl ⟨rfl, h.1, h.2⟩))
  · exact .inr (.inr (.inr rfl))

section

variable (tick : Nat)

/-- The acknowledgment part changes the record only for a valid number. -/
theorem acceptAcknowledgment_cases :
    op.acceptAcknowledgment segment tick = (op, false)
    ∨ (op.Acknowledges segment
      ∧ op.acceptAcknowledgment segment tick
        = ((op.matchAcknowledgment segment.acknowledgment tick).1.updateWindow segment, true)) := by
  unfold acceptAcknowledgment
  split
  · rename_i hvalid
    rcases op.matchAcknowledgment_cases segment.acknowledgment tick with
      ⟨hmatch, hack⟩ | ⟨hmatch, hack⟩ | ⟨hmatch, hack⟩ | hmatch
    · rw [hmatch]
      exact .inr ⟨⟨hvalid.1, hvalid.2, .inl hack⟩, rfl⟩
    · rw [hmatch]
      exact .inr ⟨⟨hvalid.1, hvalid.2, .inr (.inl hack)⟩, rfl⟩
    · rw [hmatch]
      exact .inr ⟨⟨hvalid.1, hvalid.2, .inr (.inr hack)⟩, rfl⟩
    · rw [hmatch]
      exact .inl rfl
  · exact .inl rfl

theorem acceptAcknowledgment_receive : SameReceive op (op.acceptAcknowledgment segment tick).1 := by
  rcases op.acceptAcknowledgment_cases segment tick with h | ⟨-, h⟩
  · rw [h]
    exact .refl op
  · rw [h]
    exact (op.matchAcknowledgment_receive _ tick).trans (updateWindow_receive _ segment)

/-! ## §3. Payload and FIN. -/

theorem storeReceive_send : SameSend op (op.storeReceive segment tick) := by
  unfold storeReceive
  dsimp only
  have hstored : SameSend op ({ op with
      receive := segment.payload
      streamReceivedBytes := saturatingAdd op.streamReceivedBytes segment.len
      remoteSequence := op.remoteSequence + segment.len32 : PassiveTcpStreamOperation
      }.refreshStreamIdle tick) := by
    refine .refreshed ?_ tick
    exact ⟨rfl, rfl, rfl, rfl, rfl, rfl, rfl, rfl, rfl, rfl⟩
  split
  · split
    · exact hstored.trans ⟨rfl, rfl, rfl, rfl, rfl, rfl, rfl, rfl, rfl, rfl⟩
    · exact hstored
  · exact hstored

theorem storeDeferred_send : SameSend op (op.storeDeferred segment tick) := by
  refine .refreshed ?_ tick
  exact ⟨rfl, rfl, rfl, rfl, rfl, rfl, rfl, rfl, rfl, rfl⟩

theorem store_send : SameSend op (op.store segment tick).1 := by
  unfold store
  split
  · exact op.storeReceive_send segment tick
  split
  · exact op.storeDeferred_send segment tick
  · exact .refl op

theorem takeFin_send : SameSend op (op.takeFin segment tick) := by
  unfold takeFin
  split
  · refine .refreshed ?_ tick
    exact ⟨rfl, rfl, rfl, rfl, rfl, rfl, rfl, rfl, rfl, rfl⟩
  · exact .refl op

/-- The record before the FIN of a segment. -/
def stored : PassiveTcpStreamOperation × Bool :=
  if segment.len ≠ 0 then op.store segment tick else (op, false)

theorem stored_send : SameSend op (op.stored segment tick).1 := by
  unfold stored
  split
  · exact op.store_send segment tick
  · exact .refl op

/-- What becomes of the payload, with `deferred_fin`: nothing; the first buffer
takes it, and the deferred segment may follow at once; or the deferred slot takes
it. -/
inductive Stores (segment : PassiveSegment) : PassiveTcpStreamOperation × Bool → Prop
  | nothing {op' : PassiveTcpStreamOperation} (hsame : SameReceive op op')
      (hdropped : segment.len ≠ 0 →
        ¬ (segment.sequence = op.remoteSequence ∧ op.receive = []) ∧ op.defers segment = false) :
      Stores segment (op', false)
  | first {op' : PassiveTcpStreamOperation} (hlen : segment.len ≠ 0)
      (hsequence : segment.sequence = op.remoteSequence) (hempty : op.receive = [])
      (hgap : ∀ d, op.deferred = some d → d.sequence ≠ op.remoteSequence + segment.len32)
      (hsame : SameReceive { op with
        receive := segment.payload
        remoteSequence := op.remoteSequence + segment.len32 } op') :
      Stores segment (op', false)
  | promoted {op' : PassiveTcpStreamOperation} (d : DeferredTcpSegment) (hlen : segment.len ≠ 0)
      (hsequence : segment.sequence = op.remoteSequence) (hempty : op.receive = [])
      (hdeferred : op.deferred = some d) (hnext : d.sequence = op.remoteSequence + segment.len32)
      (hsame : SameReceive { op with
        receive := segment.payload
        remoteSequence :=
          op.remoteSequence + segment.len32 + BitVec.ofNat 32 d.bytes.length + oneIf d.fin
        deferred := some { d with acknowledged := true } } op') :
      Stores segment (op', false)
  | second {op' : PassiveTcpStreamOperation} (hlen : segment.len ≠ 0) (hfree : op.deferred = none)
      (hbusy : ¬ (segment.sequence = op.remoteSequence ∧ op.receive = []))
      (hfits : (segment.sequence - op.remoteSequence).toNat + segment.len
        + (oneIf segment.fin).toNat ≤ (receiveWindow op).toNat)
      (hsame : SameReceive { op with
        remoteSequence :=
          if segment.sequence = op.remoteSequence then
            op.remoteSequence + segment.len32 + oneIf segment.fin
          else op.remoteSequence
        deferred := some ⟨segment.sequence, segment.payload, segment.fin,
          segment.sequence = op.remoteSequence⟩ } op') :
      Stores segment (op', segment.fin)

theorem stored_stores : op.Stores segment (op.stored segment tick) := by
  unfold stored
  split
  · rename_i hlen
    unfold store
    split
    · rename_i hfirst
      have hbase := (SameReceive.refl { op with
        receive := segment.payload
        streamReceivedBytes := saturatingAdd op.streamReceivedBytes segment.len
        remoteSequence := op.remoteSequence + segment.len32 }).refreshed tick
      have hfields : SameReceive { op with
          receive := segment.payload
          remoteSequence := op.remoteSequence + segment.len32 } _ :=
        ⟨hbase.peer, hbase.remoteSequence, hbase.receive, hbase.deferred, hbase.peerFin,
          hbase.peerFinPending⟩
      have hdeferred := hbase.deferred
      have hsequence := hbase.remoteSequence
      unfold storeReceive
      dsimp only at hbase hdeferred hsequence ⊢
      split
      · rename_i d hd
        rw [hdeferred] at hd
        split
        · rename_i hnext
          rw [hsequence] at hnext
          refine .promoted d hlen hfirst.1 hfirst.2 hd hnext ?_
          rw [hsequence]
          exact ⟨hbase.peer, rfl, hbase.receive, rfl, hbase.peerFin, hbase.peerFinPending⟩
        · rename_i hnext
          rw [hsequence] at hnext
          refine .first hlen hfirst.1 hfirst.2 ?_ hfields
          intro d' hd' heq
          rw [hd] at hd'
          cases hd'
          exact hnext heq
      · rename_i hd
        rw [hdeferred] at hd
        exact .first hlen hfirst.1 hfirst.2 (fun d' hd' => by rw [hd] at hd'; cases hd')
          hfields
    rename_i hfirst
    split
    · rename_i hdefers
      simp only [defers, Bool.and_eq_true, Option.isNone_iff_eq_none, decide_eq_true_eq] at hdefers
      refine .second hlen hdefers.1 hfirst hdefers.2 ?_
      refine .refreshed ?_ tick
      exact ⟨rfl, rfl, rfl, rfl, rfl, rfl⟩
    · rename_i hdefers
      exact .nothing (.refl op) fun _ => ⟨hfirst, Bool.eq_false_iff.mpr hdefers⟩
  · rename_i hlen
    exact .nothing (.refl op) fun hne => absurd hne hlen

/-- A FIN is taken at its place, or ignored. -/
theorem takeFin_cases :
    (segment.sequence + segment.len32 ≠ op.remoteSequence ∧ op.takeFin segment tick = op)
    ∨ (segment.sequence + segment.len32 = op.remoteSequence
      ∧ SameReceive { op with
          remoteSequence := op.remoteSequence + 1
          peerFin := true
          peerFinPending := true } (op.takeFin segment tick)) := by
  unfold takeFin
  split
  · rename_i h
    refine .inr ⟨h, SameReceive.refreshed ?_ tick⟩
    exact ⟨rfl, rfl, rfl, rfl, rfl, rfl⟩
  · rename_i h
    exact .inl ⟨h, rfl⟩

theorem accept_eq :
    op.accept segment tick
      = if segment.fin ∧ (op.stored segment tick).2 = false then
          ((op.stored segment tick).1.takeFin segment tick, true)
        else ((op.stored segment tick).1, segment.len ≠ 0) := rfl

theorem accept_send : SameSend op (op.accept segment tick).1 := by
  rw [accept_eq]
  split
  · exact (op.stored_send segment tick).trans (takeFin_send _ segment tick)
  · exact op.stored_send segment tick

/-- A segment with payload or FIN is acknowledged. -/
theorem accept_acknowledges : (op.accept segment tick).2 = segment.carries := by
  rw [accept_eq]
  by_cases hlen : segment.len = 0
  · cases hfin : segment.fin <;> simp [stored, carries, hlen, hfin]
  have hcarries : segment.carries = true := by simp [carries, hlen]
  rw [hcarries]
  split
  · rfl
  · simp [hlen]

end

/-- Without payload and FIN nothing happens. -/
theorem accept_of_not_carries {segment : PassiveSegment} (h : segment.carries = false)
    (tick : Nat) : op.accept segment tick = (op, false) := by
  simp only [carries, Bool.or_eq_false_iff, bne_eq_false_iff_eq] at h
  rw [accept_eq, stored]
  simp [h.1, h.2]

/-! ## §4. The outcomes of `handle_stream_segment`. -/

/-- The outcomes: an exact reset, a challenge, a segment that is ignored, and
after the acknowledgment part a segment that is refused, too long, without
content or accepted. -/
inductive Handled (wire : Wire) (segment : PassiveSegment) (tick : Nat) :
    PassiveTcpStreamOperation × Wire → Prop
  | reset (hflags : segment.rst = true) (hsequence : segment.sequence = op.remoteSequence) :
      Handled wire segment tick ({ op with reset := true }, wire)
  | challenged :
      Handled wire segment tick
        ({ op with challengeAckTick := some tick }, (op.sendStreamAck wire).1)
  | ignored : Handled wire segment tick (op, wire)
  | refused (hflags : segment.rst = false ∧ segment.syn = false)
      (hcarries : segment.carries = true) :
      Handled wire segment tick ((op.acceptAcknowledgment segment tick).1,
        ((op.acceptAcknowledgment segment tick).1.sendStreamAck wire).1)
  | oversized (hflags : segment.rst = false ∧ segment.syn = false)
      (hvalid : (op.acceptAcknowledgment segment tick).2 = true) :
      Handled wire segment tick ({ (op.acceptAcknowledgment segment tick).1 with failed := true },
        ((op.acceptAcknowledgment segment tick).1.sendReset wire).1)
  | bare (hflags : segment.rst = false ∧ segment.syn = false)
      (hcarries : segment.carries = false) :
      Handled wire segment tick ((op.acceptAcknowledgment segment tick).1, wire)
  | accepted (hflags : segment.rst = false ∧ segment.syn = false)
      (hcarries : segment.carries = true)
      (hvalid : (op.acceptAcknowledgment segment tick).2 = true)
      (hopen : (op.acceptAcknowledgment segment tick).1.finished = false)
      (hlen : segment.len ≤ passiveTcpStreamBufferCapacity)
      (hwindow : receiveWindow (op.acceptAcknowledgment segment tick).1 ≠ 0)
      (hoverlap : segment.len ≠ 0 →
        (op.acceptAcknowledgment segment tick).1.overlapsDeferred segment = false) :
      Handled wire segment tick
        (((op.acceptAcknowledgment segment tick).1.accept segment tick).1.acknowledge wire)

theorem handleSegment_handled (wire : Wire) (segment : PassiveSegment) (tick : Nat) :
    op.Handled wire segment tick (op.handleSegment wire segment tick) := by
  unfold handleSegment
  split
  · rename_i hrst
    unfold handleReset
    split
    · rename_i hsequence
      exact .reset hrst hsequence
    split
    · exact .challenged
    · exact .ignored
  rename_i hrst
  split
  · unfold handleSyn
    split
    · exact .challenged
    · exact .ignored
  rename_i hsyn
  have hflags : segment.rst = false ∧ segment.syn = false :=
    ⟨Bool.eq_false_iff.mpr hrst, Bool.eq_false_iff.mpr hsyn⟩
  show op.Handled wire segment tick ((op.acceptAcknowledgment segment tick).1.acceptPayload wire segment
    (op.acceptAcknowledgment segment tick).2 tick)
  unfold acceptPayload
  by_cases hcarries : segment.carries = true
  · split
    · exact .refused hflags hcarries
    rename_i hvalid
    split
    · exact .refused hflags hcarries
    rename_i hopen
    split
    · exact .oversized hflags (by simpa [hcarries] using hvalid)
    rename_i hlen
    split
    · exact .refused hflags hcarries
    rename_i hwindow
    split
    · exact .refused hflags hcarries
    rename_i hoverlap
    have hack := accept_acknowledges (op.acceptAcknowledgment segment tick).1 segment tick
    rw [hcarries] at hack
    have hpair : (op.acceptAcknowledgment segment tick).1.accept segment tick
        = (((op.acceptAcknowledgment segment tick).1.accept segment tick).1, true) :=
      Prod.ext rfl hack
    rw [hpair]
    refine .accepted hflags hcarries (by simpa [hcarries] using hvalid)
      (by simpa [hcarries] using hopen) (Nat.le_of_not_lt hlen) ?_ ?_
    · intro hzero
      exact hwindow ⟨hzero, hcarries⟩
    · intro hne
      simpa [hne] using hoverlap
  · have hbare : segment.carries = false := Bool.eq_false_iff.mpr hcarries
    have hlen : segment.len = 0 := by
      simp only [carries, Bool.or_eq_false_iff, bne_eq_false_iff_eq] at hbare
      exact hbare.1
    have hsmall : ¬ passiveTcpStreamBufferCapacity < segment.len := by rw [hlen]; decide
    simp only [hbare, hlen, Bool.false_eq_true, false_and, and_false, if_false, ne_eq,
      not_true]
    rw [if_neg (by decide), accept_of_not_carries _ hbare]
    exact .bare hflags hbare

/-! ## §5. Transmission and consumption. -/

theorem transmitStreamFlight_receive (wire : Wire) (tick : Nat) :
    SameReceive op (op.transmitStreamFlight wire tick).1 := by
  unfold transmitStreamFlight
  split
  · exact .refl op
  · exact ⟨rfl, rfl, rfl, rfl, rfl, rfl⟩

theorem transmitOrFail_receive (wire : Wire) (tick : Nat) :
    SameReceive op (op.transmitOrFail wire tick).1 :=
  (op.transmitStreamFlight_receive wire tick).trans ⟨rfl, rfl, rfl, rfl, rfl, rfl⟩

theorem resume_receive (wire : Wire) (tick : Nat) : SameReceive op (op.resume wire tick).1 := by
  unfold resume
  split
  · split
    · exact op.transmitOrFail_receive wire tick
    split
    · exact ⟨rfl, rfl, rfl, rfl, rfl, rfl⟩
    · exact .refl op
  · exact .refl op

theorem retransmit_receive {kept : PassiveTcpStreamOperation}
    (h : (op.retransmit wire tick).1 = some kept) : SameReceive op kept := by
  unfold retransmit at h
  split at h
  · split at h
    · cases h
      exact .refl op
    · split at h
      · cases h
      split at h
      · cases h
        exact ⟨rfl, rfl, rfl, rfl, rfl, rfl⟩
      · cases h
  · cases h
    exact .refl op

theorem startSend_receive {wire' : Wire} {bytes : Bytes} {result : Bool}
    {changed : PassiveTcpStreamOperation}
    (h : op.startSend wire bytes tick = some (changed, wire', result)) : SameReceive op changed := by
  have hqueued : SameReceive op (op.queued bytes tick) := ⟨rfl, rfl, rfl, rfl, rfl, rfl⟩
  have hflight := hqueued.trans (transmitOrFail_receive (op.queued bytes tick) wire tick)
  unfold startSend at h
  split at h
  · cases h
  split at h
  · cases h
    exact hqueued
  · rw [Option.some.inj h] at hflight
    exact hflight

theorem startClose_receive {wire' : Wire} {result : Bool} {changed : PassiveTcpStreamOperation}
    (h : op.startClose wire tick = some (changed, wire', result)) : SameReceive op changed := by
  unfold startClose at h
  split at h
  · cases h
  · cases h
    exact ⟨rfl, rfl, rfl, rfl, rfl, rfl⟩

theorem consumed_send : SameSend op op.consumed := by
  unfold consumed
  split <;> exact ⟨rfl, rfl, rfl, rfl, rfl, rfl, rfl, rfl, rfl, rfl⟩

/-- The outcomes of a poll: the stream is removed, or it is kept with the same
receiving half and reports. -/
theorem poll_cases (wire : Wire) (tick : Nat) :
    (∃ wire' progress, op.poll wire tick = (none, wire', some progress)
      ∧ (progress = .reset op.peer ∨ progress = .failed op.peer))
    ∨ (op.reset = false ∧ op.failed = false ∧ op.expired tick = false
      ∧ ∃ kept wire', (op.resume wire tick).1.retransmit (op.resume wire tick).2 tick
          = (some kept, wire')
        ∧ op.poll wire tick = (some kept, wire', kept.report) ∧ SameReceive op kept) := by
  unfold poll
  split
  · exact .inl ⟨_, _, rfl, .inl rfl⟩
  rename_i hreset
  split
  · exact .inl ⟨_, _, rfl, .inr rfl⟩
  rename_i hfailed
  split
  · exact .inl ⟨_, _, rfl, .inr rfl⟩
  rename_i hexpired
  show (∃ wire' progress, _) ∨ _
  cases hretry : (op.resume wire tick).1.retransmit (op.resume wire tick).2 tick with
  | mk kept wire' =>
    cases kept with
    | none =>
      dsimp only
      rw [hretry]
      exact .inl ⟨_, _, rfl, .inr rfl⟩
    | some kept =>
      refine .inr ⟨by simpa using hreset, by simpa using hfailed, by simpa using hexpired,
        kept, wire', rfl, ?_, ?_⟩
      · dsimp only
        rw [hretry]
      · exact (op.resume_receive wire tick).trans (retransmit_receive _ (congrArg Prod.fst hretry))

end PassiveTcpStreamOperation

end GenOS.Network
