/-
  GenOS.Network.StreamEvents — the life of a stream as a sequence of events.

  What the stack does to a stream slot is one of nine functions on its record
  (`StreamEvent`).  Every call of the coordinator is a sequence of such events on
  single slots, of steps that touch no stream, or the attachment of a new stream
  to a free slot (`NetCall.micros`); so a property of streams is proved for the
  events and holds of every stream of every reachable stack.
-/
import GenOS.Network.StreamSteps
import Mathlib.Logic.Relation

namespace GenOS.Network

open GenOS.Lib GenOS.Socket Relation
open GenOS.Ipv6 (saturatingAdd)

/-! ## §1. Events. -/

inductive StreamEvent where
  | arrival (segment : PassiveSegment) (tick : Nat)
  | poll (tick : Nat)
  | startSend (bytes : Bytes) (tick : Nat)
  | consumeReceive
  | consumeSend
  | consumePeerClose
  | startClose (tick : Nat)
  | finish
  | cancel

/-- The record an event leaves in the slot, and the wire. -/
def StreamEvent.step (op : PassiveTcpStreamOperation) (wire : Wire) :
    StreamEvent → Option PassiveTcpStreamOperation × Wire
  | .arrival segment tick =>
    (some (op.handleSegment wire segment tick).1, (op.handleSegment wire segment tick).2)
  | .poll tick => ((op.poll wire tick).1, (op.poll wire tick).2.1)
  | .startSend bytes tick =>
    match op.startSend wire bytes tick with
    | none => (some op, wire)
    | some (changed, wire', _) => (some changed, wire')
  | .consumeReceive =>
    match op.consumeReceive wire with
    | none => (some op, wire)
    | some (consumed, wire') => (some consumed, wire')
  | .consumeSend => (some (op.consumeSend.getD op), wire)
  | .consumePeerClose => (some (op.consumePeerClose.getD op), wire)
  | .startClose tick =>
    match op.startClose wire tick with
    | none => (some op, wire)
    | some (changed, wire', _) => (some changed, wire')
  | .finish => (none, wire)
  | .cancel => (none, (op.sendReset wire).1)

/-! ## §2. What an event sends. -/

/-- The stream a segment belongs to. -/
def Emission.peer (em : Emission) : Option TcpServerPeer :=
  match em.sender with
  | .stream op => some op.peer
  | _ => none

namespace PassiveTcpStreamOperation

/-- A segment with the receive window. -/
def emission (op : PassiveTcpStreamOperation) (sequence : BitVec 32) (flags : BitVec 8)
    (payload : Bytes) : Emission :=
  ⟨⟨op.peer.sourceMac, op.peer.target, op.peer.localPort, op.peer.remotePort, sequence,
    op.remoteSequence, flags, payload, receiveWindow op⟩, .stream op⟩

/-- A segment that `send_tcp` builds. -/
def fullEmission (op : PassiveTcpStreamOperation) (flags : BitVec 8) : Emission :=
  ⟨⟨op.peer.sourceMac, op.peer.target, op.peer.localPort, op.peer.remotePort, op.localSequence,
    op.remoteSequence, flags, [], BitVec.ofNat 16 passiveTcpReceiveCapacity⟩, .stream op⟩

end PassiveTcpStreamOperation

/-- `P` holds of what a stream can send as long as its receiving half stays, except
for the FIN of a close. -/
structure Sends (P : Emission → Prop) (op : PassiveTcpStreamOperation) : Prop where
  segment : ∀ op', SameReceive op op' → ∀ sequence flags payload,
    P (op'.emission sequence flags payload)
  reset : ∀ op', SameReceive op op' → P (op'.fullEmission 0x14)

namespace Sends

open Wire PassiveTcpStreamOperation

variable {P : Emission → Prop} {op op' : PassiveTcpStreamOperation}

theorem sendSegment (h : Sends P op) (wire : Wire) (sequence : BitVec 32) (flags : BitVec 8)
    (payload : Bytes) : Grows P wire (op.sendSegment wire sequence flags payload).1 :=
  sendTcpWithWindow_grows (h.segment op (.refl op) sequence flags payload)

theorem sendStreamAck (h : Sends P op) (wire : Wire) : Grows P wire (op.sendStreamAck wire).1 :=
  h.sendSegment wire _ _ _

theorem sendReset (h : Sends P op) (wire : Wire) : Grows P wire (op.sendReset wire).1 :=
  sendTcpWithWindow_grows (h.reset op (.refl op))

theorem of_same (h : Sends P op) (hsame : SameReceive op op') : Sends P op' :=
  ⟨fun op'' hsame' => h.segment op'' (hsame.trans hsame'),
    fun op'' hsame' => h.reset op'' (hsame.trans hsame')⟩

theorem transmitOrFail (h : Sends P op) (wire : Wire) (tick : Nat) :
    Grows P wire (op.transmitOrFail wire tick).2.1 := by
  show Grows P wire (op.transmitStreamFlight wire tick).2.1
  unfold transmitStreamFlight
  split
  · exact .refl wire
  · have hlaunched : Sends P (op.launched tick) := h.of_same ⟨rfl, rfl, rfl, rfl, rfl, rfl⟩
    exact hlaunched.sendSegment wire _ _ _

theorem resume (h : Sends P op) (wire : Wire) (tick : Nat) :
    Grows P wire (op.resume wire tick).2 := by
  unfold PassiveTcpStreamOperation.resume
  split
  · split
    · exact h.transmitOrFail wire tick
    split
    · exact h.sendSegment wire (op.localSequence - 1) 0x10 [0]
    · exact .refl wire
  · exact .refl wire

theorem retransmit (h : Sends P op) (wire : Wire) (tick : Nat) :
    Grows P wire (op.retransmit wire tick).2 := by
  unfold PassiveTcpStreamOperation.retransmit
  split
  · split
    · exact .refl wire
    rename_i flags len hout
    split
    · exact .refl wire
    have hsend := h.sendSegment wire op.localSequence flags (op.send.take len)
    split
    all_goals
      rename_i hsent
      rw [hsent] at hsend
      exact hsend
  · exact .refl wire

theorem poll (h : Sends P op) (wire : Wire) (tick : Nat) :
    Grows P wire (op.poll wire tick).2.1 := by
  have hresumed := h.of_same (op.resume_receive wire tick)
  have hgrows := (h.resume wire tick).trans (hresumed.retransmit (op.resume wire tick).2 tick)
  unfold PassiveTcpStreamOperation.poll
  split
  · exact .refl wire
  split
  · exact .refl wire
  split
  · exact h.sendReset wire
  dsimp only
  split
  all_goals
    rename_i hkept
    rw [hkept] at hgrows
    exact hgrows

theorem startSend (h : Sends P op) {wire wire' : Wire} {bytes : Bytes} {tick : Nat}
    {result : Bool} {changed : PassiveTcpStreamOperation}
    (hsend : op.startSend wire bytes tick = some (changed, wire', result)) :
    Grows P wire wire' := by
  unfold PassiveTcpStreamOperation.startSend at hsend
  split at hsend
  · cases hsend
  split at hsend
  · cases hsend
    exact .refl wire
  · have hqueued : Sends P (op.queued bytes tick) := h.of_same ⟨rfl, rfl, rfl, rfl, rfl, rfl⟩
    have hgrows := hqueued.transmitOrFail wire tick
    rw [Option.some.inj hsend] at hgrows
    exact hgrows

end Sends

/-- `P` holds of all segments of a stream, except for the FIN of a close. -/
structure Covers (P : Emission → Prop) (peer : TcpServerPeer) : Prop where
  segment : ∀ op : PassiveTcpStreamOperation, op.peer = peer → ∀ sequence flags payload,
    P (op.emission sequence flags payload)
  reset : ∀ op : PassiveTcpStreamOperation, op.peer = peer → P (op.fullEmission 0x14)

namespace Covers

open Wire PassiveTcpStreamOperation

variable {P : Emission → Prop} {op op' : PassiveTcpStreamOperation}

theorem sends (h : Covers P op.peer) : Sends P op :=
  ⟨fun op' hsame => h.segment op' hsame.peer, fun op' hsame => h.reset op' hsame.peer⟩

theorem of_peer (h : Covers P op.peer) (hpeer : op'.peer = op.peer) : Covers P op'.peer := by
  rw [hpeer]
  exact h

theorem handleSegment (h : Covers P op.peer) (wire : Wire) (segment : PassiveSegment)
    (tick : Nat) : Grows P wire (op.handleSegment wire segment tick).2 := by
  have hacked := h.of_peer (op.acceptAcknowledgment_receive segment tick).peer
  have hhandled := op.handleSegment_handled wire segment tick
  generalize op.handleSegment wire segment tick = result at hhandled ⊢
  cases hhandled with
  | reset | ignored | bare => exact .refl wire
  | challenged => exact h.sends.sendStreamAck wire
  | refused => exact hacked.sends.sendStreamAck wire
  | oversized => exact hacked.sends.sendReset wire
  | accepted =>
    have hpeer := (accept_send (op.acceptAcknowledgment segment tick).1 segment tick).peer
    exact (hacked.of_peer hpeer).sends.sendStreamAck wire

/-- **Everything an event sends is a segment of its stream.** -/
theorem step (h : Covers P op.peer) (hfin : ∀ tick, P ((op.closing tick).fullEmission 0x11))
    (wire : Wire) (event : StreamEvent) : Grows P wire (event.step op wire).2 := by
  cases event with
  | arrival segment tick => exact h.handleSegment wire segment tick
  | poll tick => exact h.sends.poll wire tick
  | startSend bytes tick =>
    simp only [StreamEvent.step]
    split
    · exact .refl wire
    · rename_i hsend
      exact h.sends.startSend hsend
  | consumeReceive =>
    simp only [StreamEvent.step, consumeReceive]
    split
    · exact .refl wire
    rename_i hconsumed
    split at hconsumed
    · cases hconsumed
    · cases hconsumed
      exact (h.of_peer op.consumed_send.peer).sends.sendStreamAck wire
  | consumeSend | consumePeerClose | finish => exact .refl wire
  | startClose tick =>
    simp only [StreamEvent.step, startClose]
    split
    · exact .refl wire
    rename_i hclosing
    split at hclosing
    · cases hclosing
    · cases hclosing
      exact sendTcpWithWindow_grows (hfin tick)
  | cancel => exact h.sends.sendReset wire

end Covers

/-! ## §3. What a handshake sends. -/

/-- `P` holds of the segments of handshakes and of the resets of peers. -/
def ControlCovers (P : Emission → Prop) : Prop :=
  ∀ mac destination sourcePort destinationPort sequence acknowledgment flags,
    P ⟨⟨mac, destination, sourcePort, destinationPort, sequence, acknowledgment, flags, [],
      BitVec.ofNat 16 passiveTcpReceiveCapacity⟩, .control⟩

namespace PassiveTcpOperation

open Wire

variable {P : Emission → Prop}

/-- The segment is acknowledged as early data. -/
def acksEarly (op : PassiveTcpOperation) (segment : PassiveSegment) : Bool :=
  !segment.rst && op.acknowledges segment && (op.admitsPayload segment || op.admitsFin segment)

/-- The acknowledgment of the early data. -/
def earlyAck (op : PassiveTcpOperation) : Emission :=
  ⟨⟨op.sourceMac, op.target, op.localPort, op.remotePort, op.localSequence + 1,
    op.earlySequence + oneIf op.early.fin, 0x10, [], BitVec.ofNat 16 passiveTcpReceiveCapacity⟩,
    .early op⟩

/-- A handshake slot sends a SYN-ACK, or the acknowledgment of early data. -/
theorem handleSegment_grows (hP : ControlCovers P) (op : PassiveTcpOperation) (wire : Wire)
    (segment : PassiveSegment) (tick : Nat)
    (hearly : op.acksEarly segment = true → P (op.withEarly segment tick).earlyAck) :
    Grows P wire (op.handleSegment wire segment tick).2 := by
  unfold handleSegment
  split
  · exact .refl wire
  rename_i hrst
  split
  · have hsyn : Grows P wire (op.sendPassiveSynAck wire).1 :=
      sendTcpWithWindow_grows (hP _ _ _ _ _ _ _)
    split
    all_goals
      rename_i hsent
      rw [hsent] at hsyn
      exact hsyn
  split
  · exact .refl wire
  rename_i hack
  split
  · exact .refl wire
  split
  · rename_i hadmits
    have hacks : op.acksEarly segment = true := by
      simp only [acksEarly, Bool.and_eq_true, Bool.not_eq_true', Bool.or_eq_true]
      exact ⟨⟨Bool.eq_false_iff.mpr hrst, by simpa using hack⟩, hadmits⟩
    have hsend : Grows P wire ((op.withEarly segment tick).sendEarlyAck wire).1 :=
      sendTcpWithWindow_grows (hearly hacks)
    split
    all_goals
      rename_i hsent
      rw [hsent] at hsend
      exact hsend
  · exact .refl wire

theorem poll_grows (hP : ControlCovers P) (op : PassiveTcpOperation) (wire : Wire) (tick : Nat) :
    Grows P wire (op.poll wire tick).2.1 := by
  have hsyn : Grows P wire (op.sendPassiveSynAck wire).1 :=
    sendTcpWithWindow_grows (hP _ _ _ _ _ _ _)
  unfold poll
  split
  · exact .refl wire
  split
  · exact .refl wire
  split
  · split
    · exact .refl wire
    split
    all_goals
      rename_i hsent
      rw [hsent] at hsyn
      exact hsyn
  · exact .refl wire

end PassiveTcpOperation

namespace NetworkStack

open Wire

variable {P : Emission → Prop}

/-- The poll of the handshake slots concerns no stream. -/
theorem pollHandshakes_spec (hP : ControlCovers P) (tick : Nat)
    (indices : List (Fin passiveTcpHandshakeSlots)) :
    ∀ (s : NetworkStack) (anyActive : Bool),
      (s.pollHandshakes tick anyActive indices).1.passiveStreams = s.passiveStreams
      ∧ Grows P s.wire (s.pollHandshakes tick anyActive indices).1.wire := by
  induction indices with
  | nil => exact fun s anyActive => ⟨rfl, Grows.refl s.wire⟩
  | cons index rest ih =>
    intro s anyActive
    unfold pollHandshakes
    split
    · exact ih s anyActive
    rename_i op hop
    have hgrows := op.poll_grows hP s.wire tick
    split
    · rename_i hpoll
      rw [hpoll] at hgrows
      exact ⟨rfl, hgrows⟩
    · rename_i kept wire hpoll
      rw [hpoll] at hgrows
      obtain ⟨hstreams, hrest⟩ := ih (s.putHandshake index kept wire) true
      exact ⟨hstreams, hgrows.trans hrest⟩

theorem takeSyn_spec (s : NetworkStack) :
    s.takeSyn.1.passiveStreams = s.passiveStreams ∧ s.takeSyn.1.wire = s.wire := by
  unfold takeSyn
  split <;> exact ⟨rfl, rfl⟩

theorem noteSyn_spec (s : NetworkStack) (segment : PassiveSegment) :
    (s.noteSyn segment).passiveStreams = s.passiveStreams ∧ (s.noteSyn segment).wire = s.wire := by
  unfold noteSyn
  split
  · dsimp only
    split
    · exact ⟨rfl, rfl⟩
    · split <;> exact ⟨rfl, rfl⟩
  · exact ⟨rfl, rfl⟩

end NetworkStack

open NetworkStack

/-! ## §4. Calls as events. -/

/-- A step of the stack: an event of one stream, or something that touches no
stream and sends nothing for one. -/
inductive Micro : NetworkStack → NetworkStack → Prop
  | stream {s : NetworkStack} (index : Fin passiveTcpStreamSlots) (op : PassiveTcpStreamOperation)
      (event : StreamEvent) (hop : s.passiveStreams index = some op) :
      Micro s (s.putStream index (event.step op s.wire).1 (event.step op s.wire).2)
  | elsewhere {s s' : NetworkStack} (hstreams : s'.passiveStreams = s.passiveStreams)
      (hwire : Wire.Grows (fun em => em.peer = none) s.wire s'.wire) : Micro s s'

/-- A call that attaches a stream to a free slot, for a peer no other stream
has. -/
structure Attaches (s : NetworkStack) (peer : TcpServerPeer) (early : EarlyStreamData) (tick : Nat)
    (index : Fin passiveTcpStreamSlots) : Prop where
  free : s.passiveStreams index = none
  fresh : ∀ slot op, s.passiveStreams slot = some op → op.tuple ≠ peerTuple peer
  fits : early.bytes.length ≤ passiveTcpStreamBufferCapacity

theorem control_peer : ControlCovers fun em => em.peer = none :=
  fun _ _ _ _ _ _ _ => rfl

namespace NetworkStack

section

variable (s : NetworkStack)

/-- `start_tcp_passive_stream` attaches a stream or changes nothing. -/
theorem startTcpPassiveStream_cases (peer : TcpServerPeer) (early : EarlyStreamData) (tick : Nat) :
    s.startTcpPassiveStream peer early tick = (s, false)
    ∨ ∃ index, Attaches s peer early tick index
      ∧ s.startTcpPassiveStream peer early tick
        = (s.putStream index (some (streamOperation peer early tick)) s.wire, true) := by
  unfold startTcpPassiveStream
  split
  · exact .inl rfl
  rename_i hready
  split
  · exact .inl rfl
  rename_i index hfree
  simp only [not_or, Nat.not_lt, Bool.not_eq_true, Option.isSome_eq_false_iff,
    Option.isNone_iff_eq_none] at hready
  obtain ⟨-, -, -, hfits, hnone⟩ := hready
  refine .inr ⟨index, ⟨Slots.firstFree_some hfree, fun slot op hop htuple => ?_, hfits⟩, rfl⟩
  have hother := Slots.position_none hnone hop
  simp [htuple] at hother

theorem handleStreamSegment_micros (index : Fin passiveTcpStreamSlots) (segment : PassiveSegment)
    (tick : Nat) : ReflTransGen Micro s (s.handleStreamSegment index segment tick) := by
  unfold handleStreamSegment
  split
  · exact .refl
  · rename_i op hop
    exact .single (.stream index op (.arrival segment tick) hop)

theorem handleHandshakeSegment_micros (index : Fin passiveTcpHandshakeSlots)
    (segment : PassiveSegment) (tick : Nat) :
    ReflTransGen Micro s (s.handleHandshakeSegment index segment tick) := by
  unfold handleHandshakeSegment
  split
  · exact .refl
  rename_i op hop
  exact .single (.elsewhere rfl
    (op.handleSegment_grows control_peer s.wire segment tick (fun _ => rfl)))

theorem pumpPassiveRx_micros (arrival : Option PassiveSegment) (tick : Nat) :
    ReflTransGen Micro s (s.pumpPassiveRx arrival tick) := by
  unfold pumpPassiveRx
  split
  · exact .refl
  rename_i segment
  split
  · unfold routePassiveSegment
    split
    · exact s.handleStreamSegment_micros _ segment tick
    split
    · exact s.handleHandshakeSegment_micros _ segment tick
    · obtain ⟨hstreams, hwire⟩ := s.noteSyn_spec segment
      exact .single (.elsewhere hstreams (by rw [hwire]))
  · exact .refl

end

theorem pollStreams_micros (tick : Nat) (offsets : List (Fin passiveTcpStreamSlots)) :
    ∀ (s : NetworkStack) (anyActive : Bool),
      ReflTransGen Micro s (s.pollStreams tick anyActive offsets).1 := by
  induction offsets with
  | nil => exact fun s anyActive => .refl
  | cons offset rest ih =>
    intro s anyActive
    unfold pollStreams
    dsimp only
    split
    · exact ih s anyActive
    rename_i op hop
    have hstep := Micro.stream (s.passiveStreamCursor + offset) op (.poll tick) hop
    simp only [StreamEvent.step] at hstep
    split
    · rename_i hpoll
      rw [hpoll] at hstep
      exact (ReflTransGen.single hstep).tail (.elsewhere rfl (Wire.Grows.refl _))
    · rename_i hpoll
      rw [hpoll] at hstep
      exact ReflTransGen.head hstep (ih _ true)

theorem withStream_micros (s : NetworkStack) (peer : TcpServerPeer)
    {step : PassiveTcpStreamOperation → Option (PassiveTcpStreamOperation × Wire × Bool)}
    (event : StreamEvent)
    (hstep : ∀ op changed wire result, step op = some (changed, wire, result) →
      event.step op s.wire = (some changed, wire)) :
    ReflTransGen Micro s (s.withStream peer step).1 := by
  unfold withStream
  split
  · exact .refl
  split
  · exact .refl
  rename_i index _ _ op hop
  split
  · exact .refl
  rename_i changed wire result hresult
  have hmicro := Micro.stream index op event hop
  rw [hstep op changed wire result hresult] at hmicro
  exact .single hmicro

end NetworkStack

/-- **Every call is a sequence of events**, or attaches a stream. -/
theorem NetCall.micros (s : NetworkStack) (call : NetCall) :
    ReflTransGen Micro s (call.apply s)
    ∨ ∃ peer early tick index, call = .startTcpPassiveStream peer early tick
      ∧ Attaches s peer early tick index
      ∧ call.apply s
        = s.putStream index (some (streamOperation peer early tick)) s.wire := by
  cases call with
  | pollTcpPassive arrival tick =>
    refine .inl ?_
    show ReflTransGen Micro s (s.pollTcpPassive arrival tick).1
    unfold NetworkStack.pollTcpPassive
    split
    · exact .refl
    have hpump := s.pumpPassiveRx_micros arrival tick
    have hpoll := pollHandshakes_spec control_peer tick
      (List.finRange passiveTcpHandshakeSlots) (s.pumpPassiveRx arrival tick) false
    split
    · rename_i s' _ _ hresult
      rw [hresult] at hpoll
      exact hpump.tail (.elsewhere hpoll.1 hpoll.2)
    · rename_i s' anyActive hresult
      rw [hresult] at hpoll
      obtain ⟨hstreams, hwire⟩ := s'.takeSyn_spec
      have htaken : ReflTransGen Micro s s'.takeSyn.1 :=
        (hpump.tail (.elsewhere hpoll.1 hpoll.2)).tail (.elsewhere hstreams (by rw [hwire]))
      split
      all_goals
        rename_i hsyn
        rw [hsyn] at htaken
        exact htaken
  | pollTcpPassiveStream arrival tick =>
    exact .inl ((s.pumpPassiveRx_micros arrival tick).trans
      (pollStreams_micros tick _ _ false))
  | startTcpPassive syn tick =>
    refine .inl ?_
    show ReflTransGen Micro s (s.startTcpPassive syn tick).1
    unfold NetworkStack.startTcpPassive
    split
    · exact .refl
    split
    · exact .refl
    split
    · exact .refl
    have hsyn : Wire.Grows (fun em => em.peer = none) s.wire
        ((handshakeOperation syn tick).sendPassiveSynAck s.wire).1 :=
      Wire.sendTcpWithWindow_grows rfl
    dsimp only
    split
    all_goals
      rename_i hsent
      rw [hsent] at hsyn
      exact .single (.elsewhere rfl hsyn)
  | rejectTcpSyn syn | rejectTcpPeer peer =>
    exact .inl (.single (.elsewhere rfl (Wire.sendTcpWithWindow_grows rfl)))
  | cancelTcpPassive failure =>
    refine .inl ?_
    show ReflTransGen Micro s (s.cancelTcpPassive failure)
    unfold NetworkStack.cancelTcpPassive
    split
    · exact .refl
    split
    · exact .refl
    · exact .single (.elsewhere rfl (Wire.sendTcpWithWindow_grows rfl))
  | startTcpPassiveStream peer early tick =>
    rcases s.startTcpPassiveStream_cases peer early tick with h | ⟨index, hattaches, h⟩
    · refine .inl ?_
      show ReflTransGen Micro s (s.startTcpPassiveStream peer early tick).1
      rw [h]
    · exact .inr ⟨peer, early, tick, index, rfl, hattaches, congrArg Prod.fst h⟩
  | startTcpPassiveStreamSend peer bytes tick =>
    refine .inl (s.withStream_micros peer (.startSend bytes tick) ?_)
    intro op changed wire result h
    simp only [StreamEvent.step, h]
  | consumeTcpPassiveStreamReceive peer =>
    refine .inl (s.withStream_micros peer .consumeReceive ?_)
    intro op changed wire result h
    obtain ⟨consumed, hconsumed, heq⟩ := Option.map_eq_some_iff.mp h
    simp only [StreamEvent.step, hconsumed]
    cases heq
    rfl
  | consumeTcpPassiveStreamSend peer =>
    refine .inl (s.withStream_micros peer .consumeSend ?_)
    intro op changed wire result h
    obtain ⟨consumed, hconsumed, heq⟩ := Option.map_eq_some_iff.mp h
    cases heq
    simp only [StreamEvent.step, hconsumed, Option.getD_some]
  | consumeTcpPassivePeerClose peer =>
    refine .inl (s.withStream_micros peer .consumePeerClose ?_)
    intro op changed wire result h
    obtain ⟨consumed, hconsumed, heq⟩ := Option.map_eq_some_iff.mp h
    cases heq
    simp only [StreamEvent.step, hconsumed, Option.getD_some]
  | startTcpPassiveStreamClose peer tick =>
    refine .inl (s.withStream_micros peer (.startClose tick) ?_)
    intro op changed wire result h
    simp only [StreamEvent.step, h]
  | finishTcpPassiveStream peer =>
    refine .inl ?_
    show ReflTransGen Micro s (s.finishTcpPassiveStream peer).1
    unfold NetworkStack.finishTcpPassiveStream
    split
    · exact .refl
    rename_i index hslot
    obtain ⟨op, hop, -⟩ := Slots.position_some hslot
    exact .single (.stream index op .finish hop)
  | cancelTcpPassiveStream peer =>
    refine .inl ?_
    show ReflTransGen Micro s (s.cancelTcpPassiveStream peer)
    unfold NetworkStack.cancelTcpPassiveStream
    split
    · exact .refl
    split
    · exact .refl
    · rename_i index _ _ op hop
      exact .single (.stream index op .cancel hop)
  | asyncRequests udp tcp => exact .inl (.single (.elsewhere rfl (Wire.Grows.refl _)))

/-- **Induction over the reachable stacks.** -/
theorem NetworkStack.Reachable.induct {I : NetworkStack → Prop}
    (hnew : ∀ available accepts, I (.new available accepts))
    (hmicro : ∀ s s', I s → Micro s s' → I s')
    (hattach : ∀ s peer early tick index, I s → Attaches s peer early tick index →
      I (s.putStream index (some (streamOperation peer early tick)) s.wire))
    {s : NetworkStack} (h : s.Reachable) : I s := by
  obtain ⟨available, accepts, calls, rfl⟩ := h
  have hrun : ∀ s, I s → I (s.run calls) := by
    induction calls with
    | nil => exact fun s hs => hs
    | cons call calls ih =>
      intro s hs
      refine ih (call.apply s) ?_
      rcases call.micros s with hmicros | ⟨peer, early, tick, index, -, hattaches, heq⟩
      · generalize call.apply s = s' at hmicros
        induction hmicros with
        | refl => exact hs
        | tail _ hstep ih => exact hmicro _ _ ih hstep
      · rw [heq]
        exact hattach s peer early tick index hs hattaches
  exact hrun _ (hnew available accepts)

end GenOS.Network
