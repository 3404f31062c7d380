/-
  GenOS.Network.AdvertisedWindows — windows against buffer space.

  A stream has two buffers of 128 bytes, and a segment that advertises a window
  should have that many bytes free at this moment.  The segments that go through
  `receive_window` do.  Two go through `send_tcp`, which always advertises all
  256 bytes: the FIN of `start_tcp_passive_stream_close` and the acknowledgment of
  early data.
-/
import GenOS.Network.StreamEvents

namespace GenOS.Network

open GenOS.Lib GenOS.Socket PassiveTcpStreamOperation

/-! ## §1. Backed windows. -/

/-- The peer bytes buffered for the connection of a segment when it is sent. -/
def Sender.buffered : Sender → Nat
  | .stream op => op.buffered
  | .early op => op.early.bytes.length
  | .control => 0

/-- A segment other than a reset advertises no more than is free. -/
def Emission.Backed (em : Emission) : Prop :=
  em.segment.flags &&& 0x04 = 0 →
    em.segment.window.toNat ≤ passiveTcpReceiveCapacity - em.sender.buffered

theorem backed_stream (peer : TcpServerPeer) : Covers Emission.Backed peer where
  segment := fun op _ _ _ _ _ => Nat.le_of_eq (receiveWindow_toNat op)
  reset := fun _ _ hflags => absurd hflags (show (0x14 : BitVec 8) &&& 0x04 ≠ 0 by decide)

theorem backed_control : ControlCovers Emission.Backed :=
  fun _ _ _ _ _ _ _ _ => Nat.le_refl 256

/-- The segments of `send_tcp` are backed while nothing is buffered. -/
theorem full_backed_iff {segment : TcpSegment} {sender : Sender}
    (hflags : segment.flags &&& 0x04 = 0)
    (hwindow : segment.window = BitVec.ofNat 16 passiveTcpReceiveCapacity) :
    Emission.Backed ⟨segment, sender⟩ ↔ sender.buffered = 0 := by
  have hfull : segment.window.toNat = 256 := by rw [hwindow]; rfl
  have hcapacity : passiveTcpReceiveCapacity = 256 := rfl
  constructor
  · intro h
    have hle : segment.window.toNat ≤ passiveTcpReceiveCapacity - sender.buffered := h hflags
    omega
  · intro h _
    show segment.window.toNat ≤ passiveTcpReceiveCapacity - sender.buffered
    omega

/-! ## §2. The calls that advertise too much. -/

/-- `start_tcp_passive_stream_close` is not refused. -/
def PassiveTcpStreamOperation.closable (op : PassiveTcpStreamOperation) : Bool :=
  op.send.isEmpty && !op.sendCompleted && !op.finSent

/-- A handshake slot acknowledges the segment and then holds early bytes. -/
def PassiveTcpOperation.holdsEarly (op : PassiveTcpOperation) (segment : PassiveSegment) : Bool :=
  op.acksEarly segment && (op.admitsPayload segment || !op.early.bytes.isEmpty)

section

variable (s : NetworkStack)

/-- The segment goes to a handshake slot that then holds early bytes. -/
def NetworkStack.acksEarlyBytes (segment : PassiveSegment) : Bool :=
  (s.streamSlotForTuple segment.tuple).isNone
    && (s.handshakeSlotForTuple segment.tuple).any fun index =>
      (s.passiveTcp index).any fun op => op.holdsEarly segment

/-- The segment a poll receives. -/
def NetCall.received : NetCall → Option (PassiveSegment × Nat)
  | .pollTcpPassive arrival tick => if s.available then arrival.map (·, tick) else none
  | .pollTcpPassiveStream arrival tick => if s.available then arrival.map (·, tick) else none
  | _ => none

/-- The call closes a stream that holds peer bytes. -/
def NetCall.closesBuffered : NetCall → Bool
  | .startTcpPassiveStreamClose peer _ =>
    (s.streamSlot peer).any fun index =>
      (s.passiveStreams index).any fun op => op.closable && op.buffered != 0
  | _ => false

/-- The calls that advertise more than is free. -/
def NetCall.overpromises (call : NetCall) : Bool :=
  call.closesBuffered s || (call.received s).any fun (segment, _) => s.acksEarlyBytes segment

end

/-! ## §3. Handshake slots. -/

namespace PassiveTcpOperation

variable (op : PassiveTcpOperation) (segment : PassiveSegment) (tick : Nat)

theorem withEarly_bytes_eq_nil :
    (op.withEarly segment tick).early.bytes = []
      ↔ op.admitsPayload segment = false ∧ op.early.bytes = [] := by
  show (if op.admitsPayload segment then segment.payload else op.early.bytes) = [] ↔ _
  cases hadmits : op.admitsPayload segment with
  | false => simp
  | true =>
    have hlen : segment.payload ≠ [] := by
      intro hnil
      simp [admitsPayload, PassiveSegment.len, hnil] at hadmits
    simpa using hlen

/-- The acknowledgment of early data is backed while there is none. -/
theorem earlyAck_backed_iff :
    (op.withEarly segment tick).earlyAck.Backed
      ↔ op.admitsPayload segment = false ∧ op.early.bytes = [] := by
  rw [← op.withEarly_bytes_eq_nil segment tick]
  exact (full_backed_iff (show (0x10 : BitVec 8) &&& 0x04 = 0 by decide) rfl).trans
    List.length_eq_zero_iff

theorem handleSegment_backed (wire : Wire) (h : op.holdsEarly segment = false) :
    Wire.Grows Emission.Backed wire (op.handleSegment wire segment tick).2 := by
  refine op.handleSegment_grows backed_control wire segment tick (fun hacks => ?_)
  rw [op.earlyAck_backed_iff segment tick]
  simpa [holdsEarly, hacks] using h

/-- A segment that is acknowledged as early data is not a SYN, and not the bare
acknowledgment of the handshake. -/
theorem acksEarly_cases (h : op.acksEarly segment = true) :
    segment.rst = false ∧ ¬ (segment.flags &&& 0x3f = 0x02 ∧ segment.sequence = op.remoteSequence
        ∧ segment.len = 0)
      ∧ op.acknowledges segment = true
      ∧ ¬ (op.established = false ∧ segment.len = 0 ∧ segment.fin = false)
      ∧ (op.admitsPayload segment = true ∨ op.admitsFin segment = true) := by
  simp only [acksEarly, Bool.and_eq_true, Bool.not_eq_true', Bool.or_eq_true] at h
  obtain ⟨⟨hrst, hack⟩, hadmits⟩ := h
  refine ⟨hrst, fun hsyn => ?_, hack, fun hbare => ?_, hadmits⟩
  · have hflags : segment.flags &&& 0x12 = 0x10 := by
      simp only [acknowledges, Bool.and_eq_true, beq_iff_eq] at hack
      exact hack.1.1
    -- the ACK bit is set in one mask and clear in the other
    have hbits : ∀ flags : BitVec 8, flags &&& 0x12 = 0x10 → flags &&& 0x3f ≠ 0x02 := by decide
    exact hbits segment.flags hflags hsyn.1
  · rcases hadmits with h | h
    · simp [admitsPayload, hbare.2.1] at h
    · simp [admitsFin, hbare.2.2] at h

/-- The segment the slot sends then. -/
theorem handleSegment_acksEarly (wire : Wire) (h : op.acksEarly segment = true) :
    (op.handleSegment wire segment tick).2.sent
      = wire.sent ++ [(op.withEarly segment tick).earlyAck] := by
  obtain ⟨hrst, hsyn, hack, hbare, hadmits⟩ := op.acksEarly_cases segment h
  have hsent : ((op.withEarly segment tick).sendEarlyAck wire).1.sent
      = wire.sent ++ [(op.withEarly segment tick).earlyAck] := rfl
  unfold handleSegment
  rw [if_neg (by rw [hrst]; decide), if_neg hsyn, if_neg (by rw [hack]; decide), if_neg hbare,
    if_pos hadmits]
  split
  all_goals
    rename_i hsend
    rw [hsend] at hsent
    exact hsent

end PassiveTcpOperation

/-! ## §4. The stack. -/

namespace NetworkStack

open Wire

variable {P : Emission → Prop}

/-- What a received segment makes the stack send. -/
theorem routePassiveSegment_grows (hstream : ∀ peer, Covers P peer) (s : NetworkStack)
    (segment : PassiveSegment) (tick : Nat)
    (hhandshake : s.streamSlotForTuple segment.tuple = none →
      ∀ index op, s.handshakeSlotForTuple segment.tuple = some index →
        s.passiveTcp index = some op → Grows P s.wire (op.handleSegment s.wire segment tick).2) :
    Grows P s.wire (s.routePassiveSegment segment tick).wire := by
  unfold routePassiveSegment
  split
  · unfold handleStreamSegment
    split
    · exact .refl _
    · rename_i op hop
      exact (hstream op.peer).handleSegment s.wire segment tick
  · rename_i hnone
    split
    · rename_i index hindex
      unfold handleHandshakeSegment
      split
      · exact .refl _
      · rename_i op hop
        exact hhandshake hnone index op hindex hop
    · rw [(s.noteSyn_spec segment).2]

theorem pollStreams_grows (hstream : ∀ peer, Covers P peer) (tick : Nat)
    (offsets : List (Fin passiveTcpStreamSlots)) :
    ∀ (s : NetworkStack) (anyActive : Bool),
      Grows P s.wire (s.pollStreams tick anyActive offsets).1.wire := by
  induction offsets with
  | nil => exact fun s anyActive => .refl _
  | cons offset rest ih =>
    intro s anyActive
    unfold pollStreams
    dsimp only
    split
    · exact ih s anyActive
    rename_i op hop
    have hpoll := (hstream op.peer).sends.poll s.wire tick
    split
    · rename_i hresult
      rw [hresult] at hpoll
      exact hpoll
    · rename_i hresult
      rw [hresult] at hpoll
      exact hpoll.trans (ih _ true)

/-- The part of `poll_tcp_passive` behind the received segment. -/
theorem pollTcpPassive_grows (hcontrol : ControlCovers P) (s : NetworkStack)
    (arrival : Option PassiveSegment) (tick : Nat) (havailable : s.available = true) :
    Grows P (s.pumpPassiveRx arrival tick).wire (s.pollTcpPassive arrival tick).1.wire := by
  have hpoll := (pollHandshakes_spec hcontrol tick (List.finRange passiveTcpHandshakeSlots)
    (s.pumpPassiveRx arrival tick) false).2
  unfold pollTcpPassive
  rw [if_neg (by rw [havailable]; decide)]
  split
  · rename_i hresult
    rw [hresult] at hpoll
    exact hpoll
  · rename_i s' anyActive hresult
    rw [hresult] at hpoll
    have htaken : Grows P (s.pumpPassiveRx arrival tick).wire s'.takeSyn.1.wire := by
      rw [s'.takeSyn_spec.2]
      exact hpoll
    split
    all_goals
      rename_i hsyn
      rw [hsyn] at htaken
      exact htaken

theorem withStream_grows (s : NetworkStack) (peer : TcpServerPeer)
    {step : PassiveTcpStreamOperation → Option (PassiveTcpStreamOperation × Wire × Bool)}
    (hstep : ∀ index op changed wire result, s.streamSlot peer = some index →
      s.passiveStreams index = some op → step op = some (changed, wire, result) →
      Grows P s.wire wire) :
    Grows P s.wire (s.withStream peer step).1.wire := by
  unfold withStream
  split
  · exact .refl _
  rename_i index hindex
  split
  · exact .refl _
  rename_i op hop
  split
  · exact .refl _
  · rename_i changed wire result hresult
    exact hstep index op changed wire result hindex hop hresult

theorem startTcpPassive_grows (hcontrol : ControlCovers P) (s : NetworkStack)
    (syn : PassiveTcpSyn) (tick : Nat) : Grows P s.wire (s.startTcpPassive syn tick).1.wire := by
  unfold startTcpPassive
  split
  · exact .refl _
  split
  · exact .refl _
  split
  · exact .refl _
  have hsyn : Grows P s.wire ((handshakeOperation syn tick).sendPassiveSynAck s.wire).1 :=
    sendTcpWithWindow_grows (hcontrol _ _ _ _ _ _ _)
  dsimp only
  split
  all_goals
    rename_i hsent
    rw [hsent] at hsyn
    exact hsyn

end NetworkStack

open NetworkStack

namespace NetCall

open Wire

theorem pump_grows {P : Emission → Prop} {s : NetworkStack} {arrival : Option PassiveSegment}
    {tick : Nat} (havailable : s.available = true → ∀ segment, arrival = some segment →
      Grows P s.wire (s.routePassiveSegment segment tick).wire) :
    Grows P s.wire (s.pumpPassiveRx arrival tick).wire := by
  unfold pumpPassiveRx
  split
  · exact .refl _
  rename_i segment
  split
  · rename_i h
    exact havailable h segment rfl
  · exact .refl _

/-- **What a call sends**: all segments are those of streams and handshakes, but
for the FIN of a close and the answer to a received segment. -/
theorem grows {P : Emission → Prop} (hstream : ∀ peer, Covers P peer) (hcontrol : ControlCovers P)
    (s : NetworkStack) (call : NetCall)
    (hclose : ∀ peer tick index op, call = .startTcpPassiveStreamClose peer tick →
      s.streamSlot peer = some index → s.passiveStreams index = some op → op.closable = true →
      P ((op.closing tick).fullEmission 0x11))
    (hroute : ∀ segment tick, call.received s = some (segment, tick) →
      Grows P s.wire (s.routePassiveSegment segment tick).wire) :
    Grows P s.wire (call.apply s).wire := by
  cases call with
  | pollTcpPassive arrival tick =>
    by_cases havailable : s.available = true
    · refine (pump_grows fun h segment harrival => ?_).trans
        (s.pollTcpPassive_grows hcontrol arrival tick havailable)
      exact hroute segment tick (by simp [received, h, harrival])
    · show Grows P s.wire (s.pollTcpPassive arrival tick).1.wire
      rw [NetworkStack.pollTcpPassive, if_pos (by simpa using havailable)]
  | pollTcpPassiveStream arrival tick =>
    refine (pump_grows fun h segment harrival => ?_).trans
      (pollStreams_grows hstream tick _ (s.pumpPassiveRx arrival tick) false)
    exact hroute segment tick (by simp [received, h, harrival])
  | startTcpPassive syn tick => exact s.startTcpPassive_grows hcontrol syn tick
  | rejectTcpSyn syn | rejectTcpPeer peer => exact sendTcpWithWindow_grows (hcontrol _ _ _ _ _ _ _)
  | cancelTcpPassive failure =>
    show Grows P s.wire (s.cancelTcpPassive failure).wire
    unfold NetworkStack.cancelTcpPassive
    split
    · exact .refl _
    split
    · exact .refl _
    · exact sendTcpWithWindow_grows (hcontrol _ _ _ _ _ _ _)
  | startTcpPassiveStream peer early tick =>
    show Grows P s.wire (s.startTcpPassiveStream peer early tick).1.wire
    rcases s.startTcpPassiveStream_cases peer early tick with h | ⟨index, -, h⟩
    · rw [h]
    · rw [h]
      exact .refl _
  | startTcpPassiveStreamSend peer bytes tick =>
    exact s.withStream_grows peer fun _ op _ _ _ _ _ h => (hstream op.peer).sends.startSend h
  | consumeTcpPassiveStreamReceive peer =>
    refine s.withStream_grows peer fun _ op changed wire result _ _ h => ?_
    obtain ⟨⟨consumed, wire'⟩, hconsumed, heq⟩ := Option.map_eq_some_iff.mp h
    cases heq
    unfold consumeReceive at hconsumed
    split at hconsumed
    · cases hconsumed
    · cases hconsumed
      exact (hstream op.consumed.peer).sends.sendStreamAck s.wire
  | consumeTcpPassiveStreamSend peer | consumeTcpPassivePeerClose peer =>
    refine s.withStream_grows peer fun _ op changed wire result _ _ h => ?_
    obtain ⟨consumed, -, heq⟩ := Option.map_eq_some_iff.mp h
    cases heq
    exact .refl _
  | startTcpPassiveStreamClose peer tick =>
    refine s.withStream_grows peer fun index op changed wire result hindex hop h => ?_
    unfold startClose at h
    split at h
    · cases h
    rename_i hready
    cases h
    refine sendTcpWithWindow_grows (hclose peer tick index op rfl hindex hop ?_)
    simpa [closable, not_or, and_assoc] using hready
  | finishTcpPassiveStream peer =>
    show Grows P s.wire (s.finishTcpPassiveStream peer).1.wire
    unfold NetworkStack.finishTcpPassiveStream
    split <;> exact .refl _
  | cancelTcpPassiveStream peer =>
    show Grows P s.wire (s.cancelTcpPassiveStream peer).wire
    unfold NetworkStack.cancelTcpPassiveStream
    split
    · exact .refl _
    split
    · exact .refl _
    · rename_i op _
      exact (hstream op.peer).sends.sendReset s.wire
  | asyncRequests udp tcp => exact .refl _

end NetCall

/-! ## §5. When every window is backed. -/

theorem closing_backed_iff (op : PassiveTcpStreamOperation) (tick : Nat) :
    ((op.closing tick).fullEmission 0x11).Backed ↔ op.buffered = 0 :=
  full_backed_iff (show (0x11 : BitVec 8) &&& 0x04 = 0 by decide) rfl

/-- A poll sends the answer to the segment it receives first. -/
theorem NetCall.emitted_of_received {s : NetworkStack} {call : NetCall} {segment : PassiveSegment}
    {tick : Nat} (h : call.received s = some (segment, tick)) {em : Emission}
    (hroute : (s.routePassiveSegment segment tick).wire.sent = s.wire.sent ++ [em]) :
    em ∈ call.emitted s := by
  have hrest : Wire.Grows (fun _ => True) (s.routePassiveSegment segment tick).wire
      (call.apply s).wire := by
    have hall : ∀ peer, Covers (fun _ => True) peer :=
      fun peer => ⟨fun _ _ _ _ _ => trivial, fun _ _ => trivial⟩
    have hpump : ∀ arrival, s.available = true → arrival = some segment →
        s.pumpPassiveRx arrival tick = s.routePassiveSegment segment tick := by
      intro arrival havailable harrival
      simp only [harrival, pumpPassiveRx, havailable, if_true]
    cases call with
    | pollTcpPassive arrival tick' =>
      simp only [received, Option.ite_none_right_eq_some, Option.map_eq_some_iff,
        Prod.mk.injEq] at h
      obtain ⟨havailable, a, harrival, rfl, rfl⟩ := h
      rw [← hpump arrival havailable harrival]
      exact s.pollTcpPassive_grows (fun _ _ _ _ _ _ _ => trivial) arrival _ havailable
    | pollTcpPassiveStream arrival tick' =>
      simp only [received, Option.ite_none_right_eq_some, Option.map_eq_some_iff,
        Prod.mk.injEq] at h
      obtain ⟨havailable, a, harrival, rfl, rfl⟩ := h
      rw [← hpump arrival havailable harrival]
      exact pollStreams_grows hall _ _ (s.pumpPassiveRx arrival _) false
    | _ => cases h
  obtain ⟨-, more, hsent, -⟩ := hrest
  rw [NetCall.emitted, hsent, hroute, List.append_assoc, List.drop_left]
  simp

/-- **When every window is backed by buffer space.**  Whatever the state of the
stack: all segments of a call that are no resets advertise at most the free
bytes of their connection, exactly if the call neither closes a stream that holds
peer bytes nor receives early data into a handshake slot. -/
theorem windows_backed_iff (s : NetworkStack) (call : NetCall) :
    (∀ em ∈ call.emitted s, em.Backed) ↔ call.overpromises s = false := by
  constructor
  · intro hbacked
    by_contra hover
    simp only [Bool.not_eq_false, NetCall.overpromises, Bool.or_eq_true] at hover
    rcases hover with hclose | hearly
    · -- the FIN of the close
      unfold NetCall.closesBuffered at hclose
      split at hclose
      · rename_i peer tick
        obtain ⟨index, hindex, hclose⟩ := (Option.any_eq_true ..).mp hclose
        obtain ⟨op, hop, hclose⟩ := (Option.any_eq_true ..).mp hclose
        simp only [Bool.and_eq_true, bne_iff_ne, ne_eq, PassiveTcpStreamOperation.closable,
          Bool.not_eq_true', List.isEmpty_iff] at hclose
        obtain ⟨⟨⟨hsend, hcompleted⟩, hfin⟩, hbuffered⟩ := hclose
        refine hbuffered ((closing_backed_iff op tick).mp (hbacked _ ?_))
        have hrun : (s.startTcpPassiveStreamClose peer tick).1.wire.sent
            = s.wire.sent ++ [(op.closing tick).fullEmission 0x11] := by
          have hready : ¬ (op.send ≠ [] ∨ op.sendCompleted = true ∨ op.finSent = true) := by
            simp [hsend, hcompleted, hfin]
          have hclosing : op.startClose s.wire tick
              = some (op.closing tick, (op.closing tick).sendFin s.wire) := if_neg hready
          simp only [NetworkStack.startTcpPassiveStreamClose, NetworkStack.withStream, hindex, hop,
            hclosing]
          exact (rfl : ((op.closing tick).sendFin s.wire).1.sent = _)
        show _ ∈ (s.startTcpPassiveStreamClose peer tick).1.wire.sent.drop s.wire.sent.length
        rw [hrun, List.drop_left]
        exact List.mem_singleton.mpr rfl
      · cases hclose
    · -- the acknowledgment of the early data
      obtain ⟨⟨segment, tick⟩, hreceived, hearly⟩ := (Option.any_eq_true ..).mp hearly
      simp only [NetworkStack.acksEarlyBytes, Bool.and_eq_true, Option.isNone_iff_eq_none] at hearly
      obtain ⟨hnone, hslot⟩ := hearly
      obtain ⟨index, hindex, hslot⟩ := (Option.any_eq_true ..).mp hslot
      obtain ⟨op, hop, hholds⟩ := (Option.any_eq_true ..).mp hslot
      simp only [PassiveTcpOperation.holdsEarly, Bool.and_eq_true] at hholds
      have hroute : (s.routePassiveSegment segment tick).wire.sent
          = s.wire.sent ++ [(op.withEarly segment tick).earlyAck] := by
        simp only [NetworkStack.routePassiveSegment, hnone, hindex,
          NetworkStack.handleHandshakeSegment, hop]
        exact op.handleSegment_acksEarly segment tick s.wire hholds.1
      have hem := hbacked _ (NetCall.emitted_of_received hreceived hroute)
      obtain ⟨hpayload, hempty⟩ := (op.earlyAck_backed_iff segment tick).mp hem
      simp [hpayload, hempty] at hholds
  · intro hover
    simp only [NetCall.overpromises, Bool.or_eq_false_iff] at hover
    obtain ⟨hclose, hearly⟩ := hover
    refine Wire.Grows.mem_drop (NetCall.grows backed_stream backed_control s call ?_ ?_)
    · intro peer tick index op hcall hindex hop hready
      subst hcall
      refine (closing_backed_iff op tick).mpr ?_
      simpa [NetCall.closesBuffered, hindex, hop, hready] using hclose
    · intro segment tick hreceived
      rw [hreceived] at hearly
      refine s.routePassiveSegment_grows backed_stream segment tick ?_
      intro hnone index op hindex hop
      refine op.handleSegment_backed segment tick s.wire ?_
      simpa [NetworkStack.acksEarlyBytes, hnone, hindex, hop] using hearly

/-- What a call sends, as flags, window and the bytes that are buffered. -/
def NetCall.windows (s : NetworkStack) (call : NetCall) : List (BitVec 8 × BitVec 16 × Nat) :=
  (call.emitted s).map fun em => (em.segment.flags, em.segment.window, em.sender.buffered)

/-- A connection from `10.0.2.2:5000` to port 80. -/
def sampleSyn : PassiveTcpSyn := ⟨0x0a000202, 5000, 80, 100, FixedBytes.zero⟩

/-- A segment of this connection that acknowledges the handshake. -/
def sampleSegment (sequence : BitVec 32) (flags : BitVec 8) (payload : Bytes)
    (h : payload.length ≤ segmentCapacity) : PassiveSegment where
  source := 0x0a000202
  sourceMac := FixedBytes.zero
  remotePort := 5000
  localPort := 80
  sequence := sequence
  acknowledgment := (NetworkStack.handshakeOperation sampleSyn 0).localSequence + 1
  flags := flags
  window := 1024
  payload := payload
  fits := h

/-- **Two windows that are not backed.**  The final acknowledgment of a handshake
carries one byte; the slot acknowledges it with a window of 256.  The byte is
still unread when the stream is closed; the FIN advertises 256 again. -/
theorem windows_overpromised :
    let ready := (NetworkStack.new true fun _ => true).run [.startTcpPassive sampleSyn 0]
    let receive : NetCall := .pollTcpPassive (some (sampleSegment 101 0x18 [7] (by decide))) 1
    let peer := (NetworkStack.handshakeOperation sampleSyn 0).establishedPeer
    let attached := ready.run [receive, .startTcpPassiveStream peer ⟨[7], false, 1024⟩ 2]
    receive.windows ready = [(0x10, 256, 1)]
      ∧ (ready.pollTcpPassive (some (sampleSegment 101 0x18 [7] (by decide))) 1).2
        = .established peer ⟨[7], false, 1024⟩
      ∧ (NetCall.startTcpPassiveStreamClose peer 3).windows attached = [(0x11, 256, 1)] := by
  decide +kernel

end GenOS.Network
