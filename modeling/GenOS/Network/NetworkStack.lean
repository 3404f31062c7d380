/-
  GenOS.Network.NetworkStack — the passive TCP service of the network stack.

  The part of `NetworkStack` that serves incoming connections: four handshake
  slots, four stream slots behind a rotating cursor, and the SYNs that wait for
  the coordinator.  A poll first takes at most one received segment
  (`pumpPassiveRx`) and hands it to the stream slot or else the handshake slot
  that owns its addresses and ports.

  The segment a poll receives is an input of the model.  Of the other services
  only the two facts the passive one asks for are kept: whether an asynchronous
  UDP or TCP request is running.
-/
import GenOS.Network.StreamOperation

namespace GenOS.Network

open GenOS.Lib GenOS.Socket
open GenOS.Ipv6 (saturatingAdd)

/-! ## §1. The stack. -/

structure NetworkStack where
  available : Bool
  asyncUdp : Bool
  asyncTcp : Bool
  passiveTcp : Slots passiveTcpHandshakeSlots PassiveTcpOperation
  passiveStreams : Slots passiveTcpStreamSlots PassiveTcpStreamOperation
  passiveStreamCursor : Fin passiveTcpStreamSlots
  pendingSyns : Slots passiveTcpHandshakeSlots PassiveTcpSyn
  wire : Wire

/-- The addresses and ports of a segment, a handshake or a stream: the remote
address, the remote port and the local port. -/
structure Tuple where
  target : BitVec 32
  remotePort : BitVec 16
  localPort : BitVec 16
  deriving DecidableEq

def PassiveSegment.tuple (segment : PassiveSegment) : Tuple :=
  ⟨segment.source, segment.remotePort, segment.localPort⟩

def PassiveTcpOperation.tuple (operation : PassiveTcpOperation) : Tuple :=
  ⟨operation.target, operation.remotePort, operation.localPort⟩

def PassiveTcpStreamOperation.tuple (operation : PassiveTcpStreamOperation) : Tuple :=
  ⟨operation.peer.target, operation.peer.remotePort, operation.peer.localPort⟩

def PassiveTcpSyn.tuple (syn : PassiveTcpSyn) : Tuple := ⟨syn.target, syn.remotePort, syn.localPort⟩

/-- The addresses and ports of a peer. -/
def peerTuple (peer : TcpServerPeer) : Tuple := ⟨peer.target, peer.remotePort, peer.localPort⟩

namespace NetworkStack

/-- The stack after initialization, over a device. -/
def new (available : Bool) (accepts : Nat → Bool) : NetworkStack where
  available := available
  asyncUdp := false
  asyncTcp := false
  passiveTcp := Slots.empty
  passiveStreams := Slots.empty
  passiveStreamCursor := ⟨0, by decide⟩
  pendingSyns := Slots.empty
  wire := ⟨accepts, []⟩

section Lookup

variable (s : NetworkStack)

/-- `stream_slot`. -/
def streamSlot (peer : TcpServerPeer) : Option (Fin passiveTcpStreamSlots) :=
  s.passiveStreams.position fun operation => operation.peer = peer

/-- `stream_slot_for_tuple`. -/
def streamSlotForTuple (tuple : Tuple) : Option (Fin passiveTcpStreamSlots) :=
  s.passiveStreams.position fun operation => operation.tuple = tuple

/-- `handshake_slot_for_tuple`. -/
def handshakeSlotForTuple (tuple : Tuple) : Option (Fin passiveTcpHandshakeSlots) :=
  s.passiveTcp.position fun operation => operation.tuple = tuple

end Lookup

/-! ## §2. Handshakes. -/

end NetworkStack

namespace PassiveTcpOperation

variable (operation : PassiveTcpOperation)

variable (wire : Wire) (segment : PassiveSegment) (tick : Nat)

/-- `send_passive_syn_ack`. -/
def sendPassiveSynAck : Wire × Bool :=
  wire.sendTcp .control operation.sourceMac operation.target operation.localPort
    operation.remotePort operation.localSequence (operation.remoteSequence + 1) 0x12 []

/-- The sequence number after the early data. -/
def earlySequence : BitVec 32 :=
  operation.remoteSequence + 1 + BitVec.ofNat 32 operation.early.bytes.length

/-- The final acknowledgment of the handshake, at the next sequence number. -/
def acknowledges : Bool :=
  segment.flags &&& 0x12 == 0x10 && segment.acknowledgment == operation.localSequence + 1
    && segment.sequence == operation.earlySequence

/-- The payload is admitted as early data. -/
def admitsPayload : Bool :=
  segment.len != 0 && operation.early.bytes.isEmpty && !operation.early.fin
    && segment.len ≤ passiveTcpStreamBufferCapacity

/-- The FIN is admitted, alone or behind a payload that is admitted. -/
def admitsFin : Bool :=
  segment.fin && !operation.early.fin && (segment.len == 0 || operation.admitsPayload segment)

/-- The slot after the early data of the segment. -/
def withEarly : PassiveTcpOperation :=
  { operation with
    early := {
      bytes := if operation.admitsPayload segment then segment.payload else operation.early.bytes
      fin := operation.early.fin || operation.admitsFin segment
      peerWindow := segment.window }
    established := true
    deadline := saturatingAdd tick passiveTcpRetryTicks }

/-- The acknowledgment of early data, through `send_tcp`. -/
def sendEarlyAck : Wire × Bool :=
  wire.sendTcp (.early operation) operation.sourceMac operation.target operation.localPort
    operation.remotePort (operation.localSequence + 1)
    (operation.earlySequence + oneIf operation.early.fin) 0x10 []

/-- `handle_handshake_segment` on the record of the slot. -/
def handleSegment : PassiveTcpOperation × Wire :=
  if segment.rst then
    ({ operation with
        failed := operation.failed
          || segment.sequence = operation.earlySequence + oneIf operation.early.fin }, wire)
  else if segment.flags &&& 0x3f = 0x02 ∧ segment.sequence = operation.remoteSequence
      ∧ segment.len = 0 then
    match operation.sendPassiveSynAck wire with
    | (wire', true) =>
      ({ operation with deadline := saturatingAdd tick passiveTcpRetryTicks }, wire')
    | (wire', false) => ({ operation with failed := true }, wire')
  else if operation.acknowledges segment = false then (operation, wire)
  else if operation.established = false ∧ segment.len = 0 ∧ segment.fin = false then
    ({ operation with
        early := { operation.early with peerWindow := segment.window }, established := true }, wire)
  else if operation.admitsPayload segment ∨ operation.admitsFin segment then
    match (operation.withEarly segment tick).sendEarlyAck wire with
    | (wire', true) => (operation.withEarly segment tick, wire')
    | (wire', false) => ({ operation.withEarly segment tick with failed := true }, wire')
  else ({ operation with early := { operation.early with peerWindow := segment.window } }, wire)

/-- The peer of an established handshake. -/
def establishedPeer : TcpServerPeer where
  target := operation.target
  remotePort := operation.remotePort
  localPort := operation.localPort
  remoteSequence := operation.remoteSequence + 1
  localSequence := operation.localSequence + 1
  sourceMac := operation.sourceMac

/-- `handshake_failure`. -/
def handshakeFailure : PassiveTcpFailure :=
  ⟨operation.target, operation.remotePort, operation.localPort⟩

/-- The body of the loop of `poll_tcp_passive`. -/
def poll : Option PassiveTcpOperation × Wire × Option PassiveTcpProgress :=
  if operation.failed then (none, wire, some (.failed operation.handshakeFailure))
  else if operation.established then
    (none, wire, some (.established operation.establishedPeer operation.early))
  else if operation.deadline ≤ tick then
    if retries ≤ operation.attempts then (none, wire, some (.failed operation.handshakeFailure))
    else
      match operation.sendPassiveSynAck wire with
      | (wire', true) =>
        (some { operation with
          attempts := operation.attempts + 1
          deadline := saturatingAdd tick passiveTcpRetryTicks }, wire', none)
      | (wire', false) => (none, wire', some (.failed operation.handshakeFailure))
  else (some operation, wire, none)

end PassiveTcpOperation

namespace NetworkStack

variable (s : NetworkStack)

/-- The record of a handshake slot and the wire after a step on the slot. -/
def putHandshake (index : Fin passiveTcpHandshakeSlots) (operation : Option PassiveTcpOperation)
    (wire : Wire) : NetworkStack :=
  { s with passiveTcp := Function.update s.passiveTcp index operation, wire := wire }

variable (index : Fin passiveTcpStreamSlots) (arrival : Option PassiveSegment) (syn : PassiveTcpSyn)
  (peer : TcpServerPeer) (segment : PassiveSegment) (tick : Nat)

/-- The record of a stream slot and the wire after a step on the slot. -/
def putStream (operation : Option PassiveTcpStreamOperation) (wire : Wire) : NetworkStack :=
  { s with passiveStreams := Function.update s.passiveStreams index operation, wire := wire }

@[simp] theorem putStream_self (operation : Option PassiveTcpStreamOperation) (wire : Wire) :
    (s.putStream index operation wire).passiveStreams index = operation :=
  Function.update_self ..

theorem putStream_of_ne {index slot : Fin passiveTcpStreamSlots} (h : slot ≠ index)
    (operation : Option PassiveTcpStreamOperation) (wire : Wire) :
    (s.putStream index operation wire).passiveStreams slot = s.passiveStreams slot :=
  Function.update_of_ne h ..

/-! ## §3. Received segments. -/

/-- `handle_stream_segment`. -/
def handleStreamSegment : NetworkStack :=
  match s.passiveStreams index with
  | none => s
  | some operation =>
    let (handled, wire) := operation.handleSegment s.wire segment tick
    s.putStream index (some handled) wire

/-- `handle_handshake_segment`. -/
def handleHandshakeSegment (index : Fin passiveTcpHandshakeSlots) (segment : PassiveSegment)
    (tick : Nat) : NetworkStack :=
  match s.passiveTcp index with
  | none => s
  | some operation =>
    let (handled, wire) := operation.handleSegment s.wire segment tick
    s.putHandshake index (some handled) wire

/-- A SYN that no slot owns waits for the coordinator. -/
def noteSyn : NetworkStack :=
  if segment.flags &&& 0x3f = 0x02 ∧ segment.len = 0 ∧ segment.remotePort ≠ 0
      ∧ segment.localPort ≠ 0 then
    let syn : PassiveTcpSyn := ⟨segment.source, segment.remotePort, segment.localPort,
      segment.sequence, segment.sourceMac⟩
    if s.pendingSyns.values.any (fun pending => pending = syn) then s
    else
      match s.pendingSyns.firstFree with
      | none => s
      | some free => { s with pendingSyns := s.pendingSyns.put free syn }
  else s

/-- `route_passive_segment`. -/
def routePassiveSegment : NetworkStack :=
  match s.streamSlotForTuple segment.tuple with
  | some index => s.handleStreamSegment index segment tick
  | none =>
    match s.handshakeSlotForTuple segment.tuple with
    | some index => s.handleHandshakeSegment index segment tick
    | none => s.noteSyn segment

/-- `pump_passive_rx`, with the segment that was received and decoded. -/
def pumpPassiveRx : NetworkStack :=
  match arrival with
  | none => s
  | some segment => if s.available then s.routePassiveSegment segment tick else s

/-! ## §4. `poll_tcp_passive`. -/

/-- The loop over the handshake slots. -/
def pollHandshakes (s : NetworkStack) (tick : Nat) (anyActive : Bool) :
    List (Fin passiveTcpHandshakeSlots) → NetworkStack × Bool × Option PassiveTcpProgress
  | [] => (s, anyActive, none)
  | index :: rest =>
    match s.passiveTcp index with
    | none => pollHandshakes s tick anyActive rest
    | some operation =>
      match operation.poll s.wire tick with
      | (kept, wire, some progress) => (s.putHandshake index kept wire, true, some progress)
      | (kept, wire, none) => pollHandshakes (s.putHandshake index kept wire) tick true rest

/-- The first pending SYN is taken out of its cell. -/
def takeSyn : NetworkStack × Option PassiveTcpSyn :=
  match s.pendingSyns.position (fun _ => true) with
  | none => (s, none)
  | some cell => ({ s with pendingSyns := s.pendingSyns.drop cell }, s.pendingSyns cell)

/-- `poll_tcp_passive`. -/
def pollTcpPassive : NetworkStack × PassiveTcpProgress :=
  if s.available = false then (s, .idle)
  else
    match (s.pumpPassiveRx arrival tick).pollHandshakes tick false
        (List.finRange passiveTcpHandshakeSlots) with
    | (s', _, some progress) => (s', progress)
    | (s', anyActive, none) =>
      match s'.takeSyn with
      | (s'', some syn) => (s'', .syn syn)
      | (s'', none) => (s'', if anyActive then .pending else .idle)

/-- The record `start_tcp_passive` opens a handshake with. -/
def handshakeOperation : PassiveTcpOperation where
  target := syn.target
  remotePort := syn.remotePort
  localPort := syn.localPort
  remoteSequence := syn.remoteSequence
  localSequence :=
    0x90a0b0c0#32 ^^^ syn.target
      ^^^ ((syn.localPort.setWidth 32 <<< 16) ||| syn.remotePort.setWidth 32)
      ^^^ syn.remoteSequence.rotateLeft 13
  sourceMac := syn.sourceMac
  established := false
  failed := false
  early := EarlyStreamData.empty
  attempts := 1
  deadline := saturatingAdd tick passiveTcpRetryTicks

/-- `start_tcp_passive`. -/
def startTcpPassive : NetworkStack × Bool :=
  if s.available = false ∨ s.asyncUdp ∨ s.asyncTcp ∨ syn.target = 0 ∨ syn.remotePort = 0
      ∨ syn.localPort = 0 then (s, false)
  else if (s.streamSlotForTuple syn.tuple).isSome ∨ (s.handshakeSlotForTuple syn.tuple).isSome then
    (s, false)
  else
    match s.passiveTcp.firstFree with
    | none => (s, false)
    | some index =>
      let operation := handshakeOperation syn tick
      match operation.sendPassiveSynAck s.wire with
      | (wire, true) => (s.putHandshake index (some operation) wire, true)
      | (wire, false) => ({ s with wire := wire }, false)

/-- `reject_tcp_syn`. -/
def rejectTcpSyn : NetworkStack :=
  { s with
    wire := (s.wire.sendTcp .control syn.sourceMac syn.target syn.localPort syn.remotePort 0
      (syn.remoteSequence + 1) 0x14 []).1 }

/-- `reject_tcp_peer`. -/
def rejectTcpPeer : NetworkStack :=
  { s with
    wire := (s.wire.sendTcp .control peer.sourceMac peer.target peer.localPort peer.remotePort
      peer.localSequence peer.remoteSequence 0x14 []).1 }

/-- `cancel_tcp_passive`. -/
def cancelTcpPassive (failure : PassiveTcpFailure) : NetworkStack :=
  match s.handshakeSlotForTuple ⟨failure.target, failure.remotePort, failure.localPort⟩ with
  | none => s
  | some index =>
    match s.passiveTcp index with
    | none => s
    | some operation =>
      s.putHandshake index none (s.wire.sendTcp .control operation.sourceMac operation.target
        operation.localPort operation.remotePort (operation.localSequence + 1)
        (operation.remoteSequence + 1) 0x14 []).1

/-! ## §5. Streams. -/

/-- The record `start_tcp_passive_stream` attaches: the early data that the
handshake slot acknowledged is already received. -/
def streamOperation (early : EarlyStreamData) (tick : Nat) :
    PassiveTcpStreamOperation where
  peer := peer
  remoteSequence := peer.remoteSequence + BitVec.ofNat 32 early.bytes.length + oneIf early.fin
  localSequence := peer.localSequence
  receive := early.bytes
  deferred := none
  send := []
  sendFlight := 0
  sendCompleted := false
  finSent := false
  finAcked := false
  peerFin := early.fin
  peerFinPending := early.fin
  reset := false
  failed := false
  attempts := 0
  deadline := saturatingAdd tick passiveTcpStreamIdleTicks
  sentAt := tick
  rtoTicks := passiveTcpRetryTicks
  peerWindow := early.peerWindow
  windowSequence := peer.remoteSequence
  windowAcknowledgment := peer.localSequence
  persistDeadline := saturatingAdd tick passiveTcpRetryTicks
  persistAttempts := 0
  challengeAckTick := none
  congestionWindow := passiveTcpInitialCwnd
  slowStartThreshold := passiveTcpMaxCwnd
  streamReceivedBytes := early.bytes.length
  streamSentBytes := 0

/-- `start_tcp_passive_stream`. -/
def startTcpPassiveStream (early : EarlyStreamData) (tick : Nat) : NetworkStack × Bool :=
  if s.available = false ∨ s.asyncUdp ∨ s.asyncTcp
      ∨ passiveTcpStreamBufferCapacity < early.bytes.length
      ∨ (s.streamSlotForTuple (peerTuple peer)).isSome then (s, false)
  else
    match s.passiveStreams.firstFree with
    | none => (s, false)
    | some index => (s.putStream index (some (streamOperation peer early tick)) s.wire, true)

/-- The loop over the stream slots, from the cursor on.  A report moves the
cursor behind the slot it comes from. -/
def pollStreams (s : NetworkStack) (tick : Nat) (anyActive : Bool) :
    List (Fin passiveTcpStreamSlots) → NetworkStack × PassiveTcpStreamProgress
  | [] => (s, if anyActive then .pending else .idle)
  | offset :: rest =>
    let index := s.passiveStreamCursor + offset
    match s.passiveStreams index with
    | none => pollStreams s tick anyActive rest
    | some operation =>
      match operation.poll s.wire tick with
      | (kept, wire, some progress) =>
        ({ s.putStream index kept wire with passiveStreamCursor := index + ⟨1, by decide⟩ },
          progress)
      | (kept, wire, none) => pollStreams (s.putStream index kept wire) tick true rest

/-- `poll_tcp_passive_stream`. -/
def pollTcpPassiveStream : NetworkStack × PassiveTcpStreamProgress :=
  (s.pumpPassiveRx arrival tick).pollStreams tick false (List.finRange passiveTcpStreamSlots)

/-- An operation on the record of the stream of a peer: the record, the wire and
the result, or nothing if it is refused. -/
def withStream (step : PassiveTcpStreamOperation → Option (PassiveTcpStreamOperation × Wire × Bool))
    : NetworkStack × Bool :=
  match s.streamSlot peer with
  | none => (s, false)
  | some index =>
    match s.passiveStreams index with
    | none => (s, false)
    | some operation =>
      match step operation with
      | none => (s, false)
      | some (changed, wire, result) => (s.putStream index (some changed) wire, result)

/-- `start_tcp_passive_stream_send`. -/
def startTcpPassiveStreamSend (bytes : Bytes) (tick : Nat) : NetworkStack × Bool :=
  s.withStream peer fun operation => operation.startSend s.wire bytes tick

/-- `consume_tcp_passive_stream_receive`. -/
def consumeTcpPassiveStreamReceive : NetworkStack × Bool :=
  s.withStream peer fun operation =>
    (operation.consumeReceive s.wire).map fun (consumed, wire) => (consumed, wire, true)

/-- `consume_tcp_passive_stream_send`. -/
def consumeTcpPassiveStreamSend : NetworkStack × Bool :=
  s.withStream peer fun operation =>
    operation.consumeSend.map fun consumed => (consumed, s.wire, true)

/-- `consume_tcp_passive_peer_close`. -/
def consumeTcpPassivePeerClose : NetworkStack × Bool :=
  s.withStream peer fun operation =>
    operation.consumePeerClose.map fun consumed => (consumed, s.wire, true)

/-- `start_tcp_passive_stream_close`. -/
def startTcpPassiveStreamClose : NetworkStack × Bool :=
  s.withStream peer fun operation => operation.startClose s.wire tick

/-- `finish_tcp_passive_stream`. -/
def finishTcpPassiveStream : NetworkStack × Bool :=
  match s.streamSlot peer with
  | none => (s, false)
  | some index => (s.putStream index none s.wire, true)

/-- `cancel_tcp_passive_stream`. -/
def cancelTcpPassiveStream : NetworkStack :=
  match s.streamSlot peer with
  | none => s
  | some index =>
    match s.passiveStreams index with
    | none => s
    | some operation => s.putStream index none (operation.sendReset s.wire).1

end NetworkStack

end GenOS.Network
