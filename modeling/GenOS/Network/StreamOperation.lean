/-
  GenOS.Network.StreamOperation — one attached stream.

  Every function of `network.rs` that works on a stream slot copies the record
  out, changes the copy, sends segments and stores the copy.  Here it is a
  function of the record and the wire.

  `handle_stream_segment` has four parts: resets, SYNs, the acknowledgment with
  the window update (`acceptAcknowledgment`), and the guards and buffers for
  payload and FIN (`acceptPayload`, `store`, `takeFin`).  The body of the loop of
  `poll_tcp_passive_stream` is `poll`.
-/
import GenOS.Network.PassiveTcp

namespace GenOS.Network

open GenOS.Lib GenOS.Socket
open GenOS.Ipv6 (saturatingAdd)

/-- `value.clamp(low, high)`. -/
def clamp (value low high : Nat) : Nat := min (max value low) high

namespace PassiveTcpStreamOperation

variable (operation : PassiveTcpStreamOperation)

/-! ## §1. Sending. -/

variable (wire : Wire) (acknowledgment : BitVec 32) (segment : PassiveSegment) (tick : Nat)

/-- `send_tcp_with_window` with the addresses, the acknowledgment and the
receive window of the stream. -/
def sendSegment (sequence : BitVec 32) (flags : BitVec 8) (payload : Bytes) : Wire × Bool :=
  wire.sendTcpWithWindow (.stream operation) operation.peer.sourceMac operation.peer.target
    operation.peer.localPort operation.peer.remotePort sequence operation.remoteSequence flags
    payload (receiveWindow operation)

/-- `send_stream_ack`. -/
def sendStreamAck : Wire × Bool :=
  operation.sendSegment wire operation.localSequence 0x10 []

/-- The reset that ends a stream. -/
def sendReset : Wire × Bool :=
  wire.sendTcp (.stream operation) operation.peer.sourceMac operation.peer.target
    operation.peer.localPort operation.peer.remotePort operation.localSequence
    operation.remoteSequence 0x14 []

/-- `fin_sent && !fin_acked`. -/
def finOutstanding : Bool := operation.finSent && !operation.finAcked

/-- `refresh_stream_idle`. -/
def refreshStreamIdle : PassiveTcpStreamOperation :=
  if operation.sendFlight = 0 ∧ operation.finOutstanding = false then
    { operation with deadline := saturatingAdd tick passiveTcpStreamIdleTicks }
  else operation

/-! ## §2. `handle_stream_segment`: resets and SYNs. -/

/-- A segment with RST. -/
def handleReset : PassiveTcpStreamOperation × Wire :=
  if segment.sequence = operation.remoteSequence then ({ operation with reset := true }, wire)
  else if sequenceInWindow segment.sequence operation.remoteSequence (receiveWindow operation)
      ∧ operation.challengeAckTick ≠ some tick then
    ({ operation with challengeAckTick := some tick }, (operation.sendStreamAck wire).1)
  else (operation, wire)

/-- A segment with SYN. -/
def handleSyn : PassiveTcpStreamOperation × Wire :=
  if operation.challengeAckTick ≠ some tick then
    ({ operation with challengeAckTick := some tick }, (operation.sendStreamAck wire).1)
  else (operation, wire)

/-! ## §3. `handle_stream_segment`: the acknowledgment. -/

/-- The congestion window after an acknowledged flight.  The saturation of the
additions is above the maximum. -/
def grownCwnd : Nat :=
  let additiveStep := max (passiveTcpMss * passiveTcpMss / max operation.congestionWindow 1) 1
  min (if operation.congestionWindow < operation.slowStartThreshold then
      operation.congestionWindow + passiveTcpMss
    else operation.congestionWindow + additiveStep) passiveTcpMaxCwnd

/-- The timeout after an acknowledged flight: an acknowledgment after a
retransmission is no sample.  The saturation of the products is above the upper
clamp. -/
def sampledRto : Nat :=
  let sample := max (tick - operation.sentAt) 1
  if operation.attempts = 1 then
    clamp ((operation.rtoTicks * 3 + sample * 2) / 4) 4 (passiveTcpRetryTicks * 2)
  else operation.rtoTicks

/-- The flight was acknowledged. -/
def flightAcked : PassiveTcpStreamOperation :=
  { operation with
    rtoTicks := operation.sampledRto tick
    localSequence := acknowledgment
    streamSentBytes := saturatingAdd operation.streamSentBytes operation.sendFlight
    congestionWindow := operation.grownCwnd
    send := operation.send.drop operation.sendFlight
    sendFlight := 0
    sendCompleted := (operation.send.drop operation.sendFlight).isEmpty
    attempts := 0 : PassiveTcpStreamOperation }.refreshStreamIdle tick

/-- The FIN was acknowledged. -/
def finAckReceived : PassiveTcpStreamOperation :=
  { operation with
    localSequence := acknowledgment
    finAcked := true
    attempts := 0 : PassiveTcpStreamOperation }.refreshStreamIdle tick

/-- What the acknowledgment number says, and whether it is a valid one. -/
def matchAcknowledgment : PassiveTcpStreamOperation × Bool :=
  if acknowledgment = operation.localSequence then (operation, true)
  else if operation.sendFlight ≠ 0
      ∧ acknowledgment = operation.localSequence + BitVec.ofNat 32 operation.sendFlight then
    (operation.flightAcked acknowledgment tick, true)
  else if operation.finOutstanding ∧ acknowledgment = operation.localSequence + 1 then
    (operation.finAckReceived acknowledgment tick, true)
  else (operation, false)

/-- The window of the peer, if the segment is not an older one. -/
def updateWindow : PassiveTcpStreamOperation :=
  if sequenceAfter segment.sequence operation.windowSequence
      ∨ (segment.sequence = operation.windowSequence
        ∧ sequenceAfter operation.windowAcknowledgment segment.acknowledgment = false) then
    { operation with
      peerWindow := segment.window
      windowSequence := segment.sequence
      windowAcknowledgment := segment.acknowledgment }
  else operation

/-- The sequence number lies in the receive window. -/
def sequenceValid : Bool :=
  sequenceInWindow segment.sequence operation.remoteSequence (receiveWindow operation)

/-- The acknowledgment part, with `acknowledgment_valid`. -/
def acceptAcknowledgment : PassiveTcpStreamOperation × Bool :=
  if segment.ack ∧ operation.sequenceValid segment then
    match operation.matchAcknowledgment segment.acknowledgment tick with
    | (matched, true) => (matched.updateWindow segment, true)
    | (matched, false) => (matched, false)
  else (operation, false)

/-! ## §4. `handle_stream_segment`: payload and FIN. -/

/-- The peer's FIN was accepted, or will be when the deferred segment is
delivered. -/
def finished : Bool :=
  operation.peerFin || operation.deferred.any fun d => d.acknowledged && d.fin

/-- The segment starts at the next byte and reaches into the deferred one. -/
def overlapsDeferred : Bool :=
  operation.deferred.any fun d =>
    !d.acknowledged && segment.sequence == operation.remoteSequence
      && (d.sequence - operation.remoteSequence).toNat < segment.len32.toNat

/-- The first receive buffer takes the payload. -/
def storeReceive : PassiveTcpStreamOperation :=
  let stored := { operation with
    receive := segment.payload
    streamReceivedBytes := saturatingAdd operation.streamReceivedBytes segment.len
    remoteSequence := operation.remoteSequence + segment.len32 : PassiveTcpStreamOperation
    }.refreshStreamIdle tick
  match stored.deferred with
  | some d =>
    if d.sequence = stored.remoteSequence then
      { stored with
        remoteSequence := stored.remoteSequence + BitVec.ofNat 32 d.bytes.length + oneIf d.fin
        deferred := some { d with acknowledged := true } }
    else stored
  | none => stored

/-- The deferred slot takes the payload.  It is acknowledged if it follows the
bytes of the first buffer. -/
def storeDeferred : PassiveTcpStreamOperation :=
  { operation with
    deferred := some ⟨segment.sequence, segment.payload, segment.fin,
      segment.sequence = operation.remoteSequence⟩
    streamReceivedBytes := saturatingAdd operation.streamReceivedBytes segment.len
    remoteSequence :=
      if segment.sequence = operation.remoteSequence then
        operation.remoteSequence + segment.len32 + oneIf segment.fin
      else operation.remoteSequence : PassiveTcpStreamOperation }.refreshStreamIdle tick

/-- The segment fits into the window and the deferred slot is free.  The
saturation of the sum is above every window. -/
def defers : Bool :=
  operation.deferred.isNone
    && (segment.sequence - operation.remoteSequence).toNat + segment.len
      + (oneIf segment.fin).toNat ≤ (receiveWindow operation).toNat

/-- The payload goes into a buffer, if there is one for it; with
`deferred_fin`. -/
def store : PassiveTcpStreamOperation × Bool :=
  if segment.sequence = operation.remoteSequence ∧ operation.receive = [] then
    (operation.storeReceive segment tick, false)
  else if operation.defers segment then (operation.storeDeferred segment tick, segment.fin)
  else (operation, false)

/-- A FIN that was not deferred is accepted if it is the next one. -/
def takeFin : PassiveTcpStreamOperation :=
  if segment.sequence + segment.len32 = operation.remoteSequence then
    { operation with
      remoteSequence := operation.remoteSequence + 1
      peerFin := true
      peerFinPending := true : PassiveTcpStreamOperation }.refreshStreamIdle tick
  else operation

/-- The record after payload and FIN, and whether to acknowledge. -/
def accept : PassiveTcpStreamOperation × Bool :=
  let (stored, deferredFin) :=
    if segment.len ≠ 0 then operation.store segment tick else (operation, false)
  if segment.fin ∧ deferredFin = false then (stored.takeFin segment tick, true)
  else (stored, segment.len ≠ 0)

/-- The acknowledgment of what was accepted; a stream whose acknowledgment the
device refuses fails. -/
def acknowledge : PassiveTcpStreamOperation × Wire :=
  ({ operation with failed := operation.failed || !(operation.sendStreamAck wire).2 },
    (operation.sendStreamAck wire).1)

/-- The part after the acknowledgment. -/
def acceptPayload (acknowledgmentValid : Bool) (tick : Nat) : PassiveTcpStreamOperation × Wire :=
  if segment.carries ∧ acknowledgmentValid = false then
    (operation, (operation.sendStreamAck wire).1)
  else if operation.finished ∧ segment.carries then
    (operation, (operation.sendStreamAck wire).1)
  else if passiveTcpStreamBufferCapacity < segment.len then
    ({ operation with failed := true }, (operation.sendReset wire).1)
  else if receiveWindow operation = 0 ∧ segment.carries then
    (operation, (operation.sendStreamAck wire).1)
  else if segment.len ≠ 0 ∧ operation.overlapsDeferred segment then
    (operation, (operation.sendStreamAck wire).1)
  else
    match operation.accept segment tick with
    | (accepted, true) => accepted.acknowledge wire
    | (accepted, false) => (accepted, wire)

/-- `handle_stream_segment` on the record of the slot. -/
def handleSegment : PassiveTcpStreamOperation × Wire :=
  if segment.rst then operation.handleReset wire segment tick
  else if segment.syn then operation.handleSyn wire tick
  else
    let (acknowledged, valid) := operation.acceptAcknowledgment segment tick
    acknowledged.acceptPayload wire segment valid tick

/-! ## §5. Transmission. -/

/-- The length of the next flight. -/
def flightLen : Nat :=
  min (min operation.send.length operation.peerWindow.toNat) operation.congestionWindow

/-- The record with its next flight on the way. -/
def launched : PassiveTcpStreamOperation :=
  { operation with
    sendFlight := operation.flightLen
    attempts := 1
    sentAt := tick
    deadline := saturatingAdd tick operation.rtoTicks }

/-- `transmit_stream_flight`. -/
def transmitStreamFlight : PassiveTcpStreamOperation × Wire × Bool :=
  if operation.flightLen = 0 ∨ operation.sendFlight ≠ 0 then (operation, wire, false)
  else
    (operation.launched tick, (operation.launched tick).sendSegment wire operation.localSequence 0x18
      (operation.send.take operation.flightLen))

/-- A transmission that the device refuses fails the stream. -/
def transmitOrFail : PassiveTcpStreamOperation × Wire × Bool :=
  let (flown, wire', sent) := operation.transmitStreamFlight wire tick
  ({ flown with failed := flown.failed || !sent }, wire', sent)

/-- The record with the bytes of a send. -/
def queued (bytes : Bytes) (tick : Nat) : PassiveTcpStreamOperation :=
  { operation with
    send := bytes
    deadline := saturatingAdd tick passiveTcpStreamIdleTicks
    persistDeadline := saturatingAdd tick operation.rtoTicks
    persistAttempts := 0 }

/-- `start_tcp_passive_stream_send` on the record; `none` if it is refused. -/
def startSend (bytes : Bytes) (tick : Nat) : Option (PassiveTcpStreamOperation × Wire × Bool) :=
  if bytes = [] ∨ passiveTcpStreamBufferCapacity < bytes.length
      ∨ operation.congestionWindow < bytes.length ∨ operation.send ≠ []
      ∨ operation.sendCompleted ∨ operation.finSent then none
  else if operation.peerWindow = 0 then some (operation.queued bytes tick, wire, true)
  else some ((operation.queued bytes tick).transmitOrFail wire tick)

/-- The record without the bytes of the first buffer; an acknowledged deferred
segment moves up. -/
def consumed : PassiveTcpStreamOperation :=
  match operation.deferred.filter (fun d => d.acknowledged) with
  | some d =>
    { operation with
      deferred := none
      receive := d.bytes
      peerFin := operation.peerFin || d.fin
      peerFinPending := operation.peerFinPending || d.fin }
  | none => { operation with receive := [] }

/-- `consume_tcp_passive_stream_receive` on the record. -/
def consumeReceive : Option (PassiveTcpStreamOperation × Wire) :=
  if operation.receive = [] then none
  else some (operation.consumed, (operation.consumed.sendStreamAck wire).1)

/-- `consume_tcp_passive_stream_send` on the record. -/
def consumeSend : Option PassiveTcpStreamOperation :=
  if operation.sendCompleted then some { operation with sendCompleted := false } else none

/-- `consume_tcp_passive_peer_close` on the record. -/
def consumePeerClose : Option PassiveTcpStreamOperation :=
  if operation.peerFinPending then some { operation with peerFinPending := false } else none

/-- The record with its FIN on the way. -/
def closing : PassiveTcpStreamOperation :=
  { operation with
    finSent := true
    attempts := 1
    deadline := saturatingAdd tick passiveTcpRetryTicks }

/-- The FIN of a close, through `send_tcp`. -/
def sendFin : Wire × Bool :=
  wire.sendTcp (.stream operation) operation.peer.sourceMac operation.peer.target
    operation.peer.localPort operation.peer.remotePort operation.localSequence
    operation.remoteSequence 0x11 []

/-- `start_tcp_passive_stream_close` on the record. -/
def startClose : Option (PassiveTcpStreamOperation × Wire × Bool) :=
  if operation.send ≠ [] ∨ operation.sendCompleted ∨ operation.finSent then none
  else some (operation.closing tick, (operation.closing tick).sendFin wire)

/-! ## §6. The body of the poll loop. -/

/-- The idle stream has expired. -/
def expired : Bool :=
  operation.deadline ≤ tick && operation.sendFlight == 0 && !operation.finOutstanding

/-- A probe of one sequence number that was already consumed. -/
def probe : PassiveTcpStreamOperation × Wire :=
  let (wire', sent) := operation.sendSegment wire (operation.localSequence - 1) 0x10 [0]
  let persistAttempts := min (operation.persistAttempts + 1) retries
  ({ operation with
      failed := operation.failed || !sent
      persistAttempts := persistAttempts
      persistDeadline := saturatingAdd tick
        (min (operation.rtoTicks * 2 ^ persistAttempts) passiveTcpStreamIdleTicks) }, wire')

/-- Queued bytes without a flight: the next flight, or a probe of a zero
window. -/
def resume : PassiveTcpStreamOperation × Wire :=
  if operation.send ≠ [] ∧ operation.sendFlight = 0 then
    if operation.peerWindow ≠ 0 then
      let (flown, wire', _) := operation.transmitOrFail wire tick
      (flown, wire')
    else if operation.persistDeadline ≤ tick then operation.probe wire tick
    else (operation, wire)
  else (operation, wire)

/-- What is outstanding: the flags and the length of its retransmission. -/
def outstanding : Option (BitVec 8 × Nat) :=
  if operation.sendFlight ≠ 0 then some (0x18, operation.sendFlight)
  else if operation.finOutstanding then some (0x11, 0)
  else none

/-- The record after a retransmission. -/
def backedOff : PassiveTcpStreamOperation :=
  let rtoTicks := min (operation.rtoTicks * 2) (passiveTcpRetryTicks * 4)
  { operation with
    slowStartThreshold := clamp (operation.congestionWindow / 2) passiveTcpMss passiveTcpMaxCwnd
    congestionWindow := passiveTcpMss
    attempts := operation.attempts + 1
    sentAt := tick
    rtoTicks := rtoTicks
    deadline := saturatingAdd tick rtoTicks }

/-- The retransmission of what is outstanding; no record if it failed for
good. -/
def retransmit : Option PassiveTcpStreamOperation × Wire :=
  if operation.deadline ≤ tick then
    match operation.outstanding with
    | none => (some operation, wire)
    | some (flags, len) =>
      if retries ≤ operation.attempts then (none, wire)
      else
        match operation.sendSegment wire operation.localSequence flags (operation.send.take len) with
        | (wire', true) => (some (operation.backedOff tick), wire')
        | (wire', false) => (none, wire')
  else (some operation, wire)

/-- What the stream reports, in the order of the source. -/
def report : Option PassiveTcpStreamProgress :=
  if operation.receive ≠ [] then some (.received operation.peer operation.receive)
  else if operation.sendCompleted then some (.sendComplete operation.peer)
  else if operation.peerFin ∧ operation.finSent ∧ operation.finAcked then
    some (.closed operation.peer)
  else if operation.peerFinPending then some (.peerClosed operation.peer)
  else none

/-- One pass over the slot: the record it is left with, the wire, and the
report that ends the loop. -/
def poll : Option PassiveTcpStreamOperation × Wire × Option PassiveTcpStreamProgress :=
  if operation.reset then (none, wire, some (.reset operation.peer))
  else if operation.failed then (none, wire, some (.failed operation.peer))
  else if operation.expired tick then
    (none, (operation.sendReset wire).1, some (.failed operation.peer))
  else
    let (resumed, wire₁) := operation.resume wire tick
    match resumed.retransmit wire₁ tick with
    | (none, wire₂) => (none, wire₂, some (.failed operation.peer))
    | (some kept, wire₂) => (some kept, wire₂, kept.report)

end PassiveTcpStreamOperation

end GenOS.Network
