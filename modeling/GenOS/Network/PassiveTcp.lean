/-
  GenOS.Network.PassiveTcp — the data of the passive TCP service of `network.rs`.

  A connection that a remote host opens lives in a handshake slot until its
  final acknowledgment arrives, and in a stream slot from then on.  A slot holds
  one record (`PassiveTcpOperation`, `PassiveTcpStreamOperation`).

  A buffer `[u8; N]` with its length is the list of the bytes in use.  Ticks and
  byte counters are natural numbers with the saturation of `u64` written out;
  sequence numbers wrap and are bit vectors.

  What is handed to the network device is logged, each segment with the record
  it was built from (`Emission`); whether the device takes a frame is part of the
  environment.
-/
import GenOS.Ipv6.Host
import GenOS.Lib.Slots
import GenOS.Socket.SocketSet

namespace GenOS.Network

open GenOS.Lib GenOS.Socket
open GenOS.Ipv6 (saturatingAdd)

/-! ## §1. Limits. -/

/-- `RETRIES`. -/
def retries : Nat := 3

/-- `PASSIVE_TCP_RETRY_TICKS`. -/
def passiveTcpRetryTicks : Nat := 25

/-- `PASSIVE_TCP_STREAM_IDLE_TICKS`. -/
def passiveTcpStreamIdleTicks : Nat := 200

/-- `PASSIVE_TCP_STREAM_BUFFER_CAPACITY`. -/
def passiveTcpStreamBufferCapacity : Nat := 128

/-- `PASSIVE_TCP_MSS`. -/
def passiveTcpMss : Nat := passiveTcpStreamBufferCapacity

/-- `PASSIVE_TCP_INITIAL_CWND`. -/
def passiveTcpInitialCwnd : Nat := passiveTcpMss * 2

/-- `PASSIVE_TCP_MAX_CWND`. -/
def passiveTcpMaxCwnd : Nat := passiveTcpMss * 8

/-- `PASSIVE_TCP_REORDER_SLOTS`. -/
def passiveTcpReorderSlots : Nat := 1

/-- `PASSIVE_TCP_RECEIVE_CAPACITY`. -/
def passiveTcpReceiveCapacity : Nat :=
  passiveTcpStreamBufferCapacity * (1 + passiveTcpReorderSlots)

/-- `PASSIVE_TCP_HANDSHAKE_SLOTS`. -/
def passiveTcpHandshakeSlots : Nat := 4

/-- `PASSIVE_TCP_STREAM_SLOTS`. -/
def passiveTcpStreamSlots : Nat := 4

/-- The size of a segment buffer. -/
def segmentCapacity : Nat := 1400

/-! ## §2. Records. -/

abbrev Mac := FixedBytes 6

structure PassiveTcpSyn where
  target : BitVec 32
  remotePort : BitVec 16
  localPort : BitVec 16
  remoteSequence : BitVec 32
  sourceMac : Mac
  deriving DecidableEq

/-- `EarlyStreamData`: what a peer sends before its stream slot is attached. -/
structure EarlyStreamData where
  bytes : Bytes
  fin : Bool
  peerWindow : BitVec 16
  deriving DecidableEq

/-- `EarlyStreamData::empty`. -/
def EarlyStreamData.empty : EarlyStreamData := ⟨[], false, 0xffff⟩

structure PassiveTcpOperation where
  target : BitVec 32
  remotePort : BitVec 16
  localPort : BitVec 16
  remoteSequence : BitVec 32
  localSequence : BitVec 32
  sourceMac : Mac
  established : Bool
  failed : Bool
  early : EarlyStreamData
  attempts : Nat
  deadline : Nat
  deriving DecidableEq

structure PassiveTcpFailure where
  target : BitVec 32
  remotePort : BitVec 16
  localPort : BitVec 16
  deriving DecidableEq

/-- `PassiveSegment`: a decoded segment that is addressed to this host. -/
structure PassiveSegment where
  source : BitVec 32
  sourceMac : Mac
  remotePort : BitVec 16
  localPort : BitVec 16
  sequence : BitVec 32
  acknowledgment : BitVec 32
  flags : BitVec 8
  window : BitVec 16
  payload : Bytes
  fits : payload.length ≤ segmentCapacity

namespace PassiveSegment

variable (segment : PassiveSegment)

/-- `flags & 0x01 != 0`. -/
def fin : Bool := segment.flags &&& 0x01 != 0

/-- `flags & 0x02 != 0`. -/
def syn : Bool := segment.flags &&& 0x02 != 0

/-- `flags & 0x04 != 0`. -/
def rst : Bool := segment.flags &&& 0x04 != 0

/-- `flags & 0x10 != 0`. -/
def ack : Bool := segment.flags &&& 0x10 != 0

/-- `segment.len`. -/
def len : Nat := segment.payload.length

/-- `segment.len as u32`. -/
def len32 : BitVec 32 := BitVec.ofNat 32 segment.len

/-- `segment.len != 0 || segment.flags & 0x01 != 0`. -/
def carries : Bool := segment.len != 0 || segment.fin

end PassiveSegment

/-- `u32::from(flag)`. -/
def oneIf (flag : Bool) : BitVec 32 := if flag then 1 else 0

structure DeferredTcpSegment where
  sequence : BitVec 32
  bytes : Bytes
  fin : Bool
  acknowledged : Bool
  deriving DecidableEq

structure PassiveTcpStreamOperation where
  peer : TcpServerPeer
  remoteSequence : BitVec 32
  localSequence : BitVec 32
  receive : Bytes
  deferred : Option DeferredTcpSegment
  send : Bytes
  sendFlight : Nat
  sendCompleted : Bool
  finSent : Bool
  finAcked : Bool
  peerFin : Bool
  peerFinPending : Bool
  reset : Bool
  failed : Bool
  attempts : Nat
  deadline : Nat
  sentAt : Nat
  rtoTicks : Nat
  peerWindow : BitVec 16
  windowSequence : BitVec 32
  windowAcknowledgment : BitVec 32
  persistDeadline : Nat
  persistAttempts : Nat
  challengeAckTick : Option Nat
  congestionWindow : Nat
  slowStartThreshold : Nat
  streamReceivedBytes : Nat
  streamSentBytes : Nat
  deriving DecidableEq

inductive PassiveTcpProgress where
  | idle
  | syn (syn : PassiveTcpSyn)
  | pending
  | established (peer : TcpServerPeer) (early : EarlyStreamData)
  | failed (failure : PassiveTcpFailure)
  deriving DecidableEq

inductive PassiveTcpStreamProgress where
  | idle
  | pending
  | received (peer : TcpServerPeer) (bytes : Bytes)
  | sendComplete (peer : TcpServerPeer)
  | peerClosed (peer : TcpServerPeer)
  | closed (peer : TcpServerPeer)
  | reset (peer : TcpServerPeer)
  | failed (peer : TcpServerPeer)
  deriving DecidableEq

/-! ## §3. Windows and sequence numbers. -/

/-- The length of the deferred segment, if there is one. -/
def deferredLen (deferred : Option DeferredTcpSegment) : Nat :=
  deferred.elim 0 fun d => d.bytes.length

section

variable (operation : PassiveTcpStreamOperation)

/-- The peer bytes a stream holds: `receive_len + deferred.len`. -/
def PassiveTcpStreamOperation.buffered : Nat :=
  operation.receive.length + deferredLen operation.deferred

/-- `receive_window`. -/
def receiveWindow : BitVec 16 :=
  BitVec.ofNat 16 (min (passiveTcpReceiveCapacity - operation.buffered) 65535)

theorem receiveWindow_toNat :
    (receiveWindow operation).toNat = passiveTcpReceiveCapacity - operation.buffered := by
  have hcapacity : passiveTcpReceiveCapacity = 256 := rfl
  rw [receiveWindow, BitVec.toNat_ofNat, hcapacity]
  omega

end

/-- `sequence_after`. -/
def sequenceAfter (value reference : BitVec 32) : Bool := 0 < (value - reference).toInt

/-- `sequence_in_window`. -/
def sequenceInWindow (sequence next : BitVec 32) (window : BitVec 16) : Bool :=
  (sequence - next).toNat < max window.toNat 1

/-! ## §4. What is handed to the device. -/

/-- A TCP segment as `send_tcp_with_window` builds it. -/
structure TcpSegment where
  mac : Mac
  destination : BitVec 32
  sourcePort : BitVec 16
  destinationPort : BitVec 16
  sequence : BitVec 32
  acknowledgment : BitVec 32
  flags : BitVec 8
  payload : Bytes
  window : BitVec 16
  deriving DecidableEq

/-- The record a segment is built from: an attached stream, a handshake slot
that acknowledges early data, or neither (handshakes and resets). -/
inductive Sender where
  | stream (operation : PassiveTcpStreamOperation)
  | early (operation : PassiveTcpOperation)
  | control

structure Emission where
  segment : TcpSegment
  sender : Sender

/-- The device as the service sees it: does it take the next frame, and what it
was handed so far. -/
structure Wire where
  accepts : Nat → Bool
  sent : List Emission

namespace Wire

/-- `device.transmit`. -/
def transmit (wire : Wire) (segment : TcpSegment) (sender : Sender) : Wire × Bool :=
  ({ wire with sent := wire.sent ++ [⟨segment, sender⟩] }, wire.accepts wire.sent.length)

/-- `send_tcp_with_window`. -/
def sendTcpWithWindow (wire : Wire) (sender : Sender) (mac : Mac) (destination : BitVec 32)
    (sourcePort destinationPort : BitVec 16) (sequence acknowledgment : BitVec 32)
    (flags : BitVec 8) (payload : Bytes) (window : BitVec 16) : Wire × Bool :=
  if segmentCapacity < 20 + payload.length then (wire, false)
  else
    wire.transmit ⟨mac, destination, sourcePort, destinationPort, sequence, acknowledgment, flags,
      payload, window⟩ sender

/-- `send_tcp`. -/
def sendTcp (wire : Wire) (sender : Sender) (mac : Mac) (destination : BitVec 32)
    (sourcePort destinationPort : BitVec 16) (sequence acknowledgment : BitVec 32)
    (flags : BitVec 8) (payload : Bytes) : Wire × Bool :=
  wire.sendTcpWithWindow sender mac destination sourcePort destinationPort sequence acknowledgment
    flags payload (BitVec.ofNat 16 passiveTcpReceiveCapacity)

end Wire

end GenOS.Network
