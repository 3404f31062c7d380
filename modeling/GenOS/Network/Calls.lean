/-
  GenOS.Network.Calls — the calls of the passive service and what they send.

  The functions the coordinator calls, as one type (`NetCall`).  A call only ever
  appends to the log of the wire; `Wire.Grows` says so together with a property
  of everything that was appended, and is proved once for each function that
  sends.
-/
import GenOS.Network.NetworkStack

namespace GenOS.Network

open GenOS.Lib GenOS.Socket
open GenOS.Ipv6 (saturatingAdd)

/-! ## §1. Calls. -/

/-- A call of the coordinator; a poll comes with the segment it receives.  The
last one stands for the start or the end of asynchronous requests. -/
inductive NetCall where
  | pollTcpPassive (arrival : Option PassiveSegment) (tick : Nat)
  | pollTcpPassiveStream (arrival : Option PassiveSegment) (tick : Nat)
  | startTcpPassive (syn : PassiveTcpSyn) (tick : Nat)
  | rejectTcpSyn (syn : PassiveTcpSyn)
  | rejectTcpPeer (peer : TcpServerPeer)
  | cancelTcpPassive (failure : PassiveTcpFailure)
  | startTcpPassiveStream (peer : TcpServerPeer) (early : EarlyStreamData) (tick : Nat)
  | startTcpPassiveStreamSend (peer : TcpServerPeer) (bytes : Bytes) (tick : Nat)
  | consumeTcpPassiveStreamReceive (peer : TcpServerPeer)
  | consumeTcpPassiveStreamSend (peer : TcpServerPeer)
  | consumeTcpPassivePeerClose (peer : TcpServerPeer)
  | startTcpPassiveStreamClose (peer : TcpServerPeer) (tick : Nat)
  | finishTcpPassiveStream (peer : TcpServerPeer)
  | cancelTcpPassiveStream (peer : TcpServerPeer)
  | asyncRequests (udp tcp : Bool)

namespace NetCall

/-- The stack after the call. -/
def apply (s : NetworkStack) : NetCall → NetworkStack
  | pollTcpPassive arrival tick => (s.pollTcpPassive arrival tick).1
  | pollTcpPassiveStream arrival tick => (s.pollTcpPassiveStream arrival tick).1
  | startTcpPassive syn tick => (s.startTcpPassive syn tick).1
  | rejectTcpSyn syn => s.rejectTcpSyn syn
  | rejectTcpPeer peer => s.rejectTcpPeer peer
  | cancelTcpPassive failure => s.cancelTcpPassive failure
  | startTcpPassiveStream peer early tick => (s.startTcpPassiveStream peer early tick).1
  | startTcpPassiveStreamSend peer bytes tick => (s.startTcpPassiveStreamSend peer bytes tick).1
  | consumeTcpPassiveStreamReceive peer => (s.consumeTcpPassiveStreamReceive peer).1
  | consumeTcpPassiveStreamSend peer => (s.consumeTcpPassiveStreamSend peer).1
  | consumeTcpPassivePeerClose peer => (s.consumeTcpPassivePeerClose peer).1
  | startTcpPassiveStreamClose peer tick => (s.startTcpPassiveStreamClose peer tick).1
  | finishTcpPassiveStream peer => (s.finishTcpPassiveStream peer).1
  | cancelTcpPassiveStream peer => s.cancelTcpPassiveStream peer
  | asyncRequests udp tcp => { s with asyncUdp := udp, asyncTcp := tcp }

/-- The segments the call hands to the device. -/
def emitted (s : NetworkStack) (call : NetCall) : List Emission :=
  (call.apply s).wire.sent.drop s.wire.sent.length

end NetCall

/-- The stack after a sequence of calls. -/
def NetworkStack.run (s : NetworkStack) (calls : List NetCall) : NetworkStack :=
  calls.foldl NetCall.apply s

/-- The stacks the coordinator can reach. -/
def NetworkStack.Reachable (s : NetworkStack) : Prop :=
  ∃ available accepts calls, s = (NetworkStack.new available accepts).run calls

/-! ## §2. The log grows. -/

namespace Wire

/-- The wire was handed more segments, and all of them satisfy `P`. -/
def Grows (P : Emission → Prop) (wire wire' : Wire) : Prop :=
  wire'.accepts = wire.accepts ∧ ∃ more, wire'.sent = wire.sent ++ more ∧ ∀ em ∈ more, P em

variable {P : Emission → Prop} {wire wire' wire'' : Wire}

@[refl] theorem Grows.refl (wire : Wire) : Grows P wire wire :=
  ⟨rfl, [], (List.append_nil _).symm, fun _ h => nomatch h⟩

@[trans] theorem Grows.trans (h : Grows P wire wire') (h' : Grows P wire' wire'') :
    Grows P wire wire'' := by
  obtain ⟨haccepts, more, hsent, hall⟩ := h
  obtain ⟨haccepts', more', hsent', hall'⟩ := h'
  refine ⟨haccepts'.trans haccepts, more ++ more', ?_, fun em hem => ?_⟩
  · rw [hsent', hsent, List.append_assoc]
  rcases List.mem_append.mp hem with h | h
  · exact hall em h
  · exact hall' em h

/-- What was appended. -/
theorem Grows.mem_drop (h : Grows P wire wire') :
    ∀ em ∈ wire'.sent.drop wire.sent.length, P em := by
  obtain ⟨-, more, hsent, hall⟩ := h
  rw [hsent, List.drop_left]
  exact hall

theorem transmit_grows {segment : TcpSegment} {sender : Sender} (h : P ⟨segment, sender⟩) :
    Grows P wire (wire.transmit segment sender).1 :=
  ⟨rfl, [⟨segment, sender⟩], rfl, fun em hem => by rw [List.mem_singleton.mp hem]; exact h⟩

theorem sendTcpWithWindow_grows {sender : Sender} {mac : Mac} {destination : BitVec 32}
    {sourcePort destinationPort : BitVec 16} {sequence acknowledgment : BitVec 32}
    {flags : BitVec 8} {payload : Bytes} {window : BitVec 16}
    (h : P ⟨⟨mac, destination, sourcePort, destinationPort, sequence, acknowledgment, flags,
      payload, window⟩, sender⟩) :
    Grows P wire (wire.sendTcpWithWindow sender mac destination sourcePort destinationPort sequence
      acknowledgment flags payload window).1 := by
  unfold sendTcpWithWindow
  split
  · exact .refl wire
  · exact transmit_grows h

end Wire

end GenOS.Network
