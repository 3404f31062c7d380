/-
  GenOS.Socket.SocketSet — the socket table of `socket.rs`.

  A set has four entries.  A handle packs a tag, the owner's slot and
  incarnation, a generation and the entry's index; every operation on a
  handle looks the entry up, checks handle and owner, and then works on that
  entry alone.  So an operation is a function on one `SocketEntry`
  (`SocketEntry.connect`, `SocketEntry.send`, …) lifted by `withEntry`; only
  `open`, `accept`, `close` and `close_owner` change which entries exist.

  An operation that fails may already have assigned to the entry, so it
  returns the state together with the `Result`.  Bytes copied to a caller's
  buffer are part of the result.
-/
import GenOS.Lib.Bytes
import Mathlib.Logic.Function.Basic

namespace GenOS.Socket

open GenOS.Lib

/-! ## §1. Data model. -/

/-- `SOCKET_CAPACITY`. -/
def socketCapacity : Nat := 4

/-- `SOCKET_BUFFER_CAPACITY`. -/
def socketBufferCapacity : Nat := 128

/-- `SOCKET_LISTENER_BACKLOG_CAPACITY`. -/
def socketListenerBacklogCapacity : Nat := 2

/-- `SOCKET_LISTENER_PORT_MIN`. -/
def socketListenerPortMin : BitVec 16 := 1024

/-- `SOCKET_GENERATION_MAX`. -/
def socketGenerationMax : BitVec 64 := 0xffff

inductive SocketProtocol where
  | udp
  | tcpStream
  deriving DecidableEq, Repr

inductive SocketState where
  | opened
  | connecting
  | established
  | readClosed
  | writeClosed
  | closed
  | failed
  | bound
  | listening
  deriving DecidableEq, Repr

inductive SocketError where
  | invalidHandle
  | invalidState
  | wouldBlock
  | capacity
  | unavailable
  deriving DecidableEq, Repr

structure SocketOwner where
  slot : BitVec 8
  incarnation : BitVec 64
  deriving DecidableEq

structure TcpServerPeer where
  target : BitVec 32
  remotePort : BitVec 16
  localPort : BitVec 16
  remoteSequence : BitVec 32
  localSequence : BitVec 32
  sourceMac : FixedBytes 6
  deriving DecidableEq

/-- `ByteQueue`: the first `len` bytes are queued. -/
structure ByteQueue where
  bytes : FixedBytes socketBufferCapacity
  len : Nat
  fits : len ≤ socketBufferCapacity
  deriving DecidableEq

namespace ByteQueue

def new : ByteQueue := ⟨FixedBytes.zero, 0, Nat.zero_le _⟩

/-- `push`. -/
def push (q : ByteQueue) (data : Bytes) : ByteQueue × Except SocketError Nat :=
  if h : data ≠ [] ∧ data.length ≤ socketBufferCapacity - q.len then
    (⟨q.bytes.patch q.len data, q.len + data.length, by have := q.fits; omega⟩, .ok data.length)
  else (q, .error .wouldBlock)

/-- `pop` into a buffer of `room` bytes. -/
def pop (q : ByteQueue) (room : Nat) : ByteQueue × Except SocketError Bytes :=
  if q.len = 0 then (q, .error .wouldBlock)
  else
    let len := min q.len room
    let moved := q.bytes.patch 0 (q.bytes.slice len (q.len - len))
    (⟨moved.patch (q.len - len) (List.replicate len 0), q.len - len,
      Nat.le_trans (Nat.sub_le _ _) q.fits⟩, .ok (q.bytes.slice 0 len))

/-- `clear`. -/
def clear (_ : ByteQueue) : ByteQueue := new

end ByteQueue

/-- `[T; n]::copy_within(start..stop, dest)`. -/
def copyWithin {α : Type} {n : Nat} (a : Fin n → α) (start stop dest : Nat) : Fin n → α :=
  fun i =>
    if h : dest ≤ i.val ∧ i.val < dest + (stop - start) ∧ i.val - dest + start < n then
      a ⟨i.val - dest + start, h.2.2⟩
    else a i

/-- `a[index] = value`.  An index out of range would panic in the source; the
model then leaves the array alone. -/
def setAt {α : Type} {n : Nat} (a : Fin n → α) (index : Nat) (value : α) : Fin n → α :=
  if h : index < n then Function.update a ⟨index, h⟩ value else a

/-- The backlog cells. -/
abbrev Backlog := Fin socketListenerBacklogCapacity → Option TcpServerPeer

structure SocketEntry where
  handle : BitVec 64
  generation : BitVec 64
  owner : SocketOwner
  protocol : SocketProtocol
  state : SocketState
  target : BitVec 32
  port : BitVec 16
  localPort : BitVec 16
  backlogLimit : Nat
  backlog : Backlog
  backlogLen : Nat
  serverPeer : Option TcpServerPeer
  send : ByteQueue
  inFlightRequest : BitVec 64
  inFlightSend : Nat
  receive : ByteQueue

/-- The result of an operation on one entry. -/
abbrev EntryOutcome (α : Type) := SocketEntry × Except SocketError α

/-! ## §2. Operations on one entry. -/

namespace SocketEntry

variable (peer : TcpServerPeer) (protocol : SocketProtocol) (requestId : BitVec 64)
  (e : SocketEntry)

/-- The states in which a client request may be started or completed. -/
def exchanging : Bool := e.state == .connecting || e.state == .established

/-- `connect`. -/
def connect (target : BitVec 32) (port : BitVec 16) (e : SocketEntry) : EntryOutcome Unit :=
  if target = 0 ∨ port = 0 ∨ e.state ≠ .opened then (e, .error .invalidState)
  else
    ({ e with
        target := target
        port := port
        state := match e.protocol with
          | .udp => .established
          | .tcpStream => .connecting }, .ok ())

/-- The test of `validate_bind`. -/
def validateBind (localPort : BitVec 16) (e : SocketEntry) : Except SocketError Unit :=
  if e.protocol ≠ .tcpStream ∨ e.state ≠ .opened ∨ localPort < socketListenerPortMin then
    .error .invalidState
  else .ok ()

/-- The assignments of `bind`. -/
def bindTo (localPort : BitVec 16) (e : SocketEntry) : EntryOutcome Unit :=
  ({ e with localPort := localPort, state := .bound }, .ok ())

/-- `listen`. -/
def listen (backlog : Nat) (e : SocketEntry) : EntryOutcome Unit :=
  if e.protocol ≠ .tcpStream ∨ e.state ≠ .bound ∨ backlog = 0
      ∨ socketListenerBacklogCapacity < backlog then
    (e, .error .invalidState)
  else ({ e with backlogLimit := backlog, state := .listening }, .ok ())

/-- `queue_incoming`. -/
def queueIncoming : EntryOutcome Unit :=
  if e.state ≠ .listening ∨ peer.target = 0 ∨ peer.remotePort = 0
      ∨ peer.localPort ≠ e.localPort ∨ e.backlogLimit ≤ e.backlogLen then
    (e, .error .wouldBlock)
  else
    ({ e with
        backlog := setAt e.backlog e.backlogLen (some peer)
        backlogLen := e.backlogLen + 1 }, .ok ())

/-- Take the cell at `position` out of the backlog and close the gap. -/
def removeIncoming (position : Nat) (e : SocketEntry) : SocketEntry :=
  { e with
    backlog := setAt (copyWithin e.backlog (position + 1) e.backlogLen position)
      (e.backlogLen - 1) none
    backlogLen := e.backlogLen - 1 }

/-- The first queued cell that holds `peer`. -/
def incomingPosition : Option Nat :=
  (((List.finRange socketListenerBacklogCapacity).take e.backlogLen).find?
    fun i => e.backlog i = some peer).map Fin.val

/-- `drop_incoming`. -/
def dropIncoming : EntryOutcome Unit :=
  if e.state ≠ .listening then (e, .error .invalidState)
  else
    match e.incomingPosition peer with
    | none => (e, .error .invalidState)
    | some position => (e.removeIncoming position, .ok ())

/-- `mark_connected`. -/
def markConnected : EntryOutcome Unit :=
  if e.state ≠ .connecting then (e, .error .invalidState)
  else ({ e with state := .established }, .ok ())

/-- `send`. -/
def sendBytes (data : Bytes) (e : SocketEntry) : EntryOutcome Nat :=
  if ¬ (e.state = .connecting ∨ e.state = .established ∨ e.state = .readClosed) then
    (e, .error .invalidState)
  else if socketBufferCapacity - (e.send.len + e.inFlightSend) < data.length then
    (e, .error .wouldBlock)
  else ({ e with send := (e.send.push data).1 }, (e.send.push data).2)

/-- Nothing is in flight, something is queued and the request id is a real
one: the tests `begin_transport`, `begin_server_send` and `begin_udp_send`
share. -/
def idle : Bool :=
  requestId != 0 && e.inFlightRequest == 0 && e.inFlightSend == 0 && e.send.len != 0

/-- Hand the queued bytes to a transport request. -/
def launch : SocketEntry :=
  { e with send := e.send.clear, inFlightRequest := requestId, inFlightSend := e.send.len }

/-- The queued bytes. -/
def queued : Bytes := e.send.bytes.slice 0 e.send.len

/-- Nothing is in flight any more. -/
def land : SocketEntry := { e with inFlightRequest := 0, inFlightSend := 0 }

/-- `begin_transport`. -/
def beginTransport : EntryOutcome (BitVec 32 × BitVec 16 × Bytes) :=
  if e.serverPeer.isSome ∨ e.protocol ≠ protocol ∨ e.exchanging = false
      ∨ e.idle requestId = false then
    (e, .error .invalidState)
  else (e.launch requestId, .ok (e.target, e.port, e.queued))

/-- `complete_transport`. -/
def completeTransport (response : Bytes) (e : SocketEntry) : EntryOutcome Nat :=
  if e.protocol ≠ protocol ∨ e.exchanging = false ∨ e.inFlightRequest ≠ requestId
      ∨ e.inFlightSend = 0 then
    (e, .error .invalidState)
  else
    let landed := { e.land with receive := (e.receive.push response).1 }
    match (e.receive.push response).2 with
    | .ok n =>
      (if protocol = .tcpStream then { landed with state := .established } else landed, .ok n)
    | .error err => ({ landed with state := .failed }, .error err)

/-- `fail_transport`. -/
def failTransport : EntryOutcome Unit :=
  if e.protocol ≠ protocol ∨ e.inFlightRequest ≠ requestId ∨ e.inFlightSend = 0 then
    (e, .error .invalidState)
  else ({ e.land with state := .failed }, .ok ())

/-- `begin_server_send`. -/
def beginServerSend : EntryOutcome Bytes :=
  if e.serverPeer = none ∨ ¬ (e.state = .established ∨ e.state = .readClosed)
      ∨ e.idle requestId = false then
    (e, .error .invalidState)
  else (e.launch requestId, .ok e.queued)

/-- `complete_server_send`. -/
def completeServerSend : EntryOutcome Nat :=
  if e.serverPeer ≠ some peer ∨ e.inFlightRequest ≠ requestId ∨ e.inFlightSend = 0 then
    (e, .error .invalidState)
  else (e.land, .ok e.inFlightSend)

/-- `mark_server_read_closed`. -/
def markServerReadClosed : EntryOutcome Unit :=
  if e.serverPeer ≠ some peer then (e, .error .invalidState)
  else
    match e.state with
    | .established => ({ e with state := .readClosed }, .ok ())
    | .writeClosed => ({ e with state := .writeClosed }, .ok ())
    | .readClosed => (e, .ok ())
    | .closed => (e, .ok ())
    | _ => (e, .error .invalidState)

/-- `mark_server_closed`. -/
def markServerClosed : EntryOutcome Unit :=
  if e.serverPeer ≠ some peer then (e, .error .invalidState)
  else ({ e.land with send := e.send.clear, state := .closed }, .ok ())

/-- `begin_udp_send`. -/
def beginUdpSend : EntryOutcome (BitVec 32 × BitVec 16 × Bytes) :=
  if e.protocol ≠ .udp ∨ e.state ≠ .established ∨ e.idle requestId = false then
    (e, .error .invalidState)
  else (e.launch requestId, .ok (e.target, e.port, e.queued))

/-- `complete_udp_send`. -/
def completeUdpSend (response : Bytes) (e : SocketEntry) : EntryOutcome Nat :=
  if e.protocol ≠ .udp ∨ e.state ≠ .established ∨ e.inFlightRequest ≠ requestId
      ∨ e.inFlightSend = 0 then
    (e, .error .invalidState)
  else
    let landed := { e.land with receive := (e.receive.push response).1 }
    match (e.receive.push response).2 with
    | .ok n => (landed, .ok n)
    | .error err => ({ landed with state := .failed }, .error err)

/-- `fail_udp_send`. -/
def failUdpSend : EntryOutcome Unit :=
  e.failTransport .udp requestId

/-- `take_send`. -/
def takeSend (room : Nat) (e : SocketEntry) : EntryOutcome Bytes :=
  ({ e with send := (e.send.pop room).1 }, (e.send.pop room).2)

/-- `push_receive`. -/
def pushReceive (data : Bytes) (e : SocketEntry) : EntryOutcome Nat :=
  if ¬ (e.state = .established ∨ e.state = .writeClosed) then (e, .error .invalidState)
  else ({ e with receive := (e.receive.push data).1 }, (e.receive.push data).2)

/-- `receive`. -/
def receiveBytes (room : Nat) (e : SocketEntry) : EntryOutcome Bytes :=
  if e.state = .opened ∨ e.state = .connecting then (e, .error .wouldBlock)
  else ({ e with receive := (e.receive.pop room).1 }, (e.receive.pop room).2)

/-- The states after `shutdown` of a socket that is not a server's. -/
def shutdownState (read write : Bool) (state : SocketState) : Option SocketState :=
  match read, write, state with
  | true, true, _ => some .closed
  | true, false, .writeClosed => some .closed
  | false, true, .readClosed => some .closed
  | true, false, _ => some .readClosed
  | false, true, _ => some .writeClosed
  | false, false, _ => none

/-- `if read { receive.clear() }`. -/
def clearReceiveIf (read : Bool) (e : SocketEntry) : SocketEntry :=
  if read then { e with receive := e.receive.clear } else e

/-- `if write { send.clear(); in_flight_request = 0; in_flight_send = 0 }`. -/
def clearSendIf (write : Bool) (e : SocketEntry) : SocketEntry :=
  if write then { e.land with send := e.send.clear } else e

/-- `shutdown`, behind the test of its flags. -/
def shutdown (read write : Bool) (e : SocketEntry) : EntryOutcome Unit :=
  if e.state = .closed ∨ e.state = .failed ∨ e.state = .bound ∨ e.state = .listening then
    (e, .error .invalidState)
  else if e.serverPeer.isSome ∧ write ∧ (e.send.len ≠ 0 ∨ e.inFlightSend ≠ 0) then
    (e, .error .wouldBlock)
  else if e.serverPeer.isSome ∧ write then
    let cleared := e.clearReceiveIf read
    ({ cleared with send := cleared.send.clear, state := .writeClosed }, .ok ())
  else
    let cleared := (e.clearReceiveIf read).clearSendIf write
    match shutdownState read write e.state with
    | some state => ({ cleared with state := state }, .ok ())
    | none => (cleared, .error .invalidState)

/-- `fail`. -/
def fail : EntryOutcome Unit :=
  ({ e.land with send := e.send.clear, state := .failed }, .ok ())

end SocketEntry

/-! ## §3. The set. -/

/-- `socket_handle`. -/
def socketHandle (owner : SocketOwner) (generation : BitVec 64) (slot : Nat) : BitVec 64 :=
  (0xe7#64 <<< 56) ||| ((owner.slot.setWidth 64 &&& 0x0f#64) <<< 52)
    ||| ((owner.incarnation &&& 0xfffffff#64) <<< 24) ||| (generation <<< 8)
    ||| BitVec.ofNat 64 (slot + 1)

/-- `socket_slot`. -/
def socketSlot (handle : BitVec 64) : Option (Fin socketCapacity) :=
  if handle &&& (0xff#64 <<< 56) ≠ 0xe7#64 <<< 56 then none
  else
    let slot := (handle &&& 0xff#64).toNat
    if h : 1 ≤ slot ∧ slot ≤ socketCapacity then some ⟨slot - 1, by omega⟩ else none

structure SocketSet where
  entries : Fin socketCapacity → Option SocketEntry
  nextGeneration : BitVec 64

/-- The result of an operation on the set. -/
abbrev SocketOutcome (α : Type) := SocketSet × Except SocketError α

namespace SocketSet

/-- `SocketSet::new`. -/
def new : SocketSet := ⟨fun _ => none, 1⟩

variable (s : SocketSet) (owner : SocketOwner)

/-- `self.entries[slot] = entry`. -/
def put (slot : Fin socketCapacity) (entry : Option SocketEntry) : SocketSet :=
  { s with entries := Function.update s.entries slot entry }

/-- `slot_for`. -/
def slotFor (handle : BitVec 64) : Except SocketError (Fin socketCapacity) :=
  match socketSlot handle with
  | none => .error .invalidHandle
  | some slot =>
    match s.entries slot with
    | none => .error .invalidHandle
    | some entry =>
      if entry.handle ≠ handle ∨ entry.owner ≠ owner
          ∨ socketHandle entry.owner entry.generation slot ≠ handle then
        .error .invalidHandle
      else .ok slot

/-- `entry`. -/
def entry (s : SocketSet) (owner : SocketOwner) (handle : BitVec 64) :
    Except SocketError SocketEntry :=
  match s.slotFor owner handle with
  | .error e => .error e
  | .ok slot =>
    match s.entries slot with
    | none => .error .invalidHandle
    | some entry => .ok entry

/-- An operation on the entry `entry_mut` returns. -/
def withEntry {α : Type} (handle : BitVec 64) (operation : SocketEntry → EntryOutcome α) :
    SocketOutcome α :=
  match s.slotFor owner handle with
  | .error e => (s, .error e)
  | .ok slot =>
    match s.entries slot with
    | none => (s, .error .invalidHandle)
    | some entry => (s.put slot (some (operation entry).1), (operation entry).2)

/-- The entry `open` stores. -/
def freshEntry (protocol : SocketProtocol) (generation : BitVec 64) (slot : Fin socketCapacity) :
    SocketEntry where
  handle := socketHandle owner generation slot
  generation := generation
  owner := owner
  protocol := protocol
  state := .opened
  target := 0
  port := 0
  localPort := 0
  backlogLimit := 0
  backlog := fun _ => none
  backlogLen := 0
  serverPeer := none
  send := ByteQueue.new
  inFlightRequest := 0
  inFlightSend := 0
  receive := ByteQueue.new

/-- `self.entries.iter().position(Option::is_none)`. -/
def freeSlot : Option (Fin socketCapacity) :=
  (List.finRange socketCapacity).find? fun slot => (s.entries slot).isNone

/-- `open`. -/
def openSocket (protocol : SocketProtocol) : SocketOutcome (BitVec 64) :=
  match s.freeSlot with
  | none => (s, .error .capacity)
  | some slot =>
    let generation := s.nextGeneration
    if generation = 0 ∨ socketGenerationMax < generation then (s, .error .capacity)
    else
      let entry := freshEntry owner protocol generation slot
      ({ s.put slot (some entry) with nextGeneration := generation + 1 }, .ok entry.handle)

section Handles

variable (s : SocketSet) (owner : SocketOwner) (handle : BitVec 64)

/-- `connect`. -/
def connect (target : BitVec 32) (port : BitVec 16) : SocketOutcome Unit :=
  s.withEntry owner handle (SocketEntry.connect target port)

/-- `validate_bind`. -/
def validateBind (localPort : BitVec 16) : Except SocketError Unit :=
  match s.entry owner handle with
  | .error e => .error e
  | .ok entry => entry.validateBind localPort

/-- `bind`. -/
def bind (localPort : BitVec 16) : SocketOutcome Unit :=
  match s.validateBind owner handle localPort with
  | .error e => (s, .error e)
  | .ok () => s.withEntry owner handle (SocketEntry.bindTo localPort)

/-- `listen`. -/
def listen (backlog : Nat) : SocketOutcome Unit :=
  s.withEntry owner handle (SocketEntry.listen backlog)

/-- `queue_incoming`. -/
def queueIncoming (peer : TcpServerPeer) : SocketOutcome Unit :=
  s.withEntry owner handle (SocketEntry.queueIncoming peer)

/-- `drop_incoming`. -/
def dropIncoming (peer : TcpServerPeer) : SocketOutcome Unit :=
  s.withEntry owner handle (SocketEntry.dropIncoming peer)

/-- The connection `accept` takes, with the listener's port. -/
def pendingConnection (slot : Fin socketCapacity) :
    Except SocketError (TcpServerPeer × BitVec 16) :=
  match s.entries slot with
  | none => .error .invalidHandle
  | some listener =>
    if listener.state ≠ .listening ∨ listener.backlogLen = 0 then .error .wouldBlock
    else
      match listener.backlog ⟨0, by decide⟩ with
      | none => .error .wouldBlock
      | some connection => .ok (connection, listener.localPort)

/-- The assignments of `accept` to the child. -/
def adopt (connection : TcpServerPeer) (localPort : BitVec 16) (e : SocketEntry) :
    EntryOutcome Unit :=
  ({ e with
      target := connection.target
      port := connection.remotePort
      localPort := localPort
      serverPeer := some connection
      state := .established }, .ok ())

/-- The part of `accept` after the child was opened. -/
def finishAccept (slot : Fin socketCapacity) (accepted : BitVec 64) (connection : TcpServerPeer)
    (localPort : BitVec 16) : SocketOutcome (BitVec 64) :=
  match s.entries slot with
  | none => (s, .error .invalidHandle)
  | some listener =>
    let s' := s.put slot (some (listener.removeIncoming 0))
    match s'.withEntry owner accepted (adopt connection localPort) with
    | (s'', .error e) => (s'', .error e)
    | (s'', .ok ()) => (s'', .ok accepted)

/-- `accept`. -/
def accept : SocketOutcome (BitVec 64) :=
  if s.freeSlot = none then (s, .error .capacity)
  else
    match s.slotFor owner handle with
    | .error e => (s, .error e)
    | .ok slot =>
      match s.pendingConnection slot with
      | .error e => (s, .error e)
      | .ok (connection, localPort) =>
        match s.openSocket owner .tcpStream with
        | (s', .error e) => (s', .error e)
        | (s', .ok accepted) => s'.finishAccept owner slot accepted connection localPort

/-- `mark_connected`. -/
def markConnected : SocketOutcome Unit := s.withEntry owner handle SocketEntry.markConnected

/-- `send`. -/
def send (data : Bytes) : SocketOutcome Nat :=
  s.withEntry owner handle (SocketEntry.sendBytes data)

/-- `begin_transport`. -/
def beginTransport (protocol : SocketProtocol) (requestId : BitVec 64) :
    SocketOutcome (BitVec 32 × BitVec 16 × Bytes) :=
  s.withEntry owner handle (SocketEntry.beginTransport protocol requestId)

/-- `complete_transport`. -/
def completeTransport (protocol : SocketProtocol) (requestId : BitVec 64) (response : Bytes) :
    SocketOutcome Nat :=
  s.withEntry owner handle (SocketEntry.completeTransport protocol requestId response)

/-- `fail_transport`. -/
def failTransport (protocol : SocketProtocol) (requestId : BitVec 64) : SocketOutcome Unit :=
  s.withEntry owner handle (SocketEntry.failTransport protocol requestId)

/-- `begin_server_send`. -/
def beginServerSend (requestId : BitVec 64) : SocketOutcome Bytes :=
  s.withEntry owner handle (SocketEntry.beginServerSend requestId)

/-- `complete_server_send`. -/
def completeServerSend (peer : TcpServerPeer) (requestId : BitVec 64) : SocketOutcome Nat :=
  s.withEntry owner handle (SocketEntry.completeServerSend peer requestId)

/-- `mark_server_read_closed`. -/
def markServerReadClosed (peer : TcpServerPeer) : SocketOutcome Unit :=
  s.withEntry owner handle (SocketEntry.markServerReadClosed peer)

/-- `mark_server_closed`. -/
def markServerClosed (peer : TcpServerPeer) : SocketOutcome Unit :=
  s.withEntry owner handle (SocketEntry.markServerClosed peer)

/-- `begin_udp_send`. -/
def beginUdpSend (requestId : BitVec 64) : SocketOutcome (BitVec 32 × BitVec 16 × Bytes) :=
  s.withEntry owner handle (SocketEntry.beginUdpSend requestId)

/-- `complete_udp_send`. -/
def completeUdpSend (requestId : BitVec 64) (response : Bytes) : SocketOutcome Nat :=
  s.withEntry owner handle (SocketEntry.completeUdpSend requestId response)

/-- `fail_udp_send`. -/
def failUdpSend (requestId : BitVec 64) : SocketOutcome Unit :=
  s.withEntry owner handle (SocketEntry.failUdpSend requestId)

/-- `take_send`. -/
def takeSend (room : Nat) : SocketOutcome Bytes :=
  s.withEntry owner handle (SocketEntry.takeSend room)

/-- `push_receive`. -/
def pushReceive (data : Bytes) : SocketOutcome Nat :=
  s.withEntry owner handle (SocketEntry.pushReceive data)

/-- `receive`. -/
def receive (room : Nat) : SocketOutcome Bytes :=
  s.withEntry owner handle (SocketEntry.receiveBytes room)

/-- `shutdown`. -/
def shutdown (read write : Bool) : SocketOutcome Unit :=
  if read = false ∧ write = false then (s, .error .invalidState)
  else s.withEntry owner handle (SocketEntry.shutdown read write)

/-- `fail`. -/
def fail : SocketOutcome Unit := s.withEntry owner handle SocketEntry.fail

/-- `close`. -/
def close : SocketOutcome Unit :=
  match s.slotFor owner handle with
  | .error e => (s, .error e)
  | .ok slot => (s.put slot none, .ok ())

/-- `close_owner`, with the number of closed sockets. -/
def closeOwner : SocketSet × Nat :=
  let owned (slot : Fin socketCapacity) : Bool := (s.entries slot).any fun e => e.owner = owner
  ({ s with entries := fun slot => if owned slot then none else s.entries slot },
    ((List.finRange socketCapacity).filter owned).length)

end Handles

end SocketSet

end GenOS.Socket
