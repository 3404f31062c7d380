/-
  GenOS.Socket.EntryCalls — the calls on a socket set.

  All calls but `open`, `accept`, `close` and `close_owner` are a function on the
  entry of their handle (`entryCall`, `entryEffect`).  `Outcome` lists what such
  a function may make of an entry, with the tests that were passed.  What a call
  keeps is read off this list, so no other proof unfolds the operations.
-/
import GenOS.Socket.SocketSet

namespace GenOS.Socket

open GenOS.Lib

/-! ## §1. Calls. -/

/-- One call, with any owner, handle and arguments. -/
inductive SocketOp where
  | openSocket (owner : SocketOwner) (protocol : SocketProtocol)
  | closeOwner (owner : SocketOwner)
  | accept (owner : SocketOwner) (handle : BitVec 64)
  | close (owner : SocketOwner) (handle : BitVec 64)
  | connect (owner : SocketOwner) (handle : BitVec 64) (target : BitVec 32) (port : BitVec 16)
  | bind (owner : SocketOwner) (handle : BitVec 64) (localPort : BitVec 16)
  | listen (owner : SocketOwner) (handle : BitVec 64) (backlog : Nat)
  | queueIncoming (owner : SocketOwner) (handle : BitVec 64) (peer : TcpServerPeer)
  | dropIncoming (owner : SocketOwner) (handle : BitVec 64) (peer : TcpServerPeer)
  | markConnected (owner : SocketOwner) (handle : BitVec 64)
  | send (owner : SocketOwner) (handle : BitVec 64) (data : Bytes)
  | beginTransport (owner : SocketOwner) (handle : BitVec 64) (protocol : SocketProtocol)
      (requestId : BitVec 64)
  | completeTransport (owner : SocketOwner) (handle : BitVec 64) (protocol : SocketProtocol)
      (requestId : BitVec 64) (response : Bytes)
  | failTransport (owner : SocketOwner) (handle : BitVec 64) (protocol : SocketProtocol)
      (requestId : BitVec 64)
  | beginServerSend (owner : SocketOwner) (handle : BitVec 64) (requestId : BitVec 64)
  | completeServerSend (owner : SocketOwner) (handle : BitVec 64) (peer : TcpServerPeer)
      (requestId : BitVec 64)
  | markServerReadClosed (owner : SocketOwner) (handle : BitVec 64) (peer : TcpServerPeer)
  | markServerClosed (owner : SocketOwner) (handle : BitVec 64) (peer : TcpServerPeer)
  | beginUdpSend (owner : SocketOwner) (handle : BitVec 64) (requestId : BitVec 64)
  | completeUdpSend (owner : SocketOwner) (handle : BitVec 64) (requestId : BitVec 64)
      (response : Bytes)
  | failUdpSend (owner : SocketOwner) (handle : BitVec 64) (requestId : BitVec 64)
  | takeSend (owner : SocketOwner) (handle : BitVec 64) (room : Nat)
  | pushReceive (owner : SocketOwner) (handle : BitVec 64) (data : Bytes)
  | receive (owner : SocketOwner) (handle : BitVec 64) (room : Nat)
  | shutdown (owner : SocketOwner) (handle : BitVec 64) (read write : Bool)
  | fail (owner : SocketOwner) (handle : BitVec 64)

namespace SocketOp

/-- The set after a call, whether it succeeds or not. -/
def apply (s : SocketSet) : SocketOp → SocketSet
  | .openSocket owner protocol => (s.openSocket owner protocol).1
  | .closeOwner owner => (s.closeOwner owner).1
  | .accept owner handle => (s.accept owner handle).1
  | .close owner handle => (s.close owner handle).1
  | .connect owner handle target port => (s.connect owner handle target port).1
  | .bind owner handle localPort => (s.bind owner handle localPort).1
  | .listen owner handle backlog => (s.listen owner handle backlog).1
  | .queueIncoming owner handle peer => (s.queueIncoming owner handle peer).1
  | .dropIncoming owner handle peer => (s.dropIncoming owner handle peer).1
  | .markConnected owner handle => (s.markConnected owner handle).1
  | .send owner handle data => (s.send owner handle data).1
  | .beginTransport owner handle protocol requestId =>
    (s.beginTransport owner handle protocol requestId).1
  | .completeTransport owner handle protocol requestId response =>
    (s.completeTransport owner handle protocol requestId response).1
  | .failTransport owner handle protocol requestId =>
    (s.failTransport owner handle protocol requestId).1
  | .beginServerSend owner handle requestId => (s.beginServerSend owner handle requestId).1
  | .completeServerSend owner handle peer requestId =>
    (s.completeServerSend owner handle peer requestId).1
  | .markServerReadClosed owner handle peer => (s.markServerReadClosed owner handle peer).1
  | .markServerClosed owner handle peer => (s.markServerClosed owner handle peer).1
  | .beginUdpSend owner handle requestId => (s.beginUdpSend owner handle requestId).1
  | .completeUdpSend owner handle requestId response =>
    (s.completeUdpSend owner handle requestId response).1
  | .failUdpSend owner handle requestId => (s.failUdpSend owner handle requestId).1
  | .takeSend owner handle room => (s.takeSend owner handle room).1
  | .pushReceive owner handle data => (s.pushReceive owner handle data).1
  | .receive owner handle room => (s.receive owner handle room).1
  | .shutdown owner handle read write => (s.shutdown owner handle read write).1
  | .fail owner handle => (s.fail owner handle).1

/-- The handle a call works on. -/
def handle : SocketOp → Option (BitVec 64)
  | .openSocket _ _ => none
  | .closeOwner _ => none
  | .accept _ handle => some handle
  | .close _ handle => some handle
  | .connect _ handle _ _ => some handle
  | .bind _ handle _ => some handle
  | .listen _ handle _ => some handle
  | .queueIncoming _ handle _ => some handle
  | .dropIncoming _ handle _ => some handle
  | .markConnected _ handle => some handle
  | .send _ handle _ => some handle
  | .beginTransport _ handle _ _ => some handle
  | .completeTransport _ handle _ _ _ => some handle
  | .failTransport _ handle _ _ => some handle
  | .beginServerSend _ handle _ => some handle
  | .completeServerSend _ handle _ _ => some handle
  | .markServerReadClosed _ handle _ => some handle
  | .markServerClosed _ handle _ => some handle
  | .beginUdpSend _ handle _ => some handle
  | .completeUdpSend _ handle _ _ => some handle
  | .failUdpSend _ handle _ => some handle
  | .takeSend _ handle _ => some handle
  | .pushReceive _ handle _ => some handle
  | .receive _ handle _ => some handle
  | .shutdown _ handle _ _ => some handle
  | .fail _ handle => some handle

/-- The number of the request a call begins. -/
def begins : SocketOp → Option (BitVec 64)
  | .beginTransport _ _ _ requestId => some requestId
  | .beginServerSend _ _ requestId => some requestId
  | .beginUdpSend _ _ requestId => some requestId
  | _ => none

/-- The number of the request a call completes or fails. -/
def settles : SocketOp → Option (BitVec 64)
  | .completeTransport _ _ _ requestId _ => some requestId
  | .failTransport _ _ _ requestId => some requestId
  | .completeServerSend _ _ _ requestId => some requestId
  | .completeUdpSend _ _ requestId _ => some requestId
  | .failUdpSend _ _ requestId => some requestId
  | _ => none

/-- The call shuts the send side. -/
def shuts : SocketOp → Bool
  | .shutdown _ _ _ write => write
  | .fail _ _ => true
  | _ => false

/-- What a call that succeeds does to a queue of peers. -/
def queueStep : SocketOp → List TcpServerPeer → List TcpServerPeer
  | .queueIncoming _ _ peer, queue => queue ++ [peer]
  | .dropIncoming _ _ peer, queue => queue.erase peer
  | .accept _ _, queue => queue.tail
  | _, queue => queue

/-- The owner that makes a call on a handle. -/
def caller : SocketOp → Option SocketOwner
  | .openSocket owner _ => some owner
  | .closeOwner owner => some owner
  | .accept owner _ => some owner
  | .close owner _ => some owner
  | .connect owner _ _ _ => some owner
  | .bind owner _ _ => some owner
  | .listen owner _ _ => some owner
  | .queueIncoming owner _ _ => some owner
  | .dropIncoming owner _ _ => some owner
  | .markConnected owner _ => some owner
  | .send owner _ _ => some owner
  | .beginTransport owner _ _ _ => some owner
  | .completeTransport owner _ _ _ _ => some owner
  | .failTransport owner _ _ _ => some owner
  | .beginServerSend owner _ _ => some owner
  | .completeServerSend owner _ _ _ => some owner
  | .markServerReadClosed owner _ _ => some owner
  | .markServerClosed owner _ _ => some owner
  | .beginUdpSend owner _ _ => some owner
  | .completeUdpSend owner _ _ _ => some owner
  | .failUdpSend owner _ _ => some owner
  | .takeSend owner _ _ => some owner
  | .pushReceive owner _ _ => some owner
  | .receive owner _ _ => some owner
  | .shutdown owner _ _ _ => some owner
  | .fail owner _ => some owner

/-- Whether a call returns `Ok`. -/
def ok (s : SocketSet) : SocketOp → Bool
  | .openSocket owner protocol => (s.openSocket owner protocol).2.isOk
  | .closeOwner _ => true
  | .accept owner handle => (s.accept owner handle).2.isOk
  | .close owner handle => (s.close owner handle).2.isOk
  | .connect owner handle target port => (s.connect owner handle target port).2.isOk
  | .bind owner handle localPort => (s.bind owner handle localPort).2.isOk
  | .listen owner handle backlog => (s.listen owner handle backlog).2.isOk
  | .queueIncoming owner handle peer => (s.queueIncoming owner handle peer).2.isOk
  | .dropIncoming owner handle peer => (s.dropIncoming owner handle peer).2.isOk
  | .markConnected owner handle => (s.markConnected owner handle).2.isOk
  | .send owner handle data => (s.send owner handle data).2.isOk
  | .beginTransport owner handle protocol requestId =>
    (s.beginTransport owner handle protocol requestId).2.isOk
  | .completeTransport owner handle protocol requestId response =>
    (s.completeTransport owner handle protocol requestId response).2.isOk
  | .failTransport owner handle protocol requestId =>
    (s.failTransport owner handle protocol requestId).2.isOk
  | .beginServerSend owner handle requestId => (s.beginServerSend owner handle requestId).2.isOk
  | .completeServerSend owner handle peer requestId =>
    (s.completeServerSend owner handle peer requestId).2.isOk
  | .markServerReadClosed owner handle peer => (s.markServerReadClosed owner handle peer).2.isOk
  | .markServerClosed owner handle peer => (s.markServerClosed owner handle peer).2.isOk
  | .beginUdpSend owner handle requestId => (s.beginUdpSend owner handle requestId).2.isOk
  | .completeUdpSend owner handle requestId response =>
    (s.completeUdpSend owner handle requestId response).2.isOk
  | .failUdpSend owner handle requestId => (s.failUdpSend owner handle requestId).2.isOk
  | .takeSend owner handle room => (s.takeSend owner handle room).2.isOk
  | .pushReceive owner handle data => (s.pushReceive owner handle data).2.isOk
  | .receive owner handle room => (s.receive owner handle room).2.isOk
  | .shutdown owner handle read write => (s.shutdown owner handle read write).2.isOk
  | .fail owner handle => (s.fail owner handle).2.isOk

/-- The entry after an operation and whether it returned `Ok`. -/
def reported {α : Type} (o : EntryOutcome α) : SocketEntry × Bool := (o.1, o.2.isOk)

/-- The function on the entry of the handle, of the calls that are one. -/
def entryCall : SocketOp → Option (SocketEntry → SocketEntry × Bool)
  | .openSocket _ _ => none
  | .closeOwner _ => none
  | .accept _ _ => none
  | .close _ _ => none
  | .connect _ _ target port => some fun e => reported (e.connect target port)
  | .bind _ _ localPort => some fun e =>
    match e.validateBind localPort with
    | .error _ => (e, false)
    | .ok () => reported (e.bindTo localPort)
  | .listen _ _ backlog => some fun e => reported (e.listen backlog)
  | .queueIncoming _ _ peer => some fun e => reported (e.queueIncoming peer)
  | .dropIncoming _ _ peer => some fun e => reported (e.dropIncoming peer)
  | .markConnected _ _ => some fun e => reported e.markConnected
  | .send _ _ data => some fun e => reported (e.sendBytes data)
  | .beginTransport _ _ protocol requestId =>
    some fun e => reported (e.beginTransport protocol requestId)
  | .completeTransport _ _ protocol requestId response =>
    some fun e => reported (e.completeTransport protocol requestId response)
  | .failTransport _ _ protocol requestId =>
    some fun e => reported (e.failTransport protocol requestId)
  | .beginServerSend _ _ requestId => some fun e => reported (e.beginServerSend requestId)
  | .completeServerSend _ _ peer requestId =>
    some fun e => reported (e.completeServerSend peer requestId)
  | .markServerReadClosed _ _ peer => some fun e => reported (e.markServerReadClosed peer)
  | .markServerClosed _ _ peer => some fun e => reported (e.markServerClosed peer)
  | .beginUdpSend _ _ requestId => some fun e => reported (e.beginUdpSend requestId)
  | .completeUdpSend _ _ requestId response =>
    some fun e => reported (e.completeUdpSend requestId response)
  | .failUdpSend _ _ requestId => some fun e => reported (e.failUdpSend requestId)
  | .takeSend _ _ room => some fun e => reported (e.takeSend room)
  | .pushReceive _ _ data => some fun e => reported (e.pushReceive data)
  | .receive _ _ room => some fun e => reported (e.receiveBytes room)
  | .shutdown _ _ read write => some fun e =>
    if read = false ∧ write = false then (e, false) else reported (e.shutdown read write)
  | .fail _ _ => some fun e => reported e.fail

end SocketOp

open SocketOp

/-! ## §2. A call on a handle is its function on the entry. -/

/-- What a call on a handle does to the set, by the function on its entry. -/
structure EntryEffect (s : SocketSet) (op : SocketOp) (owner : SocketOwner) (handle : BitVec 64)
    (f : SocketEntry → SocketEntry × Bool) : Prop where
  caller : op.caller = some owner
  target : op.handle = some handle
  resolved : ∀ slot e, s.slotFor owner handle = .ok slot → s.entries slot = some e →
    op.apply s = s.put slot (some (f e).1) ∧ op.ok s = (f e).2
  refused : ∀ error, s.slotFor owner handle = .error error → op.apply s = s ∧ op.ok s = false

namespace EntryEffect

variable {s : SocketSet} {owner : SocketOwner} {handle : BitVec 64} {op : SocketOp} {e : SocketEntry}

theorem put_same {slot : Fin socketCapacity} (he : s.entries slot = some e) :
    s.put slot (some e) = s := by
  unfold SocketSet.put
  rw [← he, Function.update_eq_self]

/-- The calls written with `withEntry`. -/
theorem withEntry {α : Type} {operation : SocketEntry → EntryOutcome α}
    (hcaller : op.caller = some owner) (hhandle : op.handle = some handle)
    (happly : op.apply s = (s.withEntry owner handle operation).1)
    (hok : op.ok s = (s.withEntry owner handle operation).2.isOk) :
    EntryEffect s op owner handle fun e => reported (operation e) := by
  refine ⟨hcaller, hhandle, fun slot e hslot he => ?_, fun error hslot => ?_⟩
  · have hrun : s.withEntry owner handle operation
        = (s.put slot (some (operation e).1), (operation e).2) := by
      unfold SocketSet.withEntry
      rw [hslot]
      dsimp only
      rw [he]
    rw [happly, hok, hrun]
    exact ⟨rfl, rfl⟩
  · have hrun : s.withEntry owner handle operation = (s, .error error) := by
      unfold SocketSet.withEntry
      rw [hslot]
    rw [happly, hok, hrun]
    exact ⟨rfl, rfl⟩

theorem bind (localPort : BitVec 16) :
    EntryEffect s (.bind owner handle localPort) owner handle fun e =>
      match e.validateBind localPort with
      | .error _ => (e, false)
      | .ok () => reported (e.bindTo localPort) := by
  refine ⟨rfl, rfl, fun slot e hslot he => ?_, fun error hslot => ?_⟩
  · have hval : s.validateBind owner handle localPort = e.validateBind localPort := by
      unfold SocketSet.validateBind SocketSet.entry
      rw [hslot]
      dsimp only
      rw [he]
    show (s.bind owner handle localPort).1 = _ ∧ (s.bind owner handle localPort).2.isOk = _
    unfold SocketSet.bind
    rw [hval]
    cases e.validateBind localPort with
    | error error => exact ⟨(put_same he).symm, rfl⟩
    | ok u =>
      dsimp only
      unfold SocketSet.withEntry
      rw [hslot]
      dsimp only
      rw [he]
      exact ⟨rfl, rfl⟩
  · have hval : s.validateBind owner handle localPort = .error error := by
      unfold SocketSet.validateBind SocketSet.entry
      rw [hslot]
    show (s.bind owner handle localPort).1 = _ ∧ (s.bind owner handle localPort).2.isOk = _
    unfold SocketSet.bind
    rw [hval]
    exact ⟨rfl, rfl⟩

theorem shutdown (read write : Bool) :
    EntryEffect s (.shutdown owner handle read write) owner handle fun e =>
      if read = false ∧ write = false then (e, false)
      else reported (e.shutdown read write) := by
  by_cases hflags : read = false ∧ write = false
  · have hrun : s.shutdown owner handle read write = (s, .error .invalidState) := if_pos hflags
    refine ⟨rfl, rfl, fun slot e hslot he => ?_, fun error hslot => ?_⟩
    · show (s.shutdown owner handle read write).1 = _ ∧ (s.shutdown owner handle read write).2.isOk = _
      rw [hrun, if_pos hflags]
      exact ⟨(put_same he).symm, rfl⟩
    · show (s.shutdown owner handle read write).1 = _ ∧ (s.shutdown owner handle read write).2.isOk = _
      rw [hrun]
      exact ⟨rfl, rfl⟩
  · have hrun : s.shutdown owner handle read write
        = s.withEntry owner handle (SocketEntry.shutdown read write) := if_neg hflags
    simp only [if_neg hflags]
    exact withEntry rfl rfl (congrArg Prod.fst hrun) (congrArg (fun o => o.2.isOk) hrun)

end EntryEffect

/-- **The calls that are a function on one entry.** -/
theorem entryEffect (s : SocketSet) {op : SocketOp} {f : SocketEntry → SocketEntry × Bool}
    (h : op.entryCall = some f) : ∃ owner handle, EntryEffect s op owner handle f := by
  cases op <;> cases h
  case bind owner handle localPort => exact ⟨owner, handle, .bind localPort⟩
  case shutdown owner handle read write => exact ⟨owner, handle, .shutdown read write⟩
  -- the others are written with `withEntry`
  all_goals exact ⟨_, _, .withEntry rfl rfl rfl rfl⟩

/-! ## §3. What a call makes of the entry. -/

/-- Calls that begin and end no request, shut nothing and queue nothing. -/
structure SocketOp.Plain (op : SocketOp) : Prop where
  begins : op.begins = none
  settles : op.settles = none
  shuts : op.shuts = false
  queueStep : ∀ queue, op.queueStep queue = queue

/-- Calls that begin a request. -/
structure SocketOp.Starts (op : SocketOp) (requestId : BitVec 64) : Prop where
  begins : op.begins = some requestId
  settles : op.settles = none
  shuts : op.shuts = false
  queueStep : ∀ queue, op.queueStep queue = queue

/-- Calls that complete or fail a request. -/
structure SocketOp.Finishes (op : SocketOp) (requestId : BitVec 64) : Prop where
  settles : op.settles = some requestId
  shuts : op.shuts = false
  queueStep : ∀ queue, op.queueStep queue = queue

/-- The entry after a call on it, and whether the call returned `Ok`. -/
inductive Outcome (e : SocketEntry) (op : SocketOp) : SocketEntry × Bool → Prop
  | refused : Outcome e op (e, false)
  | connected (hop : op.Plain) (target : BitVec 32) (port : BitVec 16)
      (hstate : e.state = .opened) :
      Outcome e op ({ e with
        target := target
        port := port
        state := match e.protocol with
          | .udp => .established
          | .tcpStream => .connecting }, true)
  | bound (hop : op.Plain) (localPort : BitVec 16) (hstate : e.state = .opened) :
      Outcome e op ({ e with localPort := localPort, state := .bound }, true)
  | listening (hop : op.Plain) (backlog : Nat) (hstate : e.state = .bound)
      (hle : backlog ≤ socketListenerBacklogCapacity) :
      Outcome e op ({ e with backlogLimit := backlog, state := .listening }, true)
  | queued (owner : SocketOwner) (handle : BitVec 64) (peer : TcpServerPeer)
      (hop : op = .queueIncoming owner handle peer) (hstate : e.state = .listening)
      (hroom : e.backlogLen < e.backlogLimit) :
      Outcome e op ({ e with
        backlog := setAt e.backlog e.backlogLen (some peer)
        backlogLen := e.backlogLen + 1 }, true)
  | dropped (owner : SocketOwner) (handle : BitVec 64) (peer : TcpServerPeer) (position : Nat)
      (hop : op = .dropIncoming owner handle peer) (hstate : e.state = .listening)
      (hposition : e.incomingPosition peer = some position) :
      Outcome e op (e.removeIncoming position, true)
  | established (hop : op.Plain) (hstate : e.state = .connecting) :
      Outcome e op ({ e with state := .established }, true)
  | sent (hop : op.Plain) (data : Bytes) (ok : Bool)
      (hstate : e.state = .connecting ∨ e.state = .established ∨ e.state = .readClosed)
      (hroom : data.length ≤ socketBufferCapacity - (e.send.len + e.inFlightSend)) :
      Outcome e op ({ e with send := (e.send.push data).1 }, ok)
  | launched (requestId : BitVec 64) (hop : op.Starts requestId) (hidle : e.idle requestId = true)
      (hstate : e.state = .connecting ∨ e.state = .established ∨ e.state = .readClosed) :
      Outcome e op (e.launch requestId, true)
  | landed (requestId : BitVec 64) (hop : op.Finishes requestId)
      (hrequest : e.inFlightRequest = requestId) (hsend : e.inFlightSend ≠ 0) :
      Outcome e op (e.land, true)
  | failed (requestId : BitVec 64) (hop : op.Finishes requestId)
      (hrequest : e.inFlightRequest = requestId) (hsend : e.inFlightSend ≠ 0) :
      Outcome e op ({ e.land with state := .failed }, true)
  /-- A datagram socket keeps its state, a stream is established; if the response
  does not fit, the socket fails. -/
  | completed (requestId : BitVec 64) (hop : op.Finishes requestId) (receive : ByteQueue)
      (state : SocketState) (ok : Bool) (hrequest : e.inFlightRequest = requestId)
      (hsend : e.inFlightSend ≠ 0) (hexchanging : e.exchanging = true)
      (hstate : state = .established ∨ state = .failed
        ∨ (state = e.state ∧ e.protocol ≠ .tcpStream)) :
      Outcome e op ({ e.land with receive := receive, state := state }, ok)
  | readClosed (hop : op.Plain) (state : SocketState)
      (hstate : state = e.state ∨ (e.state = .established ∧ state = .readClosed)) :
      Outcome e op ({ e with state := state }, true)
  | abandoned (hop : op.settles = none) (hqueue : ∀ queue, op.queueStep queue = queue)
      (state : SocketState) (hstate : state = .closed ∨ state = .failed) :
      Outcome e op ({ e.land with send := e.send.clear, state := state }, true)
  | taken (hop : op.Plain) (room : Nat) (ok : Bool) :
      Outcome e op ({ e with send := (e.send.pop room).1 }, ok)
  | arrived (hop : op.Plain) (data : Bytes) (ok : Bool)
      (hstate : e.state = .established ∨ e.state = .writeClosed) :
      Outcome e op ({ e with receive := (e.receive.push data).1 }, ok)
  | read (hop : op.Plain) (room : Nat) (ok : Bool)
      (hstate : ¬ (e.state = .opened ∨ e.state = .connecting)) :
      Outcome e op ({ e with receive := (e.receive.pop room).1 }, ok)
  | shutServer (owner : SocketOwner) (handle : BitVec 64) (read : Bool)
      (hop : op = .shutdown owner handle read true) (hserver : e.serverPeer.isSome = true)
      (hidle : e.inFlightSend = 0) (hopen : e.state ≠ .closed ∧ e.state ≠ .failed) :
      Outcome e op ({ e.clearReceiveIf read with
        send := (e.clearReceiveIf read).send.clear, state := .writeClosed }, true)
  | shutClient (owner : SocketOwner) (handle : BitVec 64) (read write : Bool) (state : SocketState)
      (hop : op = .shutdown owner handle read write)
      (hclient : ¬ (e.serverPeer.isSome = true ∧ write = true))
      (hopen : e.state ≠ .closed ∧ e.state ≠ .failed)
      (hstate : SocketEntry.shutdownState read write e.state = some state) :
      Outcome e op ({ (e.clearReceiveIf read).clearSendIf write with state := state }, true)

/-- A call that fails a test is refused. -/
theorem Outcome.ite {e : SocketEntry} {op : SocketOp} {α : Type} {c : Prop} [Decidable c]
    {error : SocketError} {o : EntryOutcome α}
    (h : ¬ c → Outcome e op (reported o)) :
    Outcome e op (reported (if c then (e, .error error) else o)) := by
  split
  · exact .refused
  · rename_i hc
    exact h hc

namespace SocketEntry

variable (e : SocketEntry) {op : SocketOp} {requestId : BitVec 64}

theorem exchanging_iff : e.exchanging = true ↔ e.state = .connecting ∨ e.state = .established := by
  unfold exchanging
  rw [Bool.or_eq_true, beq_iff_eq, beq_iff_eq]

/-- `shutdown` of some direction is refused, or shuts the write side of a child
that has nothing to send, or follows the state table of a client. -/
theorem shutdown_cases {read write : Bool} (hflags : ¬ (read = false ∧ write = false)) :
    (∃ error, e.shutdown read write = (e, .error error))
      ∨ (e.state ≠ .closed ∧ e.state ≠ .failed)
        ∧ ((e.serverPeer.isSome = true ∧ write = true ∧ e.inFlightSend = 0
            ∧ e.shutdown read write = ({ e.clearReceiveIf read with
              send := (e.clearReceiveIf read).send.clear, state := .writeClosed }, .ok ()))
          ∨ (¬ (e.serverPeer.isSome = true ∧ write = true)
            ∧ ∃ state, shutdownState read write e.state = some state
              ∧ e.shutdown read write
                = ({ (e.clearReceiveIf read).clearSendIf write with state := state }, .ok ()))) := by
  unfold shutdown
  split
  · exact .inl ⟨_, rfl⟩
  rename_i hopen
  rw [not_or, not_or] at hopen
  split
  · exact .inl ⟨_, rfl⟩
  rename_i hbusy
  refine .inr ⟨⟨hopen.1, hopen.2.1⟩, ?_⟩
  split
  · rename_i hserver
    refine .inl ⟨hserver.1, hserver.2, ?_, rfl⟩
    by_contra hsend
    exact hbusy ⟨hserver.1, hserver.2, .inr hsend⟩
  · rename_i hclient
    have hnext : ∃ state, shutdownState read write e.state = some state := by
      cases read <;> cases write
      · exact absurd ⟨rfl, rfl⟩ hflags
      all_goals cases e.state <;> exact ⟨_, rfl⟩
    obtain ⟨state, hstate⟩ := hnext
    refine .inr ⟨hclient, state, hstate, ?_⟩
    dsimp only
    rw [hstate]

theorem failTransport_outcome (hop : op.Finishes requestId) (protocol : SocketProtocol) :
    Outcome e op (reported (e.failTransport protocol requestId)) := by
  refine .ite fun hok => ?_
  simp only [not_or, not_not] at hok
  exact .failed requestId hop hok.2.1 hok.2.2

theorem completeTransport_outcome (hop : op.Finishes requestId) (protocol : SocketProtocol)
    (response : Bytes) :
    Outcome e op (reported (e.completeTransport protocol requestId response)) := by
  refine .ite fun hok => ?_
  simp only [not_or, not_not, Bool.not_eq_false] at hok
  obtain ⟨hprotocol, hexchanging, hrequest, hsend⟩ := hok
  unfold reported
  dsimp only
  generalize (e.receive.push response).2 = pushed
  cases pushed with
  | error error =>
    exact .completed requestId hop _ .failed false hrequest hsend hexchanging (.inr (.inl rfl))
  | ok n =>
    dsimp only
    by_cases htcp : protocol = .tcpStream
    · rw [if_pos htcp]
      exact .completed requestId hop _ .established true hrequest hsend hexchanging (.inl rfl)
    · rw [if_neg htcp]
      exact .completed requestId hop _ e.state true hrequest hsend hexchanging
        (.inr (.inr ⟨rfl, hprotocol ▸ htcp⟩))

end SocketEntry

/-- **Every call on a handle has one of the outcomes.** -/
theorem entryCall_outcome {op : SocketOp} {f : SocketEntry → SocketEntry × Bool}
    (h : op.entryCall = some f) (e : SocketEntry) : Outcome e op (f e) := by
  cases op <;> cases h <;> dsimp only
  case connect owner handle target port =>
    refine .ite fun hok => ?_
    simp only [not_or, not_not] at hok
    exact .connected ⟨rfl, rfl, rfl, fun _ => rfl⟩ target port hok.2.2
  case bind owner handle localPort =>
    unfold reported SocketEntry.validateBind
    split
    · exact .refused
    rename_i hval
    split at hval
    · cases hval
    rename_i hok
    simp only [not_or, not_not] at hok
    exact .bound ⟨rfl, rfl, rfl, fun _ => rfl⟩ localPort hok.2.1
  case listen owner handle backlog =>
    refine .ite fun hok => ?_
    simp only [not_or, not_not, Nat.not_lt] at hok
    exact .listening ⟨rfl, rfl, rfl, fun _ => rfl⟩ backlog hok.2.1 hok.2.2.2
  case queueIncoming owner handle peer =>
    refine .ite fun hok => ?_
    simp only [not_or, not_not, Nat.not_le] at hok
    exact .queued owner handle peer rfl hok.1 hok.2.2.2.2
  case dropIncoming owner handle peer =>
    refine .ite fun hstate => ?_
    cases hposition : e.incomingPosition peer with
    | none => exact .refused
    | some position =>
      exact .dropped owner handle peer position rfl (not_not.mp hstate) hposition
  case markConnected owner handle =>
    exact .ite fun hstate => .established ⟨rfl, rfl, rfl, fun _ => rfl⟩ (not_not.mp hstate)
  case send owner handle data =>
    refine .ite fun hstate => .ite fun hroom => ?_
    exact .sent ⟨rfl, rfl, rfl, fun _ => rfl⟩ data _ (not_not.mp hstate) (Nat.not_lt.mp hroom)
  case beginTransport owner handle protocol requestId =>
    refine .ite fun hok => ?_
    simp only [not_or, Bool.not_eq_false, SocketEntry.exchanging_iff] at hok
    refine .launched requestId ⟨rfl, rfl, rfl, fun _ => rfl⟩ hok.2.2.2 ?_
    exact hok.2.2.1.imp_right .inl
  case completeTransport owner handle protocol requestId response =>
    exact e.completeTransport_outcome ⟨rfl, rfl, fun _ => rfl⟩ protocol response
  case failTransport owner handle protocol requestId =>
    exact e.failTransport_outcome ⟨rfl, rfl, fun _ => rfl⟩ protocol
  case beginServerSend owner handle requestId =>
    refine .ite fun hok => ?_
    simp only [not_or, not_and_or, not_not, Bool.not_eq_false] at hok
    exact .launched requestId ⟨rfl, rfl, rfl, fun _ => rfl⟩ hok.2.2 (.inr hok.2.1)
  case completeServerSend owner handle peer requestId =>
    refine .ite fun hok => ?_
    simp only [not_or, not_not] at hok
    exact .landed requestId ⟨rfl, rfl, fun _ => rfl⟩ hok.2.1 hok.2.2
  case markServerReadClosed owner handle peer =>
    have hop : (markServerReadClosed owner handle peer).Plain :=
      ⟨rfl, rfl, rfl, fun _ => rfl⟩
    refine .ite fun _ => ?_
    unfold reported
    split
    · rename_i hstate
      exact .readClosed hop .readClosed (.inr ⟨hstate, rfl⟩)
    · rename_i hstate
      exact .readClosed hop .writeClosed (.inl hstate.symm)
    · exact .readClosed hop e.state (.inl rfl)
    · exact .readClosed hop e.state (.inl rfl)
    · exact .refused
  case markServerClosed owner handle peer =>
    exact .ite fun _ => .abandoned rfl (fun _ => rfl) .closed (.inl rfl)
  case beginUdpSend owner handle requestId =>
    refine .ite fun hok => ?_
    simp only [not_or, not_not, Bool.not_eq_false] at hok
    exact .launched requestId ⟨rfl, rfl, rfl, fun _ => rfl⟩ hok.2.2 (.inr (.inl hok.2.1))
  case completeUdpSend owner handle requestId response =>
    refine .ite fun hok => ?_
    simp only [not_or, not_not] at hok
    obtain ⟨hprotocol, hstate, hrequest, hsend⟩ := hok
    have hop : (completeUdpSend owner handle requestId response).Finishes requestId :=
      ⟨rfl, rfl, fun _ => rfl⟩
    have hexchanging := e.exchanging_iff.mpr (.inr hstate)
    unfold reported
    dsimp only
    generalize (e.receive.push response).2 = pushed
    cases pushed with
    | error error =>
      exact .completed requestId hop _ .failed false hrequest hsend hexchanging
        (.inr (.inl rfl))
    | ok n =>
      exact .completed requestId hop _ e.state true hrequest hsend hexchanging (.inl hstate)
  case failUdpSend owner handle requestId =>
    exact e.failTransport_outcome ⟨rfl, rfl, fun _ => rfl⟩ .udp
  case takeSend owner handle room => exact .taken ⟨rfl, rfl, rfl, fun _ => rfl⟩ room _
  case pushReceive owner handle data =>
    exact .ite fun hstate => .arrived ⟨rfl, rfl, rfl, fun _ => rfl⟩ data _ (not_not.mp hstate)
  case receive owner handle room =>
    exact .ite fun hstate => .read ⟨rfl, rfl, rfl, fun _ => rfl⟩ room _ hstate
  case shutdown owner handle read write =>
    split
    · exact .refused
    rename_i hflags
    rcases e.shutdown_cases hflags with ⟨error, heq⟩ | ⟨hopen, ⟨hserver, rfl, hidle, heq⟩
      | ⟨hclient, state, hstate, heq⟩⟩
    · rw [heq]
      exact .refused
    · rw [heq]
      exact .shutServer owner handle read rfl hserver hidle hopen
    · rw [heq]
      exact .shutClient owner handle read write state rfl hclient hopen hstate
  case fail owner handle => exact .abandoned rfl (fun _ => rfl) .failed (.inr rfl)

end GenOS.Socket
