/-
  GenOS.Process.SocketCalls — socket calls of one process.

  A call reaches the socket set of the process only through a handle that the
  registry allows as a socket.  A socket that was opened or accepted is
  registered at once, or closed again if the registry refuses it.
-/
import GenOS.Process.FileRequests

namespace GenOS.Process

open GenOS.Lib GenOS.Vfs GenOS.Socket

/-! ## §1. Results. -/

/-- `socket_error_code`. -/
def socketErrorCode : SocketError → BitVec 64
  | .invalidHandle | .invalidState => invalidArgument
  | .wouldBlock => userErrorWouldBlock
  | .capacity | .unavailable => unavailable

/-- `result.map_or_else(socket_error_code, value)`. -/
def socketResult {α : Type} (value : α → BitVec 64) : Except SocketError α → BitVec 64
  | .ok a => value a
  | .error error => socketErrorCode error

/-- `USER_SOCKET_READY_MASK`. -/
def userSocketReadyMask : BitVec 64 :=
  socketReadyReadable ||| socketReadyWritable ||| socketReadyConnected ||| socketReadyClosed
    ||| socketReadyError ||| socketReadyAccept

/-- `USER_SOCKET_SHUTDOWN_READ`. -/
def userSocketShutdownRead : BitVec 64 := 1

/-- `USER_SOCKET_SHUTDOWN_WRITE`. -/
def userSocketShutdownWrite : BitVec 64 := 2

/-- The bytes of a `UserSocketStatus`. -/
def socketStatusBytes (status : SocketStatus) : Bytes :=
  leBytes 8 status.protocol.raw ++ leBytes 8 status.state.raw ++ wordBytes status.readiness
    ++ leBytes 8 status.queuedSend ++ leBytes 8 status.queuedReceive

namespace ManagedProcess

variable {P : Platform} (p : ManagedProcess P)

/-! ## §2. Calls on a handle. -/

variable (handle : BitVec 64)

/-- `handles.allows(handle, HandleKind::Socket, HANDLE_RIGHT_USE)`. -/
def holdsSocket : Bool := p.handles.allows handle .socket handleRightUse

/-- An operation on the socket set, if the registry allows the handle. -/
def socketCall {α : Type} (operation : SocketSet → SocketOutcome α) :
    ManagedProcess P × Except SocketError α :=
  if p.holdsSocket handle then
    match operation p.sockets with
    | (sockets, result) => ({ p with sockets := sockets }, result)
  else (p, .error .invalidHandle)

/-- A call whose result is only its value. -/
def socketReply {α : Type} (value : α → BitVec 64) (operation : SocketSet → SocketOutcome α) :
    ManagedProcess P :=
  match p.socketCall handle operation with
  | (p, result) => p.reply (socketResult value result)

/-- `complete_socket_connect`. -/
def completeSocketConnect (target : BitVec 32) (port : BitVec 16) : ManagedProcess P :=
  p.socketReply handle (fun _ => 0) fun s => s.connect p.socketOwner handle target port

/-- The validation of `complete_socket_bind`. -/
def validateBind (handle : BitVec 64) (port : BitVec 16) : Except SocketError Unit :=
  if p.holdsSocket handle then p.sockets.validateBind p.socketOwner handle port
  else .error .invalidHandle

/-- `complete_socket_bind`, given whether the port is available in every
process. -/
def completeSocketBind (portAvailable : Bool) (handle : BitVec 64) (port : BitVec 16) :
    ManagedProcess P :=
  match p.validateBind handle port with
  | .error error => p.reply (socketErrorCode error)
  | .ok () =>
    if portAvailable = false then p.reply (socketErrorCode .unavailable)
    else
      match p.sockets.bind p.socketOwner handle port with
      | (sockets, result) => { p with sockets := sockets }.reply (socketResult (fun _ => 0) result)

/-- `complete_socket_listen`. -/
def completeSocketListen (handle backlog : BitVec 64) : ManagedProcess P :=
  p.socketReply handle (fun _ => 0) fun s => s.listen p.socketOwner handle backlog.toNat

/-- `complete_socket_send`. -/
def completeSocketSend (data : FileWriteBuffer) : ManagedProcess P :=
  p.socketReply handle (BitVec.ofNat 64) fun s => s.send p.socketOwner handle data.asSlice

/-- `complete_socket_shutdown`. -/
def completeSocketShutdown (handle direction : BitVec 64) : ManagedProcess P :=
  p.socketReply handle (fun _ => 0) fun s =>
    s.shutdown p.socketOwner handle (anyOf direction userSocketShutdownRead)
      (anyOf direction userSocketShutdownWrite)

/-- `complete_socket_receive`. The bytes leave the socket before they are
copied. -/
def completeSocketReceive (machine : P.Machine) (handle address capacity : BitVec 64) :
    P.Machine × ManagedProcess P :=
  match p.socketCall handle fun s => s.receive p.socketOwner handle capacity.toNat with
  | (p, .error error) => (machine, p.reply (socketErrorCode error))
  | (p, .ok bytes) =>
    match P.copyToUserData machine p.process.space address bytes with
    | none => (machine, p.reply invalidArgument)
    | some machine => (machine, p.reply (BitVec.ofNat 64 bytes.length))

/-- The status of a socket the process holds. -/
def socketStatus : Except SocketError SocketStatus :=
  if p.holdsSocket handle then p.sockets.status p.socketOwner handle else .error .invalidHandle

/-- `complete_socket_status`. -/
def completeSocketStatus (machine : P.Machine) (handle address length : BitVec 64) :
    P.Machine × ManagedProcess P :=
  match p.socketStatus handle with
  | .error error => (machine, p.reply (socketErrorCode error))
  | .ok status =>
    if length.toNat ≠ (socketStatusBytes status).length then (machine, p.reply invalidArgument)
    else
      match P.copyToUserData machine p.process.space address (socketStatusBytes status) with
      | none => (machine, p.reply invalidArgument)
      | some machine => (machine, p.reply length)

/-- `complete_socket_wait`. -/
def completeSocketWait (handle readiness timeoutTicks tick : BitVec 64) : ManagedProcess P :=
  match p.socketStatus handle with
  | .error error => p.reply (socketErrorCode error)
  | .ok status =>
    let observed := status.readiness &&& readiness &&& userSocketReadyMask
    if observed ≠ 0 then p.reply observed
    else
      { p.block .socket with
        pendingSocketWait := some ⟨handle, readiness, saturatingAdd64 tick timeoutTicks⟩ }

/-! ## §3. Opening and closing. -/

/-- Register a socket that was just made, or close it again. -/
def adoptSocket : Except SocketError (BitVec 64) → ManagedProcess P
  | .error error => p.reply (socketErrorCode error)
  | .ok handle =>
    match p.handles.register handle .socket handleRightUse with
    | (handles, true) => { p with handles := handles }.reply handle
    | (_, false) =>
      { p with sockets := (p.sockets.close p.socketOwner handle).1 }.reply unavailable

/-- `complete_socket_open`. -/
def completeSocketOpen (protocol : BitVec 64) : ManagedProcess P :=
  match SocketProtocol.fromRaw protocol with
  | none => p.reply (socketErrorCode .invalidState)
  | some protocol =>
    match p.sockets.openSocket p.socketOwner protocol with
    | (sockets, result) => { p with sockets := sockets }.adoptSocket result

/-- `complete_socket_accept`. -/
def completeSocketAccept : ManagedProcess P :=
  match p.socketCall handle fun s => s.accept p.socketOwner handle with
  | (p, result) => p.adoptSocket result

/-- `complete_socket_close`. -/
def completeSocketClose : ManagedProcess P :=
  match p.socketCall handle fun s => s.close p.socketOwner handle with
  | (p, .error error) => p.reply (socketErrorCode error)
  | (p, .ok ()) => { p with handles := (p.handles.unregister handle .socket).1 }.reply 0

end ManagedProcess

end GenOS.Process
