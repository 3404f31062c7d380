/-
  GenOS.Socket.Queries — what the process manager asks a socket set.

  The reading half of `socket.rs`: readiness and status of one socket, and the
  search for a local port.
-/
import GenOS.Lib.Slots
import GenOS.Socket.SocketSet

namespace GenOS.Socket

open GenOS.Lib

/-! ## §1. Status of one socket. -/

/-- `USER_SOCKET_READY_READABLE`. -/
def socketReadyReadable : BitVec 64 := 1

/-- `USER_SOCKET_READY_WRITABLE`. -/
def socketReadyWritable : BitVec 64 := 2

/-- `USER_SOCKET_READY_CONNECTED`. -/
def socketReadyConnected : BitVec 64 := 4

/-- `USER_SOCKET_READY_CLOSED`. -/
def socketReadyClosed : BitVec 64 := 8

/-- `USER_SOCKET_READY_ERROR`. -/
def socketReadyError : BitVec 64 := 16

/-- `USER_SOCKET_READY_ACCEPT`. -/
def socketReadyAccept : BitVec 64 := 32

/-- `SocketProtocol::from_raw`. -/
def SocketProtocol.fromRaw (value : BitVec 64) : Option SocketProtocol :=
  if value = 1 then some .udp else if value = 2 then some .tcpStream else none

/-- The discriminant of the protocol. -/
def SocketProtocol.raw : SocketProtocol → Nat
  | .udp => 1
  | .tcpStream => 2

/-- The discriminant of the state. -/
def SocketState.raw : SocketState → Nat
  | .opened => 1
  | .connecting => 2
  | .established => 3
  | .readClosed => 4
  | .writeClosed => 5
  | .closed => 6
  | .failed => 7
  | .bound => 8
  | .listening => 9

structure SocketStatus where
  protocol : SocketProtocol
  state : SocketState
  readiness : BitVec 64
  queuedSend : Nat
  queuedReceive : Nat

namespace SocketEntry

/-- One `if condition { readiness |= bit }`. -/
def flag (condition : Bool) (bit : BitVec 64) : BitVec 64 := if condition then bit else 0

/-- The states in which nothing may be sent. -/
def sendClosed : SocketState → Bool
  | .writeClosed | .closed | .failed | .bound | .listening => true
  | _ => false

/-- The states that report `SOCKET_READY_CLOSED`. -/
def someSideClosed : SocketState → Bool
  | .readClosed | .writeClosed | .closed | .failed => true
  | _ => false

/-- `status`. -/
def status (e : SocketEntry) : SocketStatus where
  protocol := e.protocol
  state := e.state
  readiness :=
    flag (e.receive.len ≠ 0) socketReadyReadable
      ||| flag (e.state = .listening ∧ e.backlogLen ≠ 0) (socketReadyReadable ||| socketReadyAccept)
      ||| flag (e.send.len + e.inFlightSend < socketBufferCapacity ∧ sendClosed e.state = false)
        socketReadyWritable
      ||| flag (e.state = .established) socketReadyConnected
      ||| flag (someSideClosed e.state) socketReadyClosed
      ||| flag (e.state = .failed) socketReadyError
  queuedSend := e.send.len + e.inFlightSend
  queuedReceive := e.receive.len

end SocketEntry

/-! ## §2. Questions to a set. -/

namespace SocketSet

section Handles

variable (s : SocketSet) (owner : SocketOwner) (handle : BitVec 64)

/-- `status`. -/
def status : Except SocketError SocketStatus :=
  match s.entry owner handle with
  | .ok e => .ok e.status
  | .error error => .error error

end Handles

/-- The entries as a table. -/
def table (s : SocketSet) : Slots socketCapacity SocketEntry := s.entries

/-- `owns_local_port`. -/
def ownsLocalPort (s : SocketSet) (localPort : BitVec 16) : Bool :=
  s.table.values.any fun e =>
    e.protocol = .tcpStream && e.localPort == localPort
      && (e.state = .bound || e.state = .listening)

end SocketSet

end GenOS.Socket
