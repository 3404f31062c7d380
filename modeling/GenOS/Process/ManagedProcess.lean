/-
  GenOS.Process.ManagedProcess — one process and the resources it holds.

  Translates the record `ManagedProcess` of `userspace.rs` with its methods, and
  `file_snapshot.rs` and `request.rs`, whose tables it owns.  What the kernel
  does to physical memory is behind `Platform`: building an address space,
  destroying it, and copying bytes into the data page of a process.  Of the
  saved registers only `rax`, the result of the last call, is kept.
-/
import GenOS.Process.Endpoint
import GenOS.Socket.Queries
import GenOS.Vfs.RamVfs

namespace GenOS.Process

open GenOS.Lib GenOS.Vfs GenOS.Socket

/-! ## §1. Platform and constants. -/

/-- The memory side of the kernel, as the process manager calls it. -/
structure Platform where
  Machine : Type
  Space : Type
  /-- `build_process` with a pid, a token and an image: the address space of
  the new process. -/
  buildProcess : Machine → BitVec 8 → BitVec 64 → Bytes → Machine × Option Space
  /-- `destroy_user_address_space`; where it fails the kernel stops. -/
  destroy : Machine → Space → Machine
  /-- `valid_user_data_buffer`, for an address and a length. -/
  validUserDataBuffer : Machine → Space → BitVec 64 → BitVec 64 → Bool
  /-- `copy_to_user_data`. -/
  copyToUserData : Machine → Space → BitVec 64 → Bytes → Option Machine

/-- `MAX_ASYNC_PROCESSES`. -/
def maxAsyncProcesses : Nat := 4

/-- `HANDLE_TABLE_CAPACITY`. -/
def handleTableCapacity : Nat := 20

/-- `USER_FILE_HANDLE_CAPACITY`. -/
def fileHandleCapacity : Nat := 4

/-- `USER_PROCESS_HANDLE_CAPACITY`. -/
def processHandleCapacity : Nat := 3

/-- `USER_FILE_WRITE_MAX`. -/
def userFileWriteMax : Nat := 128

/-- `USER_FILE_RIGHT_READ`. -/
def userFileRightRead : BitVec 64 := 1

/-- `USER_FILE_RIGHT_WRITE`. -/
def userFileRightWrite : BitVec 64 := 2

/-- `USER_FILE_RIGHT_MANAGE`. -/
def userFileRightManage : BitVec 64 := 4

/-- `USER_FILE_RIGHTS_MASK`. -/
def userFileRightsMask : BitVec 64 := userFileRightRead ||| userFileRightWrite ||| userFileRightManage

/-- `USER_FILE_KIND_REGULAR`. -/
def userFileKindRegular : BitVec 64 := 1

/-- `USER_FILE_KIND_DIRECTORY`. -/
def userFileKindDirectory : BitVec 64 := 2

/-- `USER_ERROR_INVALID_ARGUMENT`, the code of `SyscallError::InvalidArgument`. -/
def invalidArgument : BitVec 64 := BitVec.allOnes 64 - 1

/-- `USER_ERROR_UNAVAILABLE`, the code of `SyscallError::Unavailable`. -/
def unavailable : BitVec 64 := BitVec.allOnes 64 - 2

/-- `USER_ERROR_WOULD_BLOCK`. -/
def userErrorWouldBlock : BitVec 64 := BitVec.allOnes 64 - 3

/-- `u64::saturating_add`. -/
def saturatingAdd64 (a b : BitVec 64) : BitVec 64 :=
  if a.toNat + b.toNat < 2 ^ 64 then a + b else BitVec.allOnes 64

/-- A test `word & bits != 0`. -/
def anyOf (word bits : BitVec 64) : Bool := word &&& bits != 0

/-! ## §2. Snapshots and request numbers. -/

/-- An entry of `FileSnapshots`: the sample one file handle owns. -/
structure Snapshot where
  handle : BitVec 64
  bytes : Bytes

/-- `FileSnapshots<FILE_HANDLE_CAPACITY>`. -/
abbrev FileSnapshots := Slots fileHandleCapacity Snapshot

/-- `readable`. -/
def readable {n : Nat} (handles : HandleTable n) (handle : BitVec 64) : Bool :=
  handles.allows handle .file userFileRightRead
    && !handles.allows handle .file userFileRightWrite
    && !handles.allows handle .file userFileRightManage

namespace FileSnapshots

variable {n : Nat} (s : FileSnapshots) (handle : BitVec 64)

/-- `size`. -/
def size : Option Nat :=
  (s.find fun entry => entry.handle == handle).map fun entry => entry.bytes.length

/-- `insert`. -/
def insert (bytes : Bytes) (handles : HandleTable n) : FileSnapshots × Bool :=
  if maxFileBytes < bytes.length ∨ readable handles handle = false ∨ (s.size handle).isSome then
    (s, false)
  else
    match s.firstFree with
    | none => (s, false)
    | some slot => (s.put slot ⟨handle, bytes⟩, true)

/-- `read`. -/
def read (handle offset capacity : BitVec 64) (handles : HandleTable n) : Option Bytes :=
  if readable handles handle = false then none
  else
    (s.find fun entry => entry.handle == handle).map fun entry =>
      let start := min offset.toNat entry.bytes.length
      (entry.bytes.drop start).take (min capacity.toNat (entry.bytes.length - start))

/-- `remove`. -/
def remove : FileSnapshots :=
  match s.position fun entry => entry.handle == handle with
  | none => s
  | some slot => s.drop slot

end FileSnapshots

/-- `RequestSequence::allocate`, on the next number. -/
def allocateRequest (next : BitVec 64) : Option (BitVec 64 × BitVec 64) :=
  if next = BitVec.allOnes 64 then none else some (next, next + 1)

/-! ## §3. Events, requests and waits. -/

/-- `FileWriteBuffer`. -/
@[ext] structure FileWriteBuffer where
  bytes : FixedBytes userFileWriteMax
  len : Nat
  fits : len ≤ userFileWriteMax
  deriving DecidableEq

namespace FileWriteBuffer

/-- `as_slice`. -/
def asSlice (b : FileWriteBuffer) : Bytes := b.bytes.slice 0 b.len

/-- The empty buffer with `data` copied to its front; longer data is cut. -/
def ofBytes (data : Bytes) : FileWriteBuffer :=
  ⟨FixedBytes.zero.patch 0 (data.take userFileWriteMax), min data.length userFileWriteMax,
    Nat.min_le_right ..⟩

end FileWriteBuffer

inductive LineKind where
  | prompt
  | output
  | error
  | status
  deriving DecidableEq, Repr

structure ProcessKey where
  slot : BitVec 8
  incarnation : BitVec 64
  deriving DecidableEq

/-- What a process asked for when its time slice ended. -/
inductive ProcessEvent where
  | none
  | yield
  | preempt
  | sleep (ticks : BitVec 64)
  | waitChild (pid : BitVec 8)
  | readFile (path : FixedText) (address capacity : BitVec 64)
  | readDirectory (handle cursor address length : BitVec 64)
  | openFile (path : FixedText) (rights : BitVec 64)
  | readHandle (handle address capacity : BitVec 64)
  | statHandle (handle address length : BitVec 64)
  | closeHandle (handle : BitVec 64)
  | writeHandle (handle : BitVec 64) (data : FileWriteBuffer)
  | truncateHandle (handle : BitVec 64)
  | createDirectory (parent : BitVec 64) (name : FixedText)
  | removePath (parent : BitVec 64) (name : FixedText)
  | processLaunch (supervisor image mode : BitVec 64)
  | processStatus (handle address length : BitVec 64)
  | processKill (handle : BitVec 64)
  | processReap (handle address length : BitVec 64)
  | waitInput (address length mask : BitVec 64)
  | createEndpoint
  | connectEndpoint (pid : BitVec 8)
  | sendEndpoint (handle value : BitVec 64)
  | receiveEndpoint (handle address length : BitVec 64)
  | closeEndpoint (handle : BitVec 64)
  | consoleWrite (handle : BitVec 64) (text : FixedText) (kind : LineKind)
  | consoleSetInput (handle : BitVec 64) (text : FixedText)
  | consoleClear (handle : BitVec 64)
  | socketOpen (protocol : BitVec 64)
  | socketConnect (handle : BitVec 64) (target : BitVec 32) (port : BitVec 16)
  | socketBind (handle : BitVec 64) (port : BitVec 16)
  | socketListen (handle backlog : BitVec 64)
  | socketAccept (handle : BitVec 64)
  | socketSend (handle : BitVec 64) (data : FileWriteBuffer)
  | socketReceive (handle address capacity : BitVec 64)
  | socketStatus (handle address length : BitVec 64)
  | socketWait (handle readiness timeoutTicks : BitVec 64)
  | socketShutdown (handle direction : BitVec 64)
  | socketClose (handle : BitVec 64)
  | exit
  | fault
  deriving DecidableEq

inductive ManagedState where
  | ready
  | sleeping
  | waiting
  | exited
  | faulted
  | killed
  deriving DecidableEq, Repr

inductive BlockReason where
  | none
  | endpoint
  | child (key : ProcessKey)
  | fileOpen
  | fileRead
  | fileWrite
  | fileTruncate
  | processLaunch
  | directoryRead
  | directoryCreate
  | pathRemove
  | input
  | socket
  deriving DecidableEq

structure PendingProcessLaunch where
  requestId : BitVec 64
  image : BitVec 64
  mode : BitVec 64
  deriving DecidableEq

structure PendingFileRead where
  requestId : BitVec 64
  handle : BitVec 64
  path : FixedText
  offset : BitVec 64
  address : BitVec 64
  capacity : BitVec 64

structure PendingFileOpen where
  requestId : BitVec 64
  path : FixedText
  rights : BitVec 64
  deriving DecidableEq

structure PendingFileWrite where
  requestId : BitVec 64
  handle : BitVec 64
  path : FixedText
  offset : BitVec 64
  data : FileWriteBuffer

structure PendingFileTruncate where
  requestId : BitVec 64
  handle : BitVec 64
  path : FixedText
  deriving DecidableEq

structure PendingDirectoryRead where
  requestId : BitVec 64
  path : FixedText
  handle : BitVec 64
  cursor : BitVec 64
  address : BitVec 64
  length : BitVec 64

structure PendingNamespaceMutation where
  requestId : BitVec 64
  parent : FixedText
  target : FixedText
  handle : BitVec 64
  deriving DecidableEq

structure PendingInput where
  address : BitVec 64
  length : BitVec 64
  mask : BitVec 64

structure PendingSocketWait where
  handle : BitVec 64
  readiness : BitVec 64
  deadline : BitVec 64

structure FileCapability where
  handle : BitVec 64
  path : FixedText
  offset : BitVec 64
  size : BitVec 64
  kind : BitVec 64
  rights : BitVec 64
  snapshot : Bool

structure ProcessCapability where
  handle : BitVec 64
  target : ProcessKey
  deriving DecidableEq

structure FileOpenInfo where
  size : BitVec 64
  kind : BitVec 64

/-! ## §4. The process. -/

structure UserProcess (P : Platform) where
  pid : BitVec 8
  space : P.Space
  rax : BitVec 64
  event : ProcessEvent
  exitCode : BitVec 8
  preemptions : BitVec 64
  faultVector : BitVec 8
  output : FixedText
  outputPending : Bool
  consoleHandle : BitVec 64
  lifecycleHandle : BitVec 64
  framesReleased : Bool
  killed : Bool
  completed : Bool

structure ManagedProcess (P : Platform) where
  key : ProcessKey
  taskId : BitVec 32
  parentKey : Option ProcessKey
  consoleProcess : Bool
  supervisor : Bool
  state : ManagedState
  wakeAt : BitVec 64
  blockedOn : BlockReason
  /-- The next number of `request_ids`. -/
  requestIds : BitVec 64
  handles : HandleTable handleTableCapacity
  fileHandles : Slots fileHandleCapacity FileCapability
  fileSnapshots : FileSnapshots
  nextFileGeneration : BitVec 64
  endpoints : EndpointState
  sockets : SocketSet
  pendingFileOpen : Option PendingFileOpen
  pendingFileRead : Option PendingFileRead
  pendingFileWrite : Option PendingFileWrite
  pendingFileTruncate : Option PendingFileTruncate
  pendingDirectoryRead : Option PendingDirectoryRead
  pendingNamespaceMutation : Option PendingNamespaceMutation
  pendingProcessLaunch : Option PendingProcessLaunch
  processHandles : Slots processHandleCapacity ProcessCapability
  pendingInput : Option PendingInput
  pendingSocketWait : Option PendingSocketWait
  process : UserProcess P

/-- The process `build_process` returns. -/
def UserProcess.built {P : Platform} (pid : BitVec 8) (space : P.Space) : UserProcess P where
  pid := pid
  space := space
  rax := 0
  event := .none
  exitCode := BitVec.allOnes 8
  preemptions := 0
  faultVector := 0
  output := FixedText.empty
  outputPending := false
  consoleHandle := 0
  lifecycleHandle := 0
  framesReleased := false
  killed := false
  completed := false

namespace ManagedProcess

variable {P : Platform} (p : ManagedProcess P)

/-- `socket_owner`. -/
def socketOwner : SocketOwner := ⟨p.key.slot, p.key.incarnation⟩

/-- The registration `new` makes for a handle that is not zero. -/
def registerInitial (handles : HandleTable handleTableCapacity) (handle : BitVec 64)
    (kind : HandleKind) : HandleTable handleTableCapacity :=
  if handle ≠ 0 then (handles.register handle kind handleRightUse).1 else handles

/-- `new`. -/
def new (key : ProcessKey) (taskId : BitVec 32) (parentKey : Option ProcessKey)
    (process : UserProcess P) : ManagedProcess P where
  key := key
  taskId := taskId
  parentKey := parentKey
  consoleProcess := process.consoleHandle ≠ 0
  supervisor := process.lifecycleHandle ≠ 0
  state := .ready
  wakeAt := 0
  blockedOn := .none
  requestIds := 1
  handles := registerInitial (registerInitial Slots.empty process.consoleHandle .console)
    process.lifecycleHandle .lifecycle
  fileHandles := Slots.empty
  fileSnapshots := Slots.empty
  nextFileGeneration := 1
  endpoints := EndpointState.new process.pid
  sockets := SocketSet.new
  pendingFileOpen := none
  pendingFileRead := none
  pendingFileWrite := none
  pendingFileTruncate := none
  pendingDirectoryRead := none
  pendingNamespaceMutation := none
  pendingProcessLaunch := none
  processHandles := Slots.empty
  pendingInput := none
  pendingSocketWait := none
  process := process

/-- `rax = value; state = Ready`, the end of every call that does not block. -/
def reply (value : BitVec 64) : ManagedProcess P :=
  { p with state := .ready, process := { p.process with rax := value } }

/-- `reply` of a call that had blocked. -/
def wake (value : BitVec 64) : ManagedProcess P := { p.reply value with blockedOn := .none }

/-- `state = Waiting; blocked_on = reason`. -/
def block (reason : BlockReason) : ManagedProcess P :=
  { p with state := .waiting, blockedOn := reason }

/-! ### File handles. -/

/-- The test of `allocate_file_handle` on a snapshot. -/
def snapshotMismatch (info : FileOpenInfo) (rights : BitVec 64) (bytes : Bytes) : Bool :=
  rights != userFileRightRead || info.kind != userFileKindRegular
    || info.size != BitVec.ofNat 64 bytes.length

/-- A file handle: pid, generation and slot. -/
def fileHandleValue (pid : BitVec 8) (generation : BitVec 64) (slot : Nat) : BitVec 64 :=
  (pid.setWidth 64 <<< 56) ||| (generation <<< 8) ||| BitVec.ofNat 64 (slot + 1)

variable (handle : BitVec 64)

/-- The snapshot table after `allocate_file_handle` attached its sample. -/
def attachSnapshot (handles : HandleTable handleTableCapacity) : Option Bytes → FileSnapshots × Bool
  | none => (p.fileSnapshots, true)
  | some bytes => p.fileSnapshots.insert handle bytes handles

/-- `allocate_file_handle`. -/
def allocateFileHandle (path : FixedText) (info : FileOpenInfo) (rights : BitVec 64)
    (snapshot : Option Bytes) : ManagedProcess P × Option (BitVec 64) :=
  if rights = 0 ∨ rights &&& ~~~ userFileRightsMask ≠ 0 then (p, none)
  else if snapshot.any (snapshotMismatch info rights) then (p, none)
  else
    match p.fileHandles.firstFree with
    | none => (p, none)
    | some slot =>
      let handle := fileHandleValue p.process.pid p.nextFileGeneration slot
      let p := { p with nextFileGeneration := saturatingAdd64 p.nextFileGeneration 1 }
      match p.handles.register handle .file rights with
      | (_, false) => (p, none)
      | (handles, true) =>
        match p.attachSnapshot handle handles snapshot with
        | (_, false) => ({ p with handles := (handles.unregister handle .file).1 }, none)
        | (snapshots, true) =>
          ({ p with
              handles := handles
              fileSnapshots := snapshots
              fileHandles := p.fileHandles.put slot
                ⟨handle, path, 0, info.size, info.kind, rights, snapshot.isSome⟩ },
            some handle)

/-- `allocate_request_id`. -/
def allocateRequestId : ManagedProcess P × Option (BitVec 64) :=
  match allocateRequest p.requestIds with
  | none => (p, none)
  | some (requestId, next) => ({ p with requestIds := next }, some requestId)

/-- `file_handle`. -/
def fileHandle (handle requiredRights : BitVec 64) : Option FileCapability :=
  if p.handles.allows handle .file requiredRights then
    p.fileHandles.find fun capability => capability.handle == handle
  else none

/-- The assignment through `file_handle_mut`. -/
def updateFileHandle (handle requiredRights : BitVec 64) (f : FileCapability → FileCapability) :
    ManagedProcess P :=
  if p.handles.allows handle .file requiredRights then
    match p.fileHandles.position fun capability => capability.handle == handle with
    | none => p
    | some slot =>
      match p.fileHandles slot with
      | none => p
      | some capability => { p with fileHandles := p.fileHandles.put slot (f capability) }
  else p

/-- `close_file_handle`. -/
def closeFileHandle : ManagedProcess P × Bool :=
  match p.fileHandles.position fun capability => capability.handle == handle with
  | none => (p, false)
  | some slot =>
    match p.handles.unregister handle .file with
    | (_, false) => (p, false)
    | (handles, true) =>
      ({ p with
          handles := handles
          fileHandles := p.fileHandles.drop slot
          fileSnapshots := p.fileSnapshots.remove handle }, true)

/-! ### Process handles. -/

/-- `PROCESS_HANDLE_GENERATION_MAX`. -/
def processHandleGenerationMax : BitVec 64 := 0xffffffffffff

/-- A process handle: tag, generation and slot. -/
def processHandleValue (generation : BitVec 64) (slot : Nat) : BitVec 64 :=
  (0xd1#64 <<< 56) ||| (generation <<< 8) ||| BitVec.ofNat 64 (slot + 1)

/-- `allocate_process_handle`. The second component is the counter
`NEXT_PROCESS_HANDLE_GENERATION` after the call. -/
def allocateProcessHandle (nextGeneration : BitVec 64) (target : ProcessKey) :
    ManagedProcess P × BitVec 64 × Option (BitVec 64) :=
  match p.processHandles.firstFree with
  | none => (p, nextGeneration, none)
  | some slot =>
    if processHandleGenerationMax ≤ nextGeneration then (p, nextGeneration, none)
    else if nextGeneration = 0 then (p, nextGeneration + 1, none)
    else
      let handle := processHandleValue nextGeneration slot
      match p.handles.register handle .process handleRightUse with
      | (_, false) => (p, nextGeneration + 1, none)
      | (handles, true) =>
        ({ p with handles := handles, processHandles := p.processHandles.put slot ⟨handle, target⟩ },
          nextGeneration + 1, some handle)

/-- `process_capability`. -/
def processCapability : Option ProcessCapability :=
  if handle &&& (0xff#64 <<< 56) ≠ 0xd1#64 <<< 56
      ∨ p.handles.allows handle .process handleRightUse = false then none
  else p.processHandles.find fun capability => capability.handle == handle

/-- `close_process_handle`. -/
def closeProcessHandle : ManagedProcess P × Bool :=
  match p.processHandles.position fun capability => capability.handle == handle with
  | none => (p, false)
  | some slot =>
    match p.handles.unregister handle .process with
    | (_, false) => (p, false)
    | (handles, true) =>
      ({ p with handles := handles, processHandles := p.processHandles.drop slot }, true)

/-! ### Revocation. -/

/-- `revoke_resources`. -/
def revokeResources : ManagedProcess P :=
  { p with
    sockets := (p.sockets.closeOwner p.socketOwner).1
    handles := Slots.empty
    fileHandles := Slots.empty
    fileSnapshots := Slots.empty
    endpoints := p.endpoints.clearPayload
    pendingFileOpen := none
    pendingFileRead := none
    pendingFileWrite := none
    pendingFileTruncate := none
    pendingDirectoryRead := none
    pendingNamespaceMutation := none
    pendingProcessLaunch := none
    processHandles := Slots.empty
    pendingInput := none
    pendingSocketWait := none
    process := { p.process with consoleHandle := 0, lifecycleHandle := 0 } }

end ManagedProcess

end GenOS.Process
