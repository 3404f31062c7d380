/-
  GenOS.Process.FileRequests — file calls of one process.

  A file call either answers at once or parks the process with a numbered
  request for the file-system coordinator, and a completion wakes it.  A
  completion carries the whole request back; it is accepted only while the
  process still waits for exactly that request and still holds the capability.
  The functions here work on the calling process alone; those that copy bytes
  to the process also pass the machine.
-/
import GenOS.Process.ManagedProcess

namespace GenOS.Process

open GenOS.Lib GenOS.Vfs GenOS.Socket

/-! ## §1. Requests. -/

inductive LaunchError where
  | imageUnavailable
  | processBuildFailed
  | processFaulted
  | invalidResult
  | processTableFull
  deriving DecidableEq, Repr

/-- The process a request belongs to: `owner_slot`, `owner_instance`, `task_id`
and `pid`. -/
structure RequestOwner where
  ownerSlot : BitVec 8
  ownerInstance : BitVec 64
  taskId : BitVec 32
  pid : BitVec 8
  deriving DecidableEq

structure FileOpenRequest extends RequestOwner where
  requestId : BitVec 64
  path : FixedText
  rights : BitVec 64
  deriving DecidableEq

structure FileReadRequest extends RequestOwner where
  requestId : BitVec 64
  path : FixedText
  handle : BitVec 64
  offset : BitVec 64
  capacity : BitVec 64
  deriving DecidableEq

structure FileWriteRequest extends RequestOwner where
  requestId : BitVec 64
  path : FixedText
  handle : BitVec 64
  offset : BitVec 64
  data : FileWriteBuffer
  deriving DecidableEq

structure FileTruncateRequest extends RequestOwner where
  requestId : BitVec 64
  path : FixedText
  handle : BitVec 64
  deriving DecidableEq

structure DirectoryReadRequest extends RequestOwner where
  requestId : BitVec 64
  path : FixedText
  handle : BitVec 64
  cursor : BitVec 64
  deriving DecidableEq

structure NamespaceMutationRequest extends RequestOwner where
  requestId : BitVec 64
  parent : FixedText
  target : FixedText
  handle : BitVec 64
  deriving DecidableEq

inductive UserVfsRequest where
  | openFile (request : FileOpenRequest)
  | read (request : FileReadRequest)
  | write (request : FileWriteRequest)
  | truncate (request : FileTruncateRequest)
  | readDirectory (request : DirectoryReadRequest)
  | createDirectory (request : NamespaceMutationRequest)
  | removePath (request : NamespaceMutationRequest)
  deriving DecidableEq

/-- The parked read is the one of the request. -/
def PendingFileRead.isFor (pending : PendingFileRead) (request : FileReadRequest) : Bool :=
  pending.requestId == request.requestId && pending.path == request.path
    && pending.handle == request.handle && pending.offset == request.offset
    && pending.capacity == request.capacity

/-- The parked write is the one of the request. -/
def PendingFileWrite.isFor (pending : PendingFileWrite) (request : FileWriteRequest) : Bool :=
  pending.requestId == request.requestId && pending.handle == request.handle
    && pending.path == request.path && pending.offset == request.offset
    && pending.data == request.data

/-- The parked directory read is the one of the request. -/
def PendingDirectoryRead.isFor (pending : PendingDirectoryRead) (request : DirectoryReadRequest) :
    Bool :=
  pending.requestId == request.requestId && pending.path == request.path
    && pending.handle == request.handle && pending.cursor == request.cursor

/-- A 64-bit word in memory. -/
def wordBytes (word : BitVec 64) : Bytes := leBytes 8 word.toNat

/-- The bytes of a `UserFileStat`. -/
def fileStatBytes (capability : FileCapability) : Bytes :=
  wordBytes capability.size ++ wordBytes capability.offset ++ wordBytes capability.kind
    ++ wordBytes capability.rights

namespace ManagedProcess

variable {P : Platform} (p : ManagedProcess P)

/-- The identity a request of this process carries. -/
def requestOwner : RequestOwner := ⟨p.key.slot, p.key.incarnation, p.taskId, p.process.pid⟩

/-- The test by which a completion finds its process. -/
def isOwner (owner : RequestOwner) : Bool :=
  p.key.slot == owner.ownerSlot && p.key.incarnation == owner.ownerInstance
    && p.taskId == owner.taskId && p.process.pid == owner.pid

/-- The process waits for `reason`. -/
def awaits (reason : BlockReason) : Bool :=
  p.state == .waiting && p.blockedOn == reason && !p.process.completed

/-- Take a request number and continue, or answer that there is none. -/
def withRequestId {α : Type} (f : ManagedProcess P → BitVec 64 → ManagedProcess P × Option α) :
    ManagedProcess P × Option α :=
  match p.allocateRequestId with
  | (p, none) => (p.reply unavailable, none)
  | (p, some requestId) => f p requestId

/-! ## §2. Opening. -/

variable (path : FixedText) (rights : BitVec 64)

/-- The refusals of `block_file_open`. -/
def openDenied : Bool :=
  let writable := anyOf rights userFileRightWrite
  let manageable := anyOf rights userFileRightManage
  rights == 0 || anyOf rights (~~~ userFileRightsMask) || (writable && manageable)
    || (writable && !isUserWritablePath path.asStr)
    || (manageable && (!anyOf rights userFileRightRead || !isUserWritableDirectory path.asStr))

/-- `block_file_open`. -/
def blockFileOpen : ManagedProcess P × Option FileOpenRequest :=
  if openDenied path rights then (p.reply invalidArgument, none)
  else
    p.withRequestId fun p requestId =>
      ({ p.block .fileOpen with pendingFileOpen := some ⟨requestId, path, rights⟩ },
        some ⟨p.requestOwner, requestId, path, rights⟩)

/-- The test of `complete_file_open_inner` on the opened node. -/
def openableAs (info : FileOpenInfo) : Bool :=
  if info.kind = userFileKindRegular then !anyOf rights userFileRightManage
  else if info.kind = userFileKindDirectory then
    anyOf rights userFileRightRead && !anyOf rights userFileRightWrite
  else false

/-- The handle `complete_file_open_inner` makes. -/
def openHandle (request : FileOpenRequest) (info : Option FileOpenInfo) (snapshot : Option Bytes) :
    ManagedProcess P × Option (BitVec 64) :=
  match info.filter (openableAs request.rights) with
  | none => (p, none)
  | some info => p.allocateFileHandle request.path info request.rights snapshot

/-- `complete_file_open_inner`. -/
def completeFileOpenInner (request : FileOpenRequest) (info : Option FileOpenInfo)
    (snapshot : Option Bytes) : ManagedProcess P × Except LaunchError Unit :=
  if p.awaits .fileOpen = false
      ∨ p.pendingFileOpen ≠ some ⟨request.requestId, request.path, request.rights⟩ then
    (p, .error .invalidResult)
  else
    match { p with pendingFileOpen := none }.openHandle request info snapshot with
    | (p, handle) => (p.wake (handle.getD unavailable), .ok ())

/-! ## §3. Reading. -/

/-- `block_file_read`, the call that names a path. -/
def blockFileRead (address capacity : BitVec 64) : ManagedProcess P × Option FileReadRequest :=
  p.withRequestId fun p requestId =>
    ({ p.block .fileRead with pendingFileRead := some ⟨requestId, 0, path, 0, address, capacity⟩ },
      some ⟨p.requestOwner, requestId, path, 0, 0, capacity⟩)

/-- `block_file_handle_read`. -/
def blockFileHandleRead (handle address capacity : BitVec 64) :
    ManagedProcess P × Option FileReadRequest :=
  match (p.fileHandle handle userFileRightRead).filter (fun capability =>
      capability.kind == userFileKindRegular && anyOf capability.rights userFileRightRead) with
  | none => (p.reply invalidArgument, none)
  | some capability =>
    p.withRequestId fun p requestId =>
      ({ p.block .fileRead with
          pendingFileRead :=
            some ⟨requestId, handle, capability.path, capability.offset, address, capacity⟩ },
        some ⟨p.requestOwner, requestId, capability.path, handle, capability.offset, capacity⟩)

/-- Whether the read is served from a snapshot; `none` if the capability is
gone or has moved. -/
def readsSnapshot (pending : PendingFileRead) : Option Bool :=
  if pending.handle ≠ 0 then
    match p.fileHandle pending.handle userFileRightRead with
    | none => none
    | some capability =>
      if capability.path ≠ pending.path ∨ capability.offset ≠ pending.offset then none
      else some capability.snapshot
  else some false

variable (machine : P.Machine)

/-- Copy at most `capacity` bytes to the process: the machine after it and the
number of bytes. -/
def copyRead (pending : PendingFileRead) (bytes : Bytes) : P.Machine × Option (BitVec 64) :=
  let length := min bytes.length pending.capacity.toNat
  if length = 0 then (machine, some 0)
  else
    match P.copyToUserData machine p.process.space pending.address (bytes.take length) with
    | none => (machine, none)
    | some machine => (machine, some (BitVec.ofNat 64 length))

/-- The new offset of a read handle. -/
def advanceRead (count : BitVec 64) (capability : FileCapability) : FileCapability :=
  { capability with
    offset := if saturatingAdd64 capability.offset count < capability.size then
        saturatingAdd64 capability.offset count
      else capability.size }

/-- The assignment of `complete_file_read` to the handle it read. -/
def advanceReadHandle (pending : PendingFileRead) (count : Option (BitVec 64)) : ManagedProcess P :=
  if pending.handle ≠ 0 then
    p.updateFileHandle pending.handle userFileRightRead (advanceRead (count.getD 0))
  else p

/-- `complete_file_read`. The source tests the capability a second time before
it moves the offset; nothing has changed it in between. -/
def completeFileRead (request : FileReadRequest) (data : Option Bytes) :
    P.Machine × ManagedProcess P × Except LaunchError Unit :=
  if p.awaits .fileRead = false then (machine, p, .error .invalidResult)
  else
    match p.pendingFileRead.filter (·.isFor request) with
    | none => (machine, p, .error .invalidResult)
    | some pending =>
      match p.readsSnapshot pending with
      | none => (machine, p, .error .invalidResult)
      | some snapshot =>
        -- A synthetic file never falls back to the shared bytes.
        let data := if snapshot then
            p.fileSnapshots.read pending.handle pending.offset pending.capacity p.handles
          else data
        match data.elim (machine, none) (p.copyRead machine pending) with
        | (machine, copied) =>
          (machine, ({ p with pendingFileRead := none }.advanceReadHandle pending copied).wake
            (copied.getD unavailable), .ok ())

/-- `complete_file_stat`. -/
def completeFileStat (handle address length : BitVec 64) : P.Machine × ManagedProcess P :=
  match p.fileHandle handle 0 with
  | none => (machine, p.reply invalidArgument)
  | some capability =>
    if length.toNat ≠ (fileStatBytes capability).length then (machine, p.reply invalidArgument)
    else
      match P.copyToUserData machine p.process.space address (fileStatBytes capability) with
      | none => (machine, p.reply invalidArgument)
      | some machine => (machine, p.reply length)

variable (handle : BitVec 64)

/-- `complete_file_close`. -/
def completeFileClose : ManagedProcess P :=
  match p.closeFileHandle handle with
  | (p, true) => p.reply 0
  | (p, false) => p.reply invalidArgument

/-! ## §4. Writing. -/

variable (capability : FileCapability)

/-- The test of the two calls that change a file through a handle. -/
def writableHandle : Bool :=
  capability.kind == userFileKindRegular && anyOf capability.rights userFileRightWrite
    && isUserWritablePath capability.path.asStr

/-- `block_file_handle_write`. -/
def blockFileHandleWrite (data : FileWriteBuffer) : ManagedProcess P × Option FileWriteRequest :=
  match (p.fileHandle handle userFileRightWrite).filter (fun capability =>
      writableHandle capability && data.len != 0) with
  | none => (p.reply invalidArgument, none)
  | some capability =>
    p.withRequestId fun p requestId =>
      ({ p.block .fileWrite with
          pendingFileWrite := some ⟨requestId, handle, capability.path, capability.offset, data⟩ },
        some ⟨p.requestOwner, requestId, capability.path, handle, capability.offset, data⟩)

/-- The new offset and size of a written handle. -/
def advanceWrite (count : BitVec 64) (capability : FileCapability) : FileCapability :=
  let offset := saturatingAdd64 capability.offset count
  { capability with
    offset := offset, size := if capability.size < offset then offset else capability.size }

/-- `complete_file_write`. -/
def completeFileWrite (request : FileWriteRequest) (written : Option (BitVec 64)) :
    ManagedProcess P × Except LaunchError Unit :=
  if p.awaits .fileWrite = false then (p, .error .invalidResult)
  else
    match p.pendingFileWrite.filter (·.isFor request) with
    | none => (p, .error .invalidResult)
    | some _ =>
      match (p.fileHandle request.handle userFileRightWrite).filter (fun capability =>
          capability.path == request.path && capability.offset == request.offset
            && anyOf capability.rights userFileRightWrite) with
      | none => (p, .error .invalidResult)
      | some _ =>
        let p := { p with pendingFileWrite := none }
        match written.filter (fun count => decide (count.toNat ≤ request.data.len)) with
        | none => (p.wake unavailable, .ok ())
        | some count =>
          ((p.updateFileHandle request.handle userFileRightWrite (advanceWrite count)).wake count,
            .ok ())

/-- `block_file_handle_truncate`. -/
def blockFileHandleTruncate : ManagedProcess P × Option FileTruncateRequest :=
  match (p.fileHandle handle userFileRightWrite).filter writableHandle with
  | none => (p.reply invalidArgument, none)
  | some capability =>
    p.withRequestId fun p requestId =>
      ({ p.block .fileTruncate with
          pendingFileTruncate := some ⟨requestId, handle, capability.path⟩ },
        some ⟨p.requestOwner, requestId, capability.path, handle⟩)

/-! ## §5. Directories and names. -/

/-- The test of a directory capability that is read. -/
def readableDirectory : Bool :=
  capability.kind == userFileKindDirectory && anyOf capability.rights userFileRightRead

/-- `block_directory_read`. -/
def blockDirectoryRead (handle cursor address length : BitVec 64) :
    ManagedProcess P × Option DirectoryReadRequest :=
  match (p.fileHandle handle userFileRightRead).filter readableDirectory with
  | none => (p.reply invalidArgument, none)
  | some capability =>
    p.withRequestId fun p requestId =>
      ({ p.block .directoryRead with
          pendingDirectoryRead :=
            some ⟨requestId, capability.path, handle, cursor, address, length⟩ },
        some ⟨p.requestOwner, requestId, capability.path, handle, cursor⟩)

/-- The test of a directory capability through which names are changed. -/
def managedDirectory : Bool :=
  capability.kind == userFileKindDirectory && anyOf capability.rights userFileRightManage
    && isUserWritableDirectory capability.path.asStr

/-- `block_namespace_mutation`, for the reasons `DirectoryCreate` and
`PathRemove`. -/
def blockNamespaceMutation (parent : BitVec 64) (name : FixedText) (reason : BlockReason) :
    ManagedProcess P × Option NamespaceMutationRequest :=
  match (p.fileHandle parent userFileRightManage).filter managedDirectory with
  | none => (p.reply invalidArgument, none)
  | some capability =>
    match joinChildPath capability.path name with
    | none => (p.reply invalidArgument, none)
    | some target =>
      if ¬ (reason = .directoryCreate ∨ reason = .pathRemove) then (p.reply invalidArgument, none)
      else
        p.withRequestId fun p requestId =>
          ({ p.block reason with
              pendingNamespaceMutation := some ⟨requestId, capability.path, target, parent⟩ },
            some ⟨p.requestOwner, requestId, capability.path, target, parent⟩)

end ManagedProcess

end GenOS.Process
