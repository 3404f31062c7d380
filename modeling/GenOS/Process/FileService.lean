/-
  GenOS.Process.FileService — file reads and writes between processes and the
  file system.

  A file call parks its process with a request; `complete_vfs_request` of
  `runtime.rs` answers it from the file system as it is then.  Here are the two
  fields of the runtime this needs, the branches for opens, reads and writes, and a
  record of every successful read: which handle, from which offset, which bytes,
  and what the file held at that moment.
-/
import GenOS.Process.Dispatch
import GenOS.Storage.Rollback

namespace GenOS.Process

open GenOS.Lib GenOS.Vfs GenOS.Storage

/-! ## §1. Answering requests. -/

/-- The processes and the file system of `RuntimeCoordinator`. -/
structure FileService (P : Platform) (σ : Type) where
  processes : ProcessManager P
  session : Session σ

/-- The path `/MEMORY.STATUS`. -/
def memoryStatusPath : Bytes := ascii "/MEMORY.STATUS".toList

/-- A successful read. -/
structure FileRead where
  index : Fin maxAsyncProcesses
  handle : BitVec 64
  path : FixedText
  offset : Nat
  bytes : Bytes
  /-- The bytes of the file at that moment. -/
  content : Bytes
  deriving DecidableEq

/-- The bytes of a file, none if there is no such file. -/
def contentOf (vfs : RamVfs) (path : Bytes) : Option Bytes :=
  match vfs.read path with
  | .error _ => none
  | .ok data => some data

/-- The bytes that `complete_vfs_request` offers to a read, given the report that
`memory::report` would make. -/
def readData (vfs : RamVfs) (request : FileReadRequest) (report : Option Bytes) : Option Bytes :=
  if request.handle = 0 ∧ eqIgnoreAsciiCase request.path.asStr memoryStatusPath then report
  else
    (contentOf vfs request.path.asStr).map fun data =>
      data.drop (min request.offset.toNat data.length)

/-- The read of a request that is being answered: the result register of the
process says how many of the offered bytes it got. -/
def readOf {P : Platform} (vfs : RamVfs) (request : FileReadRequest) (offered : Option Bytes)
    (index : Fin maxAsyncProcesses) (p : ManagedProcess P) : Option FileRead :=
  if p.process.rax = unavailable then none
  else
    some ⟨index, request.handle, request.path, request.offset.toNat,
      (offered.getD []).take p.process.rax.toNat,
      (contentOf vfs request.path.asStr).getD []⟩

namespace FileService

variable {P : Platform} {σ : Type} (s : FileService P σ)

/-- The `Read` branch of `complete_vfs_request`, with the reads it completed. -/
def answerRead (request : FileReadRequest) (report : Option Bytes) :
    FileService P σ × List FileRead :=
  if s.processes.vfsRequestActive (.read request) = false then (s, [])
  else
    let offered := readData s.session.vfs request report
    match s.processes.completeFileRead request offered with
    | (processes, .error _) => ({ s with processes := processes }, [])
    | (processes, .ok ()) =>
      ({ s with processes := processes },
        match s.processes.ownerIndex request.toRequestOwner with
        | none => []
        | some index =>
          ((processes.slots index).bind (readOf s.session.vfs request offered index)).toList)

/-- `persistent_write_denied`. -/
def persistentWriteDenied (path : Bytes) : Bool :=
  s.session.fs.isReadOnly && (eqIgnoreAsciiCase path userRoot || isUserWritablePath path)

/-- What `complete_vfs_request` says of the node that is opened. -/
def openInfo (manageable : Bool) (node : VfsNode) : Option FileOpenInfo :=
  match node.kind with
  | .file =>
    if manageable then none
    else some ⟨BitVec.ofNat 64 node.data.length, userFileKindRegular⟩
  | .directory => some ⟨0, userFileKindDirectory⟩

variable (request : FileOpenRequest)

/-- Whether the path may be opened with these rights. -/
def openAllowed : Bool :=
  let path := request.path.asStr
  let writable := anyOf request.rights userFileRightWrite
  let manageable := anyOf request.rights userFileRightManage
  let mutablePath := eqIgnoreAsciiCase path userRoot || isUserWritablePath path
  ((!writable && !manageable) || (writable && isUserWritablePath path)
      || (manageable && !writable && mutablePath))
    && !(s.persistentWriteDenied path && (writable || manageable))

variable [BlockIo σ]

/-- The session once the file to write was created if there was none, and whether
it may be opened. -/
def prepareOpen : Session σ × Bool :=
  let path := request.path.asStr
  if s.openAllowed request && anyOf request.rights userFileRightWrite
      && !anyOf request.rights userFileRightManage && (s.session.vfs.find path).isNone then
    match s.session.mutateVfs fun vfs => vfs.touch path with
    | (session, some ()) => (session, true)
    | (session, none) => (session, false)
  else (s.session, s.openAllowed request)

/-- The `Open` branch of `complete_vfs_request`, given the report that
`memory::report` would make. -/
def answerOpen (report : Option Bytes) : FileService P σ :=
  if s.processes.vfsRequestActive (.openFile request) = false then s
  else
    match s.prepareOpen request with
    | (session, allowed) =>
      if allowed && eqIgnoreAsciiCase request.path.asStr memoryStatusPath then
        ⟨(s.processes.completeFileOpenSnapshot request report).1, session⟩
      else
        let info :=
          if allowed then
            (session.vfs.find request.path.asStr).bind
              (openInfo (anyOf request.rights userFileRightManage))
          else none
        ⟨(s.processes.completeFileOpen request info).1, session⟩

/-- The `Write` branch of `complete_vfs_request`. -/
def answerWrite (request : FileWriteRequest) : FileService P σ :=
  if s.processes.vfsRequestActive (.write request) = false then s
  else if s.persistentWriteDenied request.path.asStr then
    { s with processes := (s.processes.completeFileWrite request none).1 }
  else
    match s.session.mutateVfs fun vfs =>
        vfs.writeAt request.path.asStr request.offset.toNat request.data.asSlice with
    | (session, written) =>
      ⟨(s.processes.completeFileWrite request (written.map (BitVec.ofNat 64))).1, session⟩

/-! ## §2. Events. -/

end FileService

/-- A file call of a process, or the answer to one. -/
inductive FileEvent where
  | read (index : Fin maxAsyncProcesses) (handle address capacity : BitVec 64)
  | write (index : Fin maxAsyncProcesses) (handle : BitVec 64) (data : FileWriteBuffer)
  | answerRead (request : FileReadRequest) (report : Option Bytes)
  | answerWrite (request : FileWriteRequest)

/-- The call writes through this handle of this process. -/
def FileEvent.WritesThrough (index : Fin maxAsyncProcesses) (handle : BitVec 64) :
    FileEvent → Prop
  | .write index' handle' _ => index' = index ∧ handle' = handle
  | _ => False

namespace FileService

variable {P : Platform} {σ : Type}

/-- A process that is ready makes a file call; the tick does not matter to it. -/
def call (s : FileService P σ) (index : Fin maxAsyncProcesses) (event : ProcessEvent) :
    FileService P σ :=
  match s.processes.slots index with
  | none => s
  | some p =>
    if p.state = .ready ∧ p.process.completed = false then
      { s with processes := (s.processes.dispatch index 0 event).1 }
    else s

variable [BlockIo σ]

/-- One event, and the reads it completed. -/
def step (s : FileService P σ) : FileEvent → FileService P σ × List FileRead
  | .read index handle address capacity => (s.call index (.readHandle handle address capacity), [])
  | .write index handle data => (s.call index (.writeHandle handle data), [])
  | .answerRead request report => s.answerRead request report
  | .answerWrite request => (s.answerWrite request, [])

/-- A sequence of events, and the reads they completed in order. -/
def run (s : FileService P σ) : List FileEvent → FileService P σ × List FileRead
  | [] => (s, [])
  | event :: events =>
    match s.step event with
    | (s', reads) =>
      match s'.run events with
      | (s'', later) => (s'', reads ++ later)

/-- The reads through one handle that returned bytes. -/
def readsThrough (index : Fin maxAsyncProcesses) (handle : BitVec 64) (reads : List FileRead) :
    List FileRead :=
  reads.filter fun r => r.index = index ∧ r.handle = handle ∧ r.bytes ≠ []

end FileService

end GenOS.Process
