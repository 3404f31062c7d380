/-
  GenOS.Process.Dispatch — completions and the events the manager serves.

  `dispatch` serves the event a time slice ended with; what the processor does
  during a slice is not modelled.  The completions are what the runtime calls
  between two slices.
-/
import GenOS.Process.Lifecycle

namespace GenOS.Process

open GenOS.Lib GenOS.Vfs GenOS.Socket

/-! ## §1. Waits and requests of a process. -/

inductive ConsoleUpdate where
  | write (kind : LineKind) (text : FixedText)
  | setInput (text : FixedText)
  | clear

/-- `USER_INPUT_MASK_ALL`. -/
def userInputMaskAll : BitVec 64 := 3

namespace ManagedProcess

variable {P : Platform} (p : ManagedProcess P)

/-- `block_sleep`. -/
def blockSleep (tick ticks : BitVec 64) : ManagedProcess P :=
  { p with state := .sleeping, wakeAt := saturatingAdd64 tick ticks }

/-- `block_input`, given whether another process waits for input. -/
def blockInput (waiterExists : Bool) (address length mask : BitVec 64) : ManagedProcess P :=
  if waiterExists || mask == 0 || anyOf mask (~~~ userInputMaskAll) then p.reply unavailable
  else { p.block .input with pendingInput := some ⟨address, length, mask⟩ }

/-- The process waits for input. -/
def waitsForInput : Bool := p.state == .waiting && p.blockedOn == .input

/-- `complete_child_wait`, given the child: its key and its exit code if it is
completed. -/
def completeChildWait : Option (ProcessKey × Option (BitVec 8)) → ManagedProcess P
  | none => p.reply invalidArgument
  | some (_, some exitCode) => p.reply (exitCode.setWidth 64)
  | some (childKey, none) => p.block (.child childKey)

/-- The three console calls: denied, or answered with a value. -/
def consoleCall (handle value : BitVec 64) : ManagedProcess P × Bool :=
  if p.handles.allows handle .console handleRightUse then (p.reply value, true)
  else (p.reply invalidArgument, false)

/-- The test of `vfs_request_active` on one process. -/
def vfsRequestActive : UserVfsRequest → Bool
  | .openFile request =>
    p.isOwner request.toRequestOwner && p.awaits .fileOpen
      && p.pendingFileOpen == some ⟨request.requestId, request.path, request.rights⟩
  | .read request =>
    p.isOwner request.toRequestOwner && p.awaits .fileRead
      && p.pendingFileRead.any fun pending => pending.isFor request
  | .write request =>
    p.isOwner request.toRequestOwner && p.awaits .fileWrite
      && p.pendingFileWrite.any fun pending => pending.isFor request
  | .truncate request =>
    p.isOwner request.toRequestOwner && p.awaits .fileTruncate
      && p.pendingFileTruncate == some ⟨request.requestId, request.handle, request.path⟩
  | .readDirectory request =>
    p.isOwner request.toRequestOwner && p.awaits .directoryRead
      && p.pendingDirectoryRead.any fun pending => pending.isFor request
  | .createDirectory request =>
    p.isOwner request.toRequestOwner && p.awaits .directoryCreate
      && p.pendingNamespaceMutation
        == some ⟨request.requestId, request.parent, request.target, request.handle⟩
  | .removePath request =>
    p.isOwner request.toRequestOwner && p.awaits .pathRemove
      && p.pendingNamespaceMutation
        == some ⟨request.requestId, request.parent, request.target, request.handle⟩

end ManagedProcess

namespace ProcessManager

variable {P : Platform}

/-! ## §2. Completions. -/

section

variable (m : ProcessManager P)

/-- A completion on the process that a request names. -/
def onOwner (owner : RequestOwner)
    (f : P.Machine → ManagedProcess P → P.Machine × ManagedProcess P × Except LaunchError Unit) :
    ProcessManager P × Except LaunchError Unit :=
  match m.ownerIndex owner with
  | none => (m, .error .imageUnavailable)
  | some index => m.onSlot index (.error .imageUnavailable) f

/-- `vfs_request_active`. -/
def vfsRequestActive (m : ProcessManager P) (request : UserVfsRequest) : Bool :=
  m.slots.values.any fun p => p.vfsRequestActive request

/-- `complete_file_open_inner`. -/
def completeFileOpenInner (m : ProcessManager P) (request : FileOpenRequest)
    (info : Option FileOpenInfo) (snapshot : Option Bytes) :
    ProcessManager P × Except LaunchError Unit :=
  m.onOwner request.toRequestOwner fun machine p =>
    (machine, p.completeFileOpenInner request info snapshot)

/-- `complete_file_open`. -/
def completeFileOpen (request : FileOpenRequest) (info : Option FileOpenInfo) :
    ProcessManager P × Except LaunchError Unit :=
  m.completeFileOpenInner request info none

/-- `complete_file_open_snapshot`. -/
def completeFileOpenSnapshot (request : FileOpenRequest) (bytes : Option Bytes) :
    ProcessManager P × Except LaunchError Unit :=
  m.completeFileOpenInner request
    (bytes.map fun bytes => ⟨BitVec.ofNat 64 bytes.length, userFileKindRegular⟩) bytes

/-- `complete_file_read`. -/
def completeFileRead (m : ProcessManager P) (request : FileReadRequest) (data : Option Bytes) :
    ProcessManager P × Except LaunchError Unit :=
  m.onOwner request.toRequestOwner fun machine p => p.completeFileRead machine request data

/-- `complete_file_write`. -/
def completeFileWrite (m : ProcessManager P) (request : FileWriteRequest)
    (written : Option (BitVec 64)) : ProcessManager P × Except LaunchError Unit :=
  m.onOwner request.toRequestOwner fun machine p => (machine, p.completeFileWrite request written)

/-! ## §3. Serving an event. -/

/-- `local_port_is_available`, over the sockets of every process. -/
def localPortIsAvailable (port : BitVec 16) : Bool :=
  !(m.slots.values.any fun p => p.sockets.ownsLocalPort port)

/-- The child that `complete_child_wait` finds. -/
def waitedChild (parentKey : ProcessKey) (childPid : BitVec 8) :
    Option (ProcessKey × Option (BitVec 8)) :=
  (m.slots.find fun p => p.process.pid == childPid && p.parentKey == some parentKey).map fun p =>
    (p.key, if p.process.completed then some p.process.exitCode else none)

variable (index : Fin maxAsyncProcesses)

/-- Another process waits for input. -/
def inputWaiterExists : Bool :=
  (List.finRange maxAsyncProcesses).any fun slot =>
    slot ≠ index && (m.slots slot).any fun p => p.waitsForInput

/-- What the end of the event adds to the update. -/
inductive Served where
  /-- The event is served. -/
  | done
  | console (update : ConsoleUpdate)
  | vfs (request : UserVfsRequest)
  | lifecycle (request : ProcessLaunchRequest)
  /-- A console call that was denied: the scan continues. -/
  | next
  /-- The event `None`: the poll ends without an update. -/
  | quit

/-- The outcome of an event. -/
abbrev Service (P : Platform) := ProcessManager P × List EndpointLine × Served

/-- An event served by the calling process alone. -/
def serve (f : P.Machine → ManagedProcess P → P.Machine × ManagedProcess P) : Service P :=
  ((m.onSlot index () fun machine p => ((f machine p).1, (f machine p).2, ())).1, [], .done)

/-- An event that may leave a request for the file system. -/
def serveRequest {α : Type} (wrap : α → Served) (f : ManagedProcess P → ManagedProcess P × Option α)
    : Service P :=
  match m.onSlot index none fun machine p => (machine, f p) with
  | (m, none) => (m, [], .done)
  | (m, some request) => (m, [], wrap request)

/-- A console call. -/
def serveConsole (handle value : BitVec 64) (update : ConsoleUpdate) : Service P :=
  match m.onSlot index false fun machine p => (machine, p.consoleCall handle value) with
  | (m, false) => (m, [], .next)
  | (m, true) => (m, [], .console update)

/-- `complete_endpoint_receive`, in the slot of the process. -/
def completeEndpointReceive (m : ProcessManager P) (index : Fin maxAsyncProcesses)
    (handle address length : BitVec 64) : ProcessManager P × List EndpointLine :=
  m.onSlot index [] fun machine p => p.completeEndpointReceive machine handle address length

/-- The `match event` of `poll`. -/
def dispatch (tick : BitVec 64) : ProcessEvent → Service P
  | .none => (m, [], .quit)
  | .yield | .preempt => (m, [], .done)
  | .sleep ticks => m.serve index fun machine p => (machine, p.blockSleep tick ticks)
  | .waitChild pid => m.serve index fun machine p =>
    (machine, p.completeChildWait (m.waitedChild p.key pid))
  | .readFile path address capacity => m.serveRequest index (fun r => .vfs (.read r)) fun p =>
    p.blockFileRead path address capacity
  | .readDirectory handle cursor address length =>
    m.serveRequest index (fun r => .vfs (.readDirectory r)) fun p =>
      p.blockDirectoryRead handle cursor address length
  | .openFile path rights => m.serveRequest index (fun r => .vfs (.openFile r)) fun p =>
    p.blockFileOpen path rights
  | .readHandle handle address capacity => m.serveRequest index (fun r => .vfs (.read r)) fun p =>
    p.blockFileHandleRead handle address capacity
  | .statHandle handle address length => m.serve index fun machine p =>
    p.completeFileStat machine handle address length
  | .closeHandle handle => m.serve index fun machine p => (machine, p.completeFileClose handle)
  | .writeHandle handle data => m.serveRequest index (fun r => .vfs (.write r)) fun p =>
    p.blockFileHandleWrite handle data
  | .truncateHandle handle => m.serveRequest index (fun r => .vfs (.truncate r)) fun p =>
    p.blockFileHandleTruncate handle
  | .createDirectory parent name =>
    m.serveRequest index (fun r => .vfs (.createDirectory r)) fun p =>
      p.blockNamespaceMutation parent name .directoryCreate
  | .removePath parent name => m.serveRequest index (fun r => .vfs (.removePath r)) fun p =>
    p.blockNamespaceMutation parent name .pathRemove
  | .processLaunch supervisor image mode => m.serveRequest index .lifecycle fun p =>
    p.blockProcessLaunch supervisor image mode
  | .processStatus handle address length =>
    (m.completeProcessStatus index handle address length, [], .done)
  | .processKill handle => (m.completeControlledKill index handle, [], .done)
  | .processReap handle address length =>
    (m.completeControlledReap index handle address length, [], .done)
  | .waitInput address length mask => m.serve index fun machine p =>
    (machine, p.blockInput (m.inputWaiterExists index) address length mask)
  | .createEndpoint => m.serve index fun machine p => (machine, p.completeEndpointCreate)
  | .connectEndpoint pid => (m.completeEndpointConnect index pid, [], .done)
  | .sendEndpoint handle value =>
    match m.completeEndpointSend index handle value with
    | (m, lines) => (m, lines, .done)
  | .receiveEndpoint handle address length =>
    match m.completeEndpointReceive index handle address length with
    | (m, lines) => (m, lines, .done)
  | .closeEndpoint handle => (m.completeEndpointClose index handle, [], .done)
  | .consoleWrite handle text kind =>
    m.serveConsole index handle (BitVec.ofNat 64 text.len) (.write kind text)
  | .consoleSetInput handle text =>
    m.serveConsole index handle (BitVec.ofNat 64 text.len) (.setInput text)
  | .consoleClear handle => m.serveConsole index handle 0 .clear
  | .socketOpen protocol => m.serve index fun machine p => (machine, p.completeSocketOpen protocol)
  | .socketConnect handle target port => m.serve index fun machine p =>
    (machine, p.completeSocketConnect handle target port)
  | .socketBind handle port => m.serve index fun machine p =>
    (machine, p.completeSocketBind (m.localPortIsAvailable port) handle port)
  | .socketListen handle backlog => m.serve index fun machine p =>
    (machine, p.completeSocketListen handle backlog)
  | .socketAccept handle => m.serve index fun machine p => (machine, p.completeSocketAccept handle)
  | .socketSend handle data => m.serve index fun machine p =>
    (machine, p.completeSocketSend handle data)
  | .socketReceive handle address capacity => m.serve index fun machine p =>
    p.completeSocketReceive machine handle address capacity
  | .socketStatus handle address length => m.serve index fun machine p =>
    p.completeSocketStatus machine handle address length
  | .socketWait handle readiness timeoutTicks => m.serve index fun machine p =>
    (machine, p.completeSocketWait handle readiness timeoutTicks tick)
  | .socketShutdown handle direction => m.serve index fun machine p =>
    (machine, p.completeSocketShutdown handle direction)
  | .socketClose handle => m.serve index fun machine p => (machine, p.completeSocketClose handle)
  | .exit => ((m.terminateProcessAt index .exited none).1, [], .done)
  | .fault => ((m.terminateProcessAt index .faulted none).1, [], .done)

end

/-! ## §4. Slots after a call on one of them. -/

section Slots

variable {α : Type} {m : ProcessManager P} {index other : Fin maxAsyncProcesses}
  {p : ManagedProcess P} {stopped : α}
  {f : P.Machine → ManagedProcess P → P.Machine × ManagedProcess P × α}

theorem onSlot_some (h : m.slots index = some p) : m.onSlot index stopped f
    = ({ m.put index (f m.machine p).2.1 with machine := (f m.machine p).1 },
        (f m.machine p).2.2) := by
  unfold onSlot
  rw [h]

theorem onSlot_none (h : m.slots index = none) : m.onSlot index stopped f = (m, stopped) := by
  unfold onSlot
  rw [h]

theorem onSlot_other (h : other ≠ index) :
    (m.onSlot index stopped f).1.slots other = m.slots other := by
  cases hp : m.slots index with
  | none => rw [onSlot_none hp]
  | some p =>
    rw [onSlot_some hp]
    exact Slots.put_of_ne h

theorem onSlot_self (h : m.slots index = some p) :
    (m.onSlot index stopped f).1.slots index = some (f m.machine p).2.1 := by
  rw [onSlot_some h]
  exact Slots.put_self ..

variable {wrap : α → Served} {g : ManagedProcess P → ManagedProcess P × Option α}

theorem serveRequest_fst : (m.serveRequest index wrap g).1
    = (m.onSlot index none fun machine p => (machine, g p)).1 := by
  unfold serveRequest
  split
  all_goals
    rename_i hcall
    rw [hcall]

end Slots

end ProcessManager

end GenOS.Process
