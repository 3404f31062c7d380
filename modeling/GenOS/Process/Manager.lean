/-
  GenOS.Process.Manager — the process table and the life of its processes.

  Translates `ProcessManager` of `userspace.rs`: the four slots with their
  incarnation counters, the statics that number pids and handles, spawning,
  endpoints, termination and reaping.  The static counters, the two boot images
  and the machine are fields of the manager, since every call may change them.

  A `self.slots[index]` that must be occupied panics otherwise; the kernel has
  then stopped, and the model returns the state it stopped in.
-/
import GenOS.Lib.Fallible
import GenOS.Process.SocketCalls

namespace GenOS.Process

open GenOS.Lib GenOS.Vfs GenOS.Socket

/-! ## §1. The manager. -/

structure ProcessManager (P : Platform) where
  slots : Slots maxAsyncProcesses (ManagedProcess P)
  slotIncarnations : Fin maxAsyncProcesses → BitVec 64
  /-- The last slot `schedule` selected. -/
  schedule : Fin maxAsyncProcesses
  /-- The last slot `socket_wait_schedule` selected. -/
  socketWaitSchedule : Fin maxAsyncProcesses
  nextDynamicPid : BitVec 8
  nextConsoleGeneration : BitVec 64
  nextLifecycleGeneration : BitVec 64
  nextProcessHandleGeneration : BitVec 64
  initImage : Option Bytes
  shellImage : Option Bytes
  machine : P.Machine

structure TerminalRecord where
  key : ProcessKey
  taskId : BitVec 32
  pid : BitVec 8
  exitCode : BitVec 8
  preemptions : BitVec 64
  consoleProcess : Bool

inductive EndpointDelivery where
  | woken
  | queued (depth : Nat)
  | duplicateProducer
  | queueFull
  | copyFailed
  | stale
  deriving DecidableEq

/-- What the manager reports about a message: the receiver by its key, the
endpoint generation, and the message. -/
inductive EndpointLine where
  /-- `USER_ENDPOINT_QUEUED`. -/
  | queued (receiver : ProcessKey) (generation : BitVec 64) (message : UserChannelMessage)
  /-- `USER_ENDPOINT_DELIVERED`: admitted, and copied to the parked receiver. -/
  | delivered (receiver : ProcessKey) (generation : BitVec 64) (message : UserChannelMessage)
  /-- `USER_ENDPOINT_RECEIVED`: taken from the queue and copied. -/
  | received (receiver : ProcessKey) (generation : BitVec 64) (message : UserChannelMessage)
  deriving DecidableEq

/-- `PROCESS_HANDLE_TAG` and the other tags are in the top byte of a handle. -/
def consoleHandleValue (pid : BitVec 8) (generation : BitVec 64) : BitVec 64 :=
  (0xc1#64 <<< 56) ||| (pid.setWidth 64 <<< 48) ||| (generation &&& 0xffffffffffff#64)

/-- `lifecycle_handle`. -/
def lifecycleHandleValue (generation : BitVec 64) : BitVec 64 :=
  (0xc2#64 <<< 56) ||| (generation &&& 0xffffffffffffff#64)

/-- `TOKEN_DYNAMIC_BASE`. -/
def tokenDynamicBase : BitVec 64 := 0x3333cccc33330000

/-- `TOKEN_HOLD_BIT`. -/
def tokenHoldBit : BitVec 64 := 1#64 <<< 63

/-- `TOKEN_FILE_MODE`. -/
def tokenFileMode : BitVec 64 := 0x7000000000000000

/-- `TOKEN_WRITE_MODE`. -/
def tokenWriteMode : BitVec 64 := 0xa000000000000000

namespace ProcessManager

variable {P : Platform}

/-- `ProcessManager::new` with the statics at their initial values. -/
def new (initImage shellImage : Option Bytes) (machine : P.Machine) : ProcessManager P where
  slots := Slots.empty
  slotIncarnations := fun _ => 0
  schedule := ⟨0, by decide⟩
  socketWaitSchedule := ⟨0, by decide⟩
  nextDynamicPid := 4
  nextConsoleGeneration := 1
  nextLifecycleGeneration := 1
  nextProcessHandleGeneration := 1
  initImage := initImage
  shellImage := shellImage
  machine := machine

/-- `self.slots[index] = Some(p)`. -/
def put (m : ProcessManager P) (index : Fin maxAsyncProcesses) (p : ManagedProcess P) :
    ProcessManager P :=
  { m with slots := m.slots.put index p }

/-- `self.slots[index] = None`. -/
def drop (m : ProcessManager P) (index : Fin maxAsyncProcesses) : ProcessManager P :=
  { m with slots := m.slots.drop index }

section

variable (m : ProcessManager P)

/-- A change of every process. -/
def mapSlots (f : ManagedProcess P → ManagedProcess P) : ProcessManager P :=
  { m with slots := m.slots.map f }

/-- A call on the process of one slot that may use the machine. -/
def onSlot {α : Type} (index : Fin maxAsyncProcesses) (stopped : α)
    (f : P.Machine → ManagedProcess P → P.Machine × ManagedProcess P × α) : ProcessManager P × α :=
  match m.slots index with
  | none => (m, stopped)
  | some p =>
    match f m.machine p with
    | (machine, q, result) => ({ m.put index q with machine := machine }, result)

/-- A call on the process of one slot. -/
def modify (index : Fin maxAsyncProcesses) (f : ManagedProcess P → ManagedProcess P) :
    ProcessManager P :=
  match m.slots index with
  | none => m
  | some p => m.put index (f p)

/-- `self.slots.get(slot as usize)`. -/
def slotIndex (slot : BitVec 8) : Option (Fin maxAsyncProcesses) :=
  if h : slot.toNat < maxAsyncProcesses then some ⟨slot.toNat, h⟩ else none

/-- The process a request names. -/
def ownerIndex (owner : RequestOwner) : Option (Fin maxAsyncProcesses) :=
  m.slots.position fun p => p.isOwner owner

end

/-! ## §2. Pids, keys and address spaces. -/

/-- The loop of `allocate_pid`: the counter after it and the pid. -/
def pidLoop (taken : BitVec 8 → Bool) : Nat → BitVec 8 → BitVec 8 × Option (BitVec 8)
  | 0, next => (next, none)
  | turns + 1, next =>
    if next ≠ 0 ∧ taken next = false then (next + 1, some next)
    else pidLoop taken turns (next + 1)

/-- `allocate_pid`. -/
def allocatePid : Fallible (ProcessManager P) LaunchError (BitVec 8) := fun m =>
  match pidLoop (fun pid => m.slots.values.any fun p => p.process.pid == pid) 255 m.nextDynamicPid
    with
  | (next, none) => ({ m with nextDynamicPid := next }, .error .processTableFull)
  | (next, some pid) => ({ m with nextDynamicPid := next }, .ok pid)

/-- `allocate_key`. -/
def allocateKey (slot : Fin maxAsyncProcesses) : Fallible (ProcessManager P) LaunchError ProcessKey :=
  fun m =>
    if m.slotIncarnations slot = BitVec.allOnes 64 then (m, .error .processTableFull)
    else
      let incarnation := m.slotIncarnations slot + 1
      ({ m with slotIncarnations := Function.update m.slotIncarnations slot incarnation },
        .ok ⟨BitVec.ofNat 8 slot.val, incarnation⟩)

/-- `build_process(..).map_err(|_| LaunchError::ProcessBuildFailed)`. -/
def buildProcess (pid : BitVec 8) (token : BitVec 64) (image : Bytes) :
    Fallible (ProcessManager P) LaunchError (UserProcess P) := fun m =>
  match P.buildProcess m.machine pid token image with
  | (machine, none) => ({ m with machine := machine }, .error .processBuildFailed)
  | (machine, some space) => ({ m with machine := machine }, .ok (UserProcess.built pid space))

/-- `reclaim_process`. -/
def reclaimProcess (machine : P.Machine) (process : UserProcess P) : P.Machine × UserProcess P :=
  if process.framesReleased then (machine, process)
  else (P.destroy machine process.space, { process with framesReleased := true })

/-- `ok_or(error)` on something read from the manager. -/
def demand {α : Type} (error : LaunchError) (f : ProcessManager P → Option α) :
    Fallible (ProcessManager P) LaunchError α := fun m =>
  match f m with
  | none => (m, .error error)
  | some a => (m, .ok a)

/-- `self.slots[slot] = Some(ManagedProcess::new(key, task_id, parent, process))`. -/
def insertProcess (slot : Fin maxAsyncProcesses) (key : ProcessKey) (taskId : BitVec 32)
    (parent : Option ProcessKey) (process : UserProcess P) :
    Fallible (ProcessManager P) LaunchError Unit := fun m =>
  (m.put slot (ManagedProcess.new key taskId parent process), .ok ())

/-! ## §3. Spawning. -/

/-- The free slots in order. -/
def freeSlots (m : ProcessManager P) : List (Fin maxAsyncProcesses) :=
  (List.finRange maxAsyncProcesses).filter fun slot => (m.slots slot).isNone

variable (taskId : BitVec 32)

/-- `spawn_single`. -/
def spawnSingle (tokenMode : BitVec 64) : Fallible (ProcessManager P) LaunchError (BitVec 8) := do
  let slot ← demand .processTableFull fun m => m.freeSlots[0]?
  let image ← demand .imageUnavailable ProcessManager.initImage
  let pid ← allocatePid
  let key ← allocateKey slot
  let token := if tokenMode = 0 ∨ tokenMode = tokenHoldBit then
      tokenDynamicBase ||| tokenMode ||| pid.setWidth 64
    else tokenMode ||| pid.setWidth 64
  let process ← buildProcess pid token image
  insertProcess slot key taskId none process
  pure pid

/-- `spawn_file_init`. -/
def spawnFileInit : Fallible (ProcessManager P) LaunchError (BitVec 8) :=
  spawnSingle taskId tokenFileMode

/-- `spawn_write_init`. -/
def spawnWriteInit : Fallible (ProcessManager P) LaunchError (BitVec 8) :=
  spawnSingle taskId tokenWriteMode

end ProcessManager

/-! ## §4. Endpoints. -/

namespace ManagedProcess

variable {P : Platform} (p : ManagedProcess P)

/-- `revoke_send_handles`, on one process. -/
def revokeSend (targetPid : BitVec 8) (targetGeneration : BitVec 64) : ManagedProcess P :=
  match p.endpoints.revokeSendHandles p.handles targetPid targetGeneration with
  | (endpoints, handles, _) => { p with endpoints := endpoints, handles := handles }

/-- `endpoints.clear`, on one process. -/
def clearEndpoints : ManagedProcess P :=
  match p.endpoints.clear p.handles with
  | (endpoints, handles) => { p with endpoints := endpoints, handles := handles }

/-- `complete_endpoint_create`. -/
def completeEndpointCreate : ManagedProcess P :=
  match p.endpoints.create p.handles with
  | (endpoints, handles, handle) =>
    { p with endpoints := endpoints, handles := handles }.reply (handle.getD unavailable)

/-- `complete_endpoint_connect`, given the generation the target publishes. -/
def completeEndpointConnect (targetPid : BitVec 8) :
    Option (BitVec 64) → ManagedProcess P
  | none => p.reply unavailable
  | some targetGeneration =>
    match p.endpoints.allocate p.handles (.send targetPid targetGeneration) with
    | (endpoints, handles, handle) =>
      { p with endpoints := endpoints, handles := handles }.reply (handle.getD unavailable)

/-- The parked receive that `deliver_endpoint_message` may complete. -/
def parkedReceive (targetGeneration : BitVec 64) : Option PendingReceive :=
  p.endpoints.pendingReceive.filter fun pending =>
    p.state == .waiting && p.blockedOn == .endpoint && pending.generation == targetGeneration

/-- The bytes of a message. -/
def messageBytes (message : UserChannelMessage) : Bytes :=
  wordBytes message.senderPid ++ wordBytes message.value

variable (machine : P.Machine)

/-- `deliver_endpoint_message`, on the target. -/
def deliver (targetGeneration : BitVec 64) (message : UserChannelMessage) :
    P.Machine × ManagedProcess P × EndpointDelivery :=
  match p.parkedReceive targetGeneration with
  | some pending =>
    if pending.length ≠ userChannelMessageSize
        ∨ p.endpoints.receiveGeneration p.handles pending.handle ≠ some targetGeneration then
      (machine, p, .copyFailed)
    else
      match P.copyToUserData machine p.process.space pending.address (messageBytes message) with
      | none => (machine, p, .copyFailed)
      | some machine =>
        (machine, { p with endpoints := p.endpoints.clearPendingReceive }.wake userChannelMessageSize,
          .woken)
  | none =>
    match p.endpoints.enqueue message with
    | (endpoints, result) =>
      (machine, { p with endpoints := endpoints },
        match result with
        | .queued depth => .queued depth
        | .duplicateProducer => .duplicateProducer
        | .full => .queueFull
        | .unpublished => .stale)

/-- The generation `complete_endpoint_receive` reads from, if the handle and
the buffer are valid. -/
def receivable (handle address length : BitVec 64) : Option (BitVec 64) :=
  (p.endpoints.receiveGeneration p.handles handle).filter fun _ =>
    length == userChannelMessageSize
      && P.validUserDataBuffer machine p.process.space address length

/-- `complete_endpoint_receive`. -/
def completeEndpointReceive (handle address length : BitVec 64) :
    P.Machine × ManagedProcess P × List EndpointLine :=
  match p.receivable machine handle address length with
  | none => (machine, p.reply invalidArgument, [])
  | some generation =>
    match p.endpoints.popMessage with
    | (endpoints, none) =>
      let p := { p with endpoints := endpoints }.block .endpoint
      let parked := p.endpoints.parkReceive p.handles ⟨handle, generation, address, length⟩
      (machine, { p with endpoints := parked.1 }, [])
    | (endpoints, some message) =>
      let p := { p with endpoints := endpoints.clearPendingReceive }
      match P.copyToUserData machine p.process.space address (messageBytes message) with
      | none => (machine, p.wake invalidArgument, [])
      | some machine =>
        (machine, p.wake userChannelMessageSize, [.received p.key generation message])

/-- `endpoints.close`, on one process. -/
def closeEndpoint (handle : BitVec 64) : ManagedProcess P × Option EndpointRole :=
  match p.endpoints.close p.handles handle with
  | (endpoints, handles, role) => ({ p with endpoints := endpoints, handles := handles }, role)

end ManagedProcess

namespace ProcessManager

variable {P : Platform} (m : ProcessManager P)

section

variable (targetPid : BitVec 8) (targetGeneration : BitVec 64)

/-- `revoke_endpoint_send_handles`. -/
def revokeEndpointSendHandles : ProcessManager P :=
  m.mapSlots fun p => p.revokeSend targetPid targetGeneration

/-- `release_endpoints`. -/
def releaseEndpoints (index : Fin maxAsyncProcesses) : ProcessManager P :=
  match m.slots index with
  | none => m
  | some p =>
    let cleared := m.put index p.clearEndpoints
    match p.endpoints.publishedGeneration with
    | none => cleared
    | some generation => cleared.revokeEndpointSendHandles p.process.pid generation

/-- The generation a connect to `targetPid` names. -/
def connectGeneration : Option (BitVec 64) :=
  m.slots.values.findSome? fun p =>
    if p.process.pid = targetPid ∧ p.process.completed = false then p.endpoints.publishedGeneration
    else none

/-- `complete_endpoint_connect`. -/
def completeEndpointConnect (m : ProcessManager P) (index : Fin maxAsyncProcesses)
    (targetPid : BitVec 8) : ProcessManager P :=
  m.modify index fun p => p.completeEndpointConnect targetPid (m.connectGeneration targetPid)

/-- The slot of the process that publishes the generation. -/
def endpointIndex : Option (Fin maxAsyncProcesses) :=
  m.slots.position fun p =>
    p.process.pid == targetPid && !p.process.completed
      && p.endpoints.publishedGeneration == some targetGeneration

/-- `deliver_endpoint_message`. -/
def deliverEndpointMessage (message : UserChannelMessage) : ProcessManager P × EndpointDelivery :=
  match m.endpointIndex targetPid targetGeneration with
  | none => (m, .stale)
  | some index =>
    m.onSlot index .stale fun machine p => p.deliver machine targetGeneration message

/-- The line a delivery leaves. -/
def deliveryLine (message : UserChannelMessage) (delivery : EndpointDelivery) : List EndpointLine :=
  match (m.endpointIndex targetPid targetGeneration).bind m.slots, delivery with
  | some target, .woken => [.delivered target.key targetGeneration message]
  | some target, .queued _ => [.queued target.key targetGeneration message]
  | _, _ => []

end

/-- The result of a send. -/
def deliveryResult : EndpointDelivery → BitVec 64
  | .woken | .queued _ => 0
  | .duplicateProducer | .queueFull | .copyFailed => unavailable
  | .stale => invalidArgument

variable (index : Fin maxAsyncProcesses)

/-- `complete_endpoint_send`. -/
def completeEndpointSend (handle value : BitVec 64) : ProcessManager P × List EndpointLine :=
  match m.slots index with
  | none => (m, [])
  | some p =>
    match p.endpoints.sendCapability p.handles handle with
    | none => (m.modify index fun p => p.reply invalidArgument, [])
    | some (targetPid, targetGeneration) =>
      let message : UserChannelMessage := ⟨p.process.pid.setWidth 64, value⟩
      match m.deliverEndpointMessage targetPid targetGeneration message with
      | (m', delivery) =>
        (m'.modify index fun p => p.reply (deliveryResult delivery),
          m.deliveryLine targetPid targetGeneration message delivery)

/-- `complete_endpoint_close`. -/
def completeEndpointClose (handle : BitVec 64) : ProcessManager P :=
  match m.slots index with
  | none => m
  | some p =>
    match p.closeEndpoint handle with
    | (q, role) =>
      let closed := m.put index q
      let revoked := match role with
        | some (.receive generation) =>
          closed.revokeEndpointSendHandles p.process.pid generation
        | _ => closed
      revoked.modify index fun p => p.reply (if role.isSome then 0 else invalidArgument)

/-! ## §5. Termination. -/

/-- The process after a forced termination. -/
def forceExit (process : UserProcess P) (state : ManagedState) :
    Option (BitVec 8) → UserProcess P
  | none => process
  | some exitCode =>
    { process with
      completed := true, killed := state == .killed, event := .exit, exitCode := exitCode }

/-- Revoke what the process holds and free its frames. -/
def revokeAndReclaim (machine : P.Machine) (p : ManagedProcess P) : P.Machine × ManagedProcess P :=
  match reclaimProcess machine p.revokeResources.process with
  | (machine, process) => (machine, { p.revokeResources with process := process })

/-- One turn of the loop of `cleanup_supervised_children`. -/
def cleanupSlot (ownerKey : ProcessKey) (m : ProcessManager P) (index : Fin maxAsyncProcesses) :
    ProcessManager P :=
  match m.slots index with
  | none => m
  | some p =>
    if p.parentKey = some ownerKey then
      let released := m.releaseEndpoints index
      match released.slots index with
      | none => released
      | some p => { released.drop index with machine := (revokeAndReclaim released.machine p).1 }
    else m

/-- `cleanup_supervised_children`. -/
def cleanupSupervisedChildren (ownerKey : ProcessKey) : ProcessManager P :=
  (List.finRange maxAsyncProcesses).foldl (cleanupSlot ownerKey) m

/-- `wake_waiting_parent`, on one process. -/
def wakeIfWaiting (childKey : ProcessKey) (exitCode : BitVec 8) (p : ManagedProcess P) :
    ManagedProcess P :=
  if p.state = .waiting ∧ p.blockedOn = .child childKey then p.wake (exitCode.setWidth 64) else p

/-- `wake_waiting_parent`. -/
def wakeWaitingParent (childKey : ProcessKey) (exitCode : BitVec 8) : ProcessManager P :=
  m.mapSlots (wakeIfWaiting childKey exitCode)

/-- `terminate_process_at`. -/
def terminateProcessAt (state : ManagedState) (forcedExitCode : Option (BitVec 8)) :
    ProcessManager P × Except LaunchError TerminalRecord :=
  match m.slots index with
  | none => (m, .error .imageUnavailable)
  | some candidate =>
    if forcedExitCode.isNone ∧ candidate.process.completed = false then (m, .error .invalidResult)
    else
      let released := m.releaseEndpoints index
      match released.slots index with
      | none => (released, .error .imageUnavailable)
      | some p =>
        match revokeAndReclaim released.machine
          { p with process := forceExit p.process state forcedExitCode, state := state } with
        | (machine, p) =>
          let ended := { released.put index p with machine := machine }
          let cleaned := if p.supervisor then ended.cleanupSupervisedChildren p.key else ended
          (cleaned.wakeWaitingParent p.key p.process.exitCode,
            .ok ⟨p.key, p.taskId, p.process.pid, p.process.exitCode, p.process.preemptions,
              p.consoleProcess⟩)

end ProcessManager

end GenOS.Process
