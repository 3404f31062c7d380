/-
  GenOS.Process.Lifecycle — launching, inspecting, killing and reaping children.

  A launch parks the supervisor until the runtime completes it.  The other three
  calls reach a child through a process handle, which names a slot and an
  incarnation.
-/
import GenOS.Process.Manager

namespace GenOS.Process

open GenOS.Lib GenOS.Vfs GenOS.Socket

/-! ## §1. Requests and status. -/

/-- `ProcessLaunchRequest`, the only kind of `UserLifecycleRequest`. -/
structure ProcessLaunchRequest extends RequestOwner where
  requestId : BitVec 64
  image : BitVec 64
  mode : BitVec 64
  deriving DecidableEq

/-- `USER_PROCESS_IMAGE_INIT`. -/
def userProcessImageInit : BitVec 64 := 1

/-- `USER_PROCESS_MODE_NORMAL`. -/
def userProcessModeNormal : BitVec 64 := 0

/-- `USER_PROCESS_MODE_HOLD`. -/
def userProcessModeHold : BitVec 64 := 1

/-- `managed_state_abi`. -/
def managedStateAbi : ManagedState → BitVec 64
  | .ready => 1
  | .sleeping => 2
  | .waiting => 3
  | .exited => 4
  | .faulted => 5
  | .killed => 6

/-- `UserProcessStatus`, without the reserved word. -/
structure UserProcessStatus where
  instanceId : BitVec 64
  taskId : BitVec 32
  runtimePid : BitVec 8
  state : BitVec 64
  exitCode : BitVec 8
  faultVector : BitVec 8
  preemptions : BitVec 64
  deriving DecidableEq

/-- `user_process_status_bytes`. -/
def userProcessStatusBytes (status : UserProcessStatus) : Bytes :=
  wordBytes status.instanceId ++ wordBytes (status.taskId.setWidth 64)
    ++ wordBytes (status.runtimePid.setWidth 64) ++ wordBytes status.state
    ++ wordBytes (status.exitCode.setWidth 64) ++ wordBytes (status.faultVector.setWidth 64)
    ++ wordBytes status.preemptions ++ wordBytes 0

namespace ManagedProcess

variable {P : Platform} (p : ManagedProcess P)

/-- The refusals of `block_process_launch`. -/
def launchDenied (supervisor image mode : BitVec 64) : Bool :=
  !p.handles.allows supervisor .lifecycle handleRightUse || image != userProcessImageInit
    || !(mode == userProcessModeNormal || mode == userProcessModeHold)
    || p.processHandles.firstFree.isNone

/-- `block_process_launch`. -/
def blockProcessLaunch (supervisor image mode : BitVec 64) :
    ManagedProcess P × Option ProcessLaunchRequest :=
  if p.launchDenied supervisor image mode then (p.reply invalidArgument, none)
  else
    p.withRequestId fun p requestId =>
      ({ p.block .processLaunch with pendingProcessLaunch := some ⟨requestId, image, mode⟩ },
        some ⟨p.requestOwner, requestId, image, mode⟩)

/-- The status of one process. -/
def status : UserProcessStatus where
  instanceId := p.key.incarnation
  taskId := p.taskId
  runtimePid := p.process.pid
  state := managedStateAbi p.state
  exitCode := if p.process.completed then p.process.exitCode else 0
  faultVector := p.process.faultVector
  preemptions := p.process.preemptions

/-- Copy a status to the process, if the length fits. -/
def copyStatus (machine : P.Machine) (address length : BitVec 64) (status : UserProcessStatus) :
    Option P.Machine :=
  if length.toNat = (userProcessStatusBytes status).length then
    P.copyToUserData machine p.process.space address (userProcessStatusBytes status)
  else none

end ManagedProcess

namespace ProcessManager

variable {P : Platform}

/-! ## §2. Through a process handle. -/

variable (m : ProcessManager P)

/-- `process_status_for_key`. -/
def processStatusForKey (key : ProcessKey) : Option UserProcessStatus :=
  ((slotIndex key.slot).bind m.slots).bind fun p => if p.key = key then some p.status else none

/-- `complete_process_status`. -/
def completeProcessStatus (index : Fin maxAsyncProcesses) (handle address length : BitVec 64) :
    ProcessManager P :=
  (m.onSlot index () fun machine p =>
    match (p.processCapability handle).bind fun c => m.processStatusForKey c.target with
    | none => (machine, p.reply invalidArgument, ())
    | some status =>
      match p.copyStatus machine address length status with
      | none => (machine, p.reply invalidArgument, ())
      | some machine => (machine, p.reply length, ())).1

/-- The slot a process handle designates, if the incarnation is still there. -/
def targetIndex (p : ManagedProcess P) (handle : BitVec 64) : Option (Fin maxAsyncProcesses) :=
  (p.processCapability handle).bind fun capability =>
    (slotIndex capability.target.slot).filter fun index =>
      (m.slots index).any fun target => target.key == capability.target

/-- `complete_controlled_kill`. -/
def completeControlledKill (owner : Fin maxAsyncProcesses) (handle : BitVec 64) :
    ProcessManager P :=
  match m.slots owner with
  | none => m
  | some p =>
    match m.targetIndex p handle with
    | none => m.modify owner fun p => p.reply invalidArgument
    | some target =>
      if target ≠ owner ∧ (m.slots target).any (fun q => !q.process.completed) then
        (m.terminateProcessAt target .killed (some 137)).1.modify owner fun p => p.reply 0
      else m.modify owner fun p => p.reply unavailable

/-- The removal of a reaped child and of the handle it was reaped through. -/
def reapTarget (owner target : Fin maxAsyncProcesses) (handle length : BitVec 64) :
    ProcessManager P :=
  ((m.releaseEndpoints target).drop target).modify owner fun p =>
    (p.closeProcessHandle handle).1.reply length

/-- `complete_controlled_reap`. The status is copied before anything is
removed. -/
def completeControlledReap (owner : Fin maxAsyncProcesses) (handle address length : BitVec 64) :
    ProcessManager P :=
  match m.slots owner with
  | none => m
  | some p =>
    match m.targetIndex p handle with
    | none => m.modify owner fun p => p.reply invalidArgument
    | some target =>
      if (m.slots target).any (fun q => q.process.completed) then
        match (p.processCapability handle).bind fun c => m.processStatusForKey c.target with
        | none => m.modify owner fun p => p.reply invalidArgument
        | some status =>
          match p.copyStatus m.machine address length status with
          | none => m.modify owner fun p => p.reply invalidArgument
          | some machine => { m with machine := machine }.reapTarget owner target handle length
      else m.modify owner fun p => p.reply unavailable

end ProcessManager

end GenOS.Process
