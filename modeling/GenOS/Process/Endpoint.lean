/-
  GenOS.Process.Endpoint — endpoint authority and fair message queues.

  Translates `ipc.rs` (`ChannelQueue`) and `endpoint.rs` (`EndpointState`).  A
  process holds a small table of endpoint capabilities and publishes at most
  one endpoint, whose queue admits one message per sender.  Every operation
  works on the endpoint state and on the registry of the same process and
  returns both.
-/
import GenOS.Lib.Ring
import GenOS.Process.HandleTable

namespace GenOS.Process

open GenOS.Lib

/-! ## §1. Message queues. -/

/-- `USER_ENDPOINT_HANDLE_CAPACITY`. -/
def endpointHandleCapacity : Nat := 4

/-- `USER_ENDPOINT_QUEUE_CAPACITY`. -/
def endpointQueueCapacity : Nat := 4

instance : NeZero endpointQueueCapacity := ⟨by decide⟩

/-- `USER_CHANNEL_MESSAGE_SIZE`, the size of two 64-bit words. -/
def userChannelMessageSize : BitVec 64 := 16

/-- `HANDLE_RIGHT_USE`. -/
def handleRightUse : BitVec 64 := 1

structure UserChannelMessage where
  senderPid : BitVec 64
  value : BitVec 64
  deriving DecidableEq

/-- `UserChannelMessage::empty`. -/
def UserChannelMessage.empty : UserChannelMessage := ⟨0, 0⟩

/-- `ChannelQueue<ENDPOINT_QUEUE_CAPACITY>`. -/
abbrev ChannelQueue := Ring endpointQueueCapacity UserChannelMessage

namespace ChannelQueue

/-- `new`. -/
def new : ChannelQueue := Ring.empty UserChannelMessage.empty

/-- `contains_sender`. -/
def containsSender (q : ChannelQueue) (senderPid : BitVec 64) : Bool :=
  (List.range q.len).any fun offset => (q.cells (q.cell offset)).senderPid == senderPid

/-- `push`. -/
def push (q : ChannelQueue) (message : UserChannelMessage) : ChannelQueue × Bool :=
  if h : endpointQueueCapacity = 0 ∨ q.len = endpointQueueCapacity
      ∨ q.containsSender message.senderPid then (q, false)
  else
    (Ring.push q message (Nat.lt_of_le_of_ne q.fits fun hfull => h (Or.inr (Or.inl hfull))), true)

end ChannelQueue

/-! ## §2. Endpoint state. -/

inductive QueueResult where
  | queued (depth : Nat)
  | duplicateProducer
  | full
  | unpublished
  deriving DecidableEq

/-- The metadata of a receive that is parked on the published endpoint. -/
structure PendingReceive where
  handle : BitVec 64
  generation : BitVec 64
  address : BitVec 64
  length : BitVec 64
  deriving DecidableEq

inductive EndpointRole where
  /-- Names the generation of the endpoint this process publishes itself. -/
  | receive (generation : BitVec 64)
  /-- Names one remote endpoint: a pid and the generation it published. -/
  | send (targetPid : BitVec 8) (targetGeneration : BitVec 64)
  deriving DecidableEq

/-- The kind under which a capability is registered. -/
def EndpointRole.kind : EndpointRole → HandleKind
  | .receive _ => .endpointReceive
  | .send _ _ => .endpointSend

structure EndpointCapability where
  handle : BitVec 64
  ownerPid : BitVec 8
  generation : BitVec 64
  slot : Fin endpointHandleCapacity
  role : EndpointRole
  deriving DecidableEq

structure PublishedEndpoint where
  generation : BitVec 64
  queue : ChannelQueue

structure EndpointState where
  ownerPid : BitVec 8
  handles : Slots endpointHandleCapacity EndpointCapability
  nextGeneration : BitVec 64
  published : Option PublishedEndpoint
  pendingReceive : Option PendingReceive

/-- `ENDPOINT_GENERATION_MAX`. -/
def endpointGenerationMax : BitVec 64 := 0xffffffff

/-- `endpoint_handle`. -/
def endpointHandle (ownerPid : BitVec 8) (generation : BitVec 64) (slot : Nat) : BitVec 64 :=
  (0xe9#64 <<< 56) ||| (ownerPid.setWidth 64 <<< 40) ||| (generation <<< 8)
    ||| BitVec.ofNat 64 (slot + 1)

/-- `endpoint_handle_slot`. -/
def endpointHandleSlot (handle : BitVec 64) : Option (Fin endpointHandleCapacity) :=
  if handle &&& (0xff#64 <<< 56) ≠ 0xe9#64 <<< 56 then none
  else
    let slot := (handle &&& 0xff#64).toNat
    if h : 1 ≤ slot ∧ slot ≤ endpointHandleCapacity then some ⟨slot - 1, by omega⟩ else none

namespace EndpointState

variable {n : Nat}

/-- `new`. -/
def new (ownerPid : BitVec 8) : EndpointState := ⟨ownerPid, Slots.empty, 1, none, none⟩

variable (s : EndpointState)

/-- `published_generation`. -/
def publishedGeneration : Option (BitVec 64) :=
  s.published.map PublishedEndpoint.generation

/-- `next_generation`. -/
def takeGeneration : Option (BitVec 64 × EndpointState) :=
  if endpointGenerationMax < s.nextGeneration then none
  else some (s.nextGeneration, { s with nextGeneration := s.nextGeneration + 1 })

section

variable (handles : HandleTable n)

/-- `allocate`. The generation stays taken when the registration fails. -/
def allocate (role : EndpointRole) : EndpointState × HandleTable n × Option (BitVec 64) :=
  match s.handles.firstFree with
  | none => (s, handles, none)
  | some slot =>
    match s.takeGeneration with
    | none => (s, handles, none)
    | some (generation, s) =>
      let handle := endpointHandle s.ownerPid generation slot
      match handles.register handle role.kind handleRightUse with
      | (handles, false) => (s, handles, none)
      | (handles, true) =>
        ({ s with handles := s.handles.put slot ⟨handle, s.ownerPid, generation, slot, role⟩ },
          handles, some handle)

/-- `capability`. -/
def capability (s : EndpointState) (handles : HandleTable n) (handle : BitVec 64) :
    Option EndpointCapability :=
  match endpointHandleSlot handle with
  | none => none
  | some slot =>
    match s.handles slot with
    | none => none
    | some capability =>
      if capability.handle = handle ∧ capability.ownerPid = s.ownerPid ∧ capability.slot = slot
          ∧ endpointHandle capability.ownerPid capability.generation slot = handle
          ∧ handles.allows handle capability.role.kind handleRightUse then
        some capability
      else none

/-- `send_capability`. -/
def sendCapability (handle : BitVec 64) : Option (BitVec 8 × BitVec 64) :=
  match s.capability handles handle with
  | none => none
  | some capability =>
    match capability.role with
    | .send targetPid targetGeneration => some (targetPid, targetGeneration)
    | .receive _ => none

/-- `receive_generation`. -/
def receiveGeneration (handle : BitVec 64) : Option (BitVec 64) :=
  match s.capability handles handle with
  | none => none
  | some capability =>
    match capability.role with
    | .send _ _ => none
    | .receive generation =>
      if s.publishedGeneration = some generation then some generation else none

/-- `create`. -/
def create : EndpointState × HandleTable n × Option (BitVec 64) :=
  if s.published.isSome then (s, handles, none)
  else
    match s.handles.firstFree with
    | none => (s, handles, none)
    | some slot =>
      match s.takeGeneration with
      | none => (s, handles, none)
      | some (generation, s) =>
        let handle := endpointHandle s.ownerPid generation slot
        match handles.register handle .endpointReceive handleRightUse with
        | (handles, false) => (s, handles, none)
        | (handles, true) =>
          ({ s with
              handles := s.handles.put slot
                ⟨handle, s.ownerPid, generation, slot, .receive generation⟩
              published := some ⟨generation, ChannelQueue.new⟩ },
            handles, some handle)

/-- The part of `close` that unpublishes the endpoint of a receive capability. -/
def unpublish : EndpointRole → Option EndpointState
  | .send _ _ => some s
  | .receive generation =>
    if s.publishedGeneration ≠ some generation then none
    else some { s with published := none, pendingReceive := none }

/-- `close`. -/
def close (handle : BitVec 64) : EndpointState × HandleTable n × Option EndpointRole :=
  match s.capability handles handle with
  | none => (s, handles, none)
  | some capability =>
    match s.unpublish capability.role with
    | none => (s, handles, none)
    | some s =>
      match handles.unregister handle capability.role.kind with
      | (handles, false) => (s, handles, none)
      | (handles, true) =>
        ({ s with handles := s.handles.drop capability.slot }, handles, some capability.role)

end

/-- One turn of the loop of `revoke_send_handles`. -/
def revokeSlot (targetPid : BitVec 8) (targetGeneration : BitVec 64)
    (o : EndpointState × HandleTable n × Nat) (slot : Fin endpointHandleCapacity) :
    EndpointState × HandleTable n × Nat :=
  match o.1.handles slot with
  | none => o
  | some capability =>
    if capability.role = .send targetPid targetGeneration then
      ({ o.1 with handles := o.1.handles.drop slot },
        (o.2.1.unregister capability.handle .endpointSend).1, o.2.2 + 1)
    else o

/-- `revoke_send_handles`. -/
def revokeSendHandles (handles : HandleTable n) (targetPid : BitVec 8)
    (targetGeneration : BitVec 64) : EndpointState × HandleTable n × Nat :=
  (List.finRange endpointHandleCapacity).foldl (revokeSlot targetPid targetGeneration)
    (s, handles, 0)

/-- `clear_payload`. -/
def clearPayload : EndpointState :=
  { s with handles := Slots.empty, published := none, pendingReceive := none }

variable (handles : HandleTable n)

/-- `clear`. -/
def clear : EndpointState × HandleTable n :=
  (s.clearPayload,
    s.handles.values.foldl
      (fun handles capability => (handles.unregister capability.handle capability.role.kind).1)
      handles)

/-- `registry_is_consistent`. -/
def registryIsConsistent : Bool :=
  s.handles.values.all fun capability =>
    s.capability handles capability.handle == some capability
      && !handles.allows capability.handle .file 0

/-- `park_receive`. -/
def parkReceive (pending : PendingReceive) : EndpointState × Bool :=
  if s.receiveGeneration handles pending.handle ≠ some pending.generation
      ∨ pending.length ≠ userChannelMessageSize then (s, false)
  else ({ s with pendingReceive := some pending }, true)

/-- `clear_pending_receive`. -/
def clearPendingReceive : EndpointState := { s with pendingReceive := none }

/-- `enqueue`. -/
def enqueue (message : UserChannelMessage) : EndpointState × QueueResult :=
  match s.published with
  | none => (s, .unpublished)
  | some endpoint =>
    if endpoint.queue.containsSender message.senderPid then (s, .duplicateProducer)
    else
      match endpoint.queue.push message with
      | (_, false) => (s, .full)
      | (queue, true) =>
        ({ s with published := some { endpoint with queue := queue } }, .queued queue.len)

/-- `pop_message`. -/
def popMessage : EndpointState × Option UserChannelMessage :=
  match s.published with
  | none => (s, none)
  | some endpoint =>
    match endpoint.queue.pop with
    | none => (s, none)
    | some (message, queue) =>
      ({ s with published := some { endpoint with queue := queue } }, some message)

end EndpointState

/-! ## §3. The order of messages. -/

inductive Transfer where
  | send (message : UserChannelMessage)
  | receive

/-- The endpoint with the messages that were queued and those that were taken. -/
structure Traffic where
  state : EndpointState
  queued : List UserChannelMessage
  taken : List UserChannelMessage

namespace Traffic

def step (t : Traffic) : Transfer → Traffic
  | .send message =>
    match t.state.enqueue message with
    | (s, .queued _) => ⟨s, t.queued ++ [message], t.taken⟩
    | (s, _) => { t with state := s }
  | .receive =>
    match t.state.popMessage with
    | (s, some message) => ⟨s, t.queued, t.taken ++ [message]⟩
    | (s, none) => { t with state := s }

/-- The endpoint holds what was queued and not taken, one message of a sender. -/
def Ordered (generation : BitVec 64) (t : Traffic) : Prop :=
  ∃ queue : ChannelQueue, t.state.published = some ⟨generation, queue⟩
    ∧ t.queued = t.taken ++ queue.toList
    ∧ (queue.toList.map UserChannelMessage.senderPid).Nodup

theorem Ordered.step {generation : BitVec 64} {t : Traffic} (h : t.Ordered generation)
    (transfer : Transfer) : (t.step transfer).Ordered generation := by
  have hsame := h
  obtain ⟨queue, hpublished, horder, hsenders⟩ := h
  cases transfer with
  | send message =>
    rw [Traffic.step, EndpointState.enqueue, hpublished]
    dsimp only
    -- a second message of a sender and one for a full queue are refused
    by_cases hsender : queue.containsSender message.senderPid
    · rwa [if_pos hsender]
    rw [if_neg hsender, ChannelQueue.push]
    by_cases hfull : queue.len = endpointQueueCapacity
    · rwa [dif_pos (.inr (.inl hfull))]
    rw [dif_neg (by simp [hfull, hsender]; decide)]
    refine ⟨_, rfl, ?_, ?_⟩
    · rw [Ring.toList_push, horder, List.append_assoc]
    · rw [Ring.toList_push, List.map_append, List.nodup_append]
      refine ⟨hsenders, List.nodup_singleton _, ?_⟩
      simpa [ChannelQueue.containsSender, Ring.toList] using hsender
  | receive =>
    rw [Traffic.step, EndpointState.popMessage, hpublished]
    dsimp only
    rcases queue.pop_cases with ⟨hpop, -⟩ | ⟨message, queue', hpop, hlist⟩
    · rwa [hpop]
    · rw [hlist] at horder hsenders
      rw [hpop]
      exact ⟨queue', rfl, by simpa using horder, (List.nodup_cons.mp hsenders).2⟩

end Traffic

/-- **Messages leave a published endpoint once each, in the order in which they were queued.** -/
theorem messages_in_order (s : EndpointState) (generation : BitVec 64) (transfers : List Transfer) :
    (transfers.foldl Traffic.step
      ⟨{ s with published := some ⟨generation, .new⟩ }, [], []⟩).Ordered generation :=
  List.foldlRecOn transfers _ ⟨.new, rfl, rfl, List.nodup_nil⟩ fun _ h transfer _ => h.step transfer

end GenOS.Process
