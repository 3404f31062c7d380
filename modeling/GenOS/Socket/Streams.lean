/-
  GenOS.Socket.Streams — the two byte streams of a socket.

  A queue is the byte string of its first `len` bytes (`ByteQueue.content`):
  a push appends to it, a pop takes from its front.  For a handle, `pushed` and
  `received` are the bytes a call puts into and takes out of the receive queue,
  `accepted` and `handed` those of the send queue, all read off the results the
  caller sees.  One call that does not clear the queue satisfies

      queue before ++ bytes in = bytes out ++ queue after

  (`receive_step`, `send_step`), and a run adds these equations up.
-/
import GenOS.Socket.Authority

namespace GenOS.Socket

open GenOS.Lib List FixedBytes

/-! ## §1. A queue as a byte string. -/

namespace ByteQueue

variable (q : ByteQueue)

/-- The queued bytes. -/
def content : Bytes := q.bytes.slice 0 q.len

@[simp] theorem content_new : new.content = [] := rfl

@[simp] theorem content_clear : q.clear.content = [] := rfl

theorem content_length : q.content.length = q.len := by
  have := q.fits
  simp only [content, slice, drop_zero, length_take, length_val]
  omega

/-- The data, if the push returned `Ok`. -/
def stored (data : Bytes) : Except SocketError Nat → Bytes
  | .ok _ => data
  | .error _ => []

/-- The bytes that were copied out. -/
def taken : Except SocketError Bytes → Bytes
  | .ok bytes => bytes
  | .error _ => []

theorem push_content (data : Bytes) :
    (q.push data).1.content = q.content ++ stored data (q.push data).2 := by
  have hfits := q.fits
  unfold push
  split
  · rename_i h
    have hroom : q.len + data.length ≤ socketBufferCapacity := by omega
    have hlen := q.content_length
    simp only [content, slice, drop_zero] at hlen
    simp only [stored, content, slice, drop_zero, val_patch hroom]
    rw [take_append_of_le_length (by simp [hlen]), take_of_length_le (by simp [hlen])]
  · simp only [stored, append_nil]

/-- A pop moves the rest to the front; the cleared bytes lie behind it. -/
theorem moved_content {n : Nat} (hn : n ≤ q.len) :
    ((q.bytes.patch 0 (q.bytes.slice n (q.len - n))).patch (q.len - n)
      (List.replicate n 0)).slice 0 (q.len - n) = q.bytes.slice n (q.len - n) := by
  have hfits := q.fits
  have hrest : (q.bytes.slice n (q.len - n)).length = q.len - n := by
    simp only [slice, length_take, length_drop, length_val]
    omega
  have hroom : 0 + (q.bytes.slice n (q.len - n)).length ≤ socketBufferCapacity := by omega
  rw [slice_patch_of_disjoint (.inl (by omega))]
  exact slice_of_append (val_patch hroom) (by simp) hrest

theorem pop_content (room : Nat) : q.content = taken (q.pop room).2 ++ (q.pop room).1.content := by
  unfold pop
  split
  · rfl
  have hle : min q.len room ≤ q.len := Nat.min_le_left _ _
  show q.bytes.slice 0 q.len = q.bytes.slice 0 (min q.len room)
    ++ ((q.bytes.patch 0 (q.bytes.slice (min q.len room) (q.len - min q.len room))).patch
      (q.len - min q.len room) (List.replicate (min q.len room) 0)).slice 0
        (q.len - min q.len room)
  rw [q.moved_content hle]
  simp only [slice, drop_zero]
  rw [← take_add]
  congr 1
  omega

end ByteQueue

/-! ## §2. The socket of a handle. -/

variable {α : Type} {view : SocketEntry → ByteQueue} {h : BitVec 64}

namespace SocketSet

/-- The socket a handle belongs to, whoever owns it. -/
def live (s : SocketSet) (handle : BitVec 64) : Option SocketEntry :=
  match socketSlot handle with
  | none => none
  | some slot => (s.entries slot).filter (fun e => e.handle = handle)

/-- The bytes in one of the queues of a handle's socket. -/
def stream (view : SocketEntry → ByteQueue) (s : SocketSet) (handle : BitVec 64) : Bytes :=
  match s.live handle with
  | none => []
  | some e => (view e).content

variable {s : SocketSet} {owner : SocketOwner} {handle : BitVec 64} {slot : Fin socketCapacity}

theorem slotFor_socketSlot (h : s.slotFor owner handle = .ok slot) :
    socketSlot handle = some slot := by
  unfold slotFor at h
  split at h
  · cases h
  rename_i found hfound
  split at h
  · cases h
  split at h
  · cases h
  · cases h
    exact hfound

theorem live_of_slotFor {e : SocketEntry} (h : s.slotFor owner handle = .ok slot)
    (he : s.entries slot = some e) : s.live handle = some e := by
  obtain ⟨e', he', hhandle, -⟩ := slotFor_ok h
  rw [he] at he'
  cases he'
  simp [live, slotFor_socketSlot h, he, hhandle]

/-- Replacing an entry by one of the same handle concerns that handle only. -/
theorem live_put {e e' : SocketEntry} (hslot : s.slotFor owner handle = .ok slot)
    (he : s.entries slot = some e) (hhandle : e'.handle = e.handle) (h : BitVec 64) :
    (s.put slot (some e')).live h = if h = handle then some e' else s.live h := by
  obtain ⟨e₀, he₀, hown, -⟩ := slotFor_ok hslot
  rw [he] at he₀
  cases he₀
  by_cases heq : h = handle
  · subst heq
    rw [if_pos rfl, live, slotFor_socketSlot hslot]
    simp [put_entries_self, hhandle, hown]
  · rw [if_neg heq]
    unfold live
    cases hs : socketSlot h with
    | none => rfl
    | some slot' =>
      by_cases hsame : slot' = slot
      · subst hsame
        have h₁ : e'.handle ≠ h := by rw [hhandle, hown]; exact Ne.symm heq
        have h₂ : e.handle ≠ h := by rw [hown]; exact Ne.symm heq
        simp [put_entries_self, he, Option.filter, h₁, h₂]
      · simp only [put_entries_of_ne hsame]

variable {operation : SocketEntry → EntryOutcome α}

/-- What a call on the entry of a handle does to the sockets of all handles. -/
theorem withEntry_live (s : SocketSet) (owner : SocketOwner) (handle : BitVec 64)
    (hkeep : ∀ e, (operation e).1.handle = e.handle) :
    (s.withEntry owner handle operation).1 = s
        ∧ (∃ error, (s.withEntry owner handle operation).2 = .error error)
      ∨ ∃ e, s.live handle = some e ∧ e.owner = owner
        ∧ (s.withEntry owner handle operation).2 = (operation e).2
        ∧ ∀ h, (s.withEntry owner handle operation).1.live h
          = if h = handle then some (operation e).1 else s.live h := by
  unfold withEntry
  cases hslot : s.slotFor owner handle with
  | error error => exact .inl ⟨rfl, error, rfl⟩
  | ok slot =>
    obtain ⟨e, he, -, howner⟩ := slotFor_ok hslot
    simp only [he]
    exact .inr ⟨e, live_of_slotFor hslot he, howner, rfl,
      fun h => live_put hslot he (hkeep e) h⟩

/-- A call that appends to a queue what its result says it stored. -/
theorem withEntry_enters (entered : Except SocketError α → Bytes)
    (herror : ∀ error, entered (.error error) = []) (hkeep : ∀ e, (operation e).1.handle = e.handle)
    (hpass : ∀ e, (view e).content ++ entered (operation e).2 = (view (operation e).1).content)
    (h : BitVec 64) :
    s.stream view h ++ (if handle = h then entered (s.withEntry owner handle operation).2 else [])
      = (s.withEntry owner handle operation).1.stream view h := by
  rcases s.withEntry_live owner handle hkeep with ⟨hsame, error, herr⟩ | ⟨e, he, -, hres, hlive⟩
  · rw [hsame, herr, herror, ite_self, append_nil]
  by_cases heq : handle = h
  · subst heq
    simp only [stream, hlive, he, hres, if_true]
    exact hpass e
  · simp only [stream, hlive, if_neg heq, if_neg (Ne.symm heq), append_nil]

/-- A call that takes from the front of a queue what its result returns. -/
theorem withEntry_leaves (left : Except SocketError α → Bytes)
    (herror : ∀ error, left (.error error) = []) (hkeep : ∀ e, (operation e).1.handle = e.handle)
    (hpass : ∀ e, (view e).content = left (operation e).2 ++ (view (operation e).1).content)
    (h : BitVec 64) :
    s.stream view h ++ [] = (if handle = h then left (s.withEntry owner handle operation).2 else [])
      ++ (s.withEntry owner handle operation).1.stream view h := by
  rw [append_nil]
  rcases s.withEntry_live owner handle hkeep with ⟨hsame, error, herr⟩ | ⟨e, he, -, hres, hlive⟩
  · rw [hsame, herr, herror, ite_self, nil_append]
  by_cases heq : handle = h
  · subst heq
    simp only [stream, hlive, he, hres, if_true]
    exact hpass e
  · simp only [stream, hlive, if_neg heq, if_neg (Ne.symm heq), nil_append]

/-- A call that leaves the queue of the handle's entry alone. -/
theorem entry_quiet (op : SocketOp) {f : SocketEntry → SocketEntry × Bool}
    (hcall : op.entryCall = some f)
    (hview : ∀ e, op.handle = some h → op.ok s = (f e).2 → view (f e).1 = view e) :
    (op.apply s).stream view h = s.stream view h := by
  obtain ⟨owner, handle, heffect⟩ := entryEffect s hcall
  cases hslot : s.slotFor owner handle with
  | error error => rw [(heffect.refused error hslot).1]
  | ok slot =>
    obtain ⟨e, he, -, -⟩ := slotFor_ok hslot
    obtain ⟨happly, hok⟩ := heffect.resolved slot e hslot he
    have hlive := live_put hslot he (entryCall_outcome hcall e).step.handle h
    rw [happly]
    by_cases heq : h = handle
    · rw [if_pos heq] at hlive
      simp only [stream, hlive]
      rw [hview e (heq ▸ heffect.target) hok, heq, live_of_slotFor hslot he]
    · rw [if_neg heq] at hlive
      simp only [stream, hlive]

/-- What an entry contributes to the queue of a handle. -/
def share (view : SocketEntry → ByteQueue) (handle : BitVec 64) : Option SocketEntry → Bytes
  | none => []
  | some e => if e.handle = handle then (view e).content else []

theorem stream_eq_share (view : SocketEntry → ByteQueue) (s : SocketSet) (handle : BitVec 64) :
    s.stream view handle = match socketSlot handle with
      | none => []
      | some slot => share view handle (s.entries slot) := by
  unfold stream live
  cases socketSlot handle with
  | none => rfl
  | some slot =>
    dsimp only
    cases s.entries slot with
    | none => rfl
    | some e => by_cases h : e.handle = handle <;> simp [share, Option.filter, h]

/-- A slot that contributes as before. -/
theorem stream_update {t : SocketSet} {entry : Option SocketEntry}
    (ht : t.entries = Function.update s.entries slot entry)
    (hshare : share view h entry = share view h (s.entries slot)) :
    t.stream view h = s.stream view h := by
  rw [stream_eq_share, stream_eq_share]
  cases socketSlot h with
  | none => rfl
  | some slot' =>
    dsimp only
    rw [ht]
    by_cases heq : slot' = slot
    · subst heq
      rw [Function.update_self, hshare]
    · rw [Function.update_of_ne heq]

/-! ## §3. Calls that open and close. -/

/-- A view of the two queues a new socket has empty. -/
structure View (view : SocketEntry → ByteQueue) : Prop where
  fresh : ∀ owner protocol generation slot,
    view (freshEntry owner protocol generation slot) = ByteQueue.new
  adopted : ∀ connection localPort e, view (adopt connection localPort e).1 = view e
  waiting : ∀ e position, view (SocketEntry.removeIncoming position e) = view e

theorem View.receive : View SocketEntry.receive :=
  ⟨fun _ _ _ _ => rfl, fun _ _ _ => rfl, fun _ _ => rfl⟩

theorem View.send : View SocketEntry.send :=
  ⟨fun _ _ _ _ => rfl, fun _ _ _ => rfl, fun _ _ => rfl⟩

section Views

variable {view : SocketEntry → ByteQueue} (hview : View view)

include hview

theorem openSocket_stream (protocol : SocketProtocol) (h : BitVec 64) :
    (s.openSocket owner protocol).1.stream view h = s.stream view h := by
  rcases s.openSocket_cases owner protocol with ⟨e, heq⟩ | ⟨slot, hempty, -, heq⟩
  · rw [heq]
  rw [heq]
  have hentries : (s.opened owner protocol slot).entries = Function.update s.entries slot
      (some (freshEntry owner protocol s.nextGeneration slot)) := rfl
  refine stream_update hentries ?_
  simp [hempty, share, hview.fresh]

theorem accept_stream (h : BitVec 64) :
    (s.accept owner handle).1.stream view h = s.stream view h := by
  rcases s.accept_cases owner handle with ⟨e, heq⟩ | ⟨slot, listener, child, connection, localPort,
    -, hl, -, hempty, -, heq, -⟩
  · rw [heq]
  have hne : child ≠ slot := by
    rintro rfl
    rw [hempty] at hl
    cases hl
  -- the listener first, then the child
  have hlistener : (s.put slot (some (listener.removeIncoming 0))).stream view h
      = s.stream view h := by
    refine stream_update rfl ?_
    simp only [hl, share, hview.waiting]
    rfl
  rw [← hlistener]
  refine stream_update (s := s.put slot (some (listener.removeIncoming 0))) heq ?_
  rw [put_entries_of_ne hne, hempty]
  simp [share, acceptedChild, hview.adopted, hview.fresh]

end Views

/-- A close of another socket. -/
theorem close_stream (hother : handle = h → (s.close owner handle).2.isOk = false) :
    (s.close owner handle).1.stream view h = s.stream view h := by
  unfold close at hother ⊢
  cases hslot : s.slotFor owner handle with
  | error e => rfl
  | ok slot =>
    rw [hslot] at hother
    have hne : handle ≠ h := fun heq => absurd (hother heq) (by simp [Except.isOk, Except.toBool])
    obtain ⟨e, he, hhandle, -⟩ := slotFor_ok hslot
    have hentries : (s.put slot none).entries = Function.update s.entries slot none := rfl
    refine stream_update hentries ?_
    rw [he]
    simp [share, hhandle, hne]

theorem closeOwner_stream (hother : (s.live h).any (fun e => e.owner = owner) = false) :
    (s.closeOwner owner).1.stream view h = s.stream view h := by
  rw [stream_eq_share, stream_eq_share]
  unfold live at hother
  cases hslot : socketSlot h with
  | none => rfl
  | some slot =>
    simp only [hslot] at hother ⊢
    show share view h (if (s.entries slot).any (fun e => decide (e.owner = owner)) then none
      else s.entries slot) = _
    cases he : s.entries slot with
    | none => simp
    | some e =>
      rw [he] at hother
      by_cases hhandle : e.handle = h
      · simp only [Option.filter, hhandle, decide_true, if_true, Option.any_some] at hother
        simp only [Option.any_some, hother, Bool.false_eq_true, if_false]
      · by_cases hown : e.owner = owner <;> simp [share, hhandle, hown]

end SocketSet

/-! ## §4. What a call reports. -/

namespace SocketOp

open ByteQueue

/-- The bytes of a result that also names the destination. -/
def launched : Except SocketError (BitVec 32 × BitVec 16 × Bytes) → Bytes
  | .ok (_, _, bytes) => bytes
  | .error _ => []

variable (h : BitVec 64) (s : SocketSet)

/-- The bytes `push_receive` or a successful completion puts into the receive
queue of the handle. -/
def pushed : SocketOp → Bytes
  | .pushReceive owner handle data =>
    if handle = h then stored data (s.pushReceive owner handle data).2 else []
  | .completeTransport owner handle protocol requestId response =>
    if handle = h then
      stored response (s.completeTransport owner handle protocol requestId response).2
    else []
  | .completeUdpSend owner handle requestId response =>
    if handle = h then stored response (s.completeUdpSend owner handle requestId response).2
    else []
  | _ => []

/-- The bytes `receive` returns. -/
def received : SocketOp → Bytes
  | .receive owner handle room => if handle = h then taken (s.receive owner handle room).2 else []
  | _ => []

/-- The bytes `send` accepts. -/
def accepted : SocketOp → Bytes
  | .send owner handle data => if handle = h then stored data (s.send owner handle data).2 else []
  | _ => []

/-- The bytes handed out to a transport. -/
def handed : SocketOp → Bytes
  | .beginTransport owner handle protocol requestId =>
    if handle = h then launched (s.beginTransport owner handle protocol requestId).2 else []
  | .beginUdpSend owner handle requestId =>
    if handle = h then launched (s.beginUdpSend owner handle requestId).2 else []
  | .beginServerSend owner handle requestId =>
    if handle = h then taken (s.beginServerSend owner handle requestId).2 else []
  | .takeSend owner handle room => if handle = h then taken (s.takeSend owner handle room).2 else []
  | _ => []

/-- The call closes the socket of the handle. -/
def closes : SocketOp → Bool
  | .close owner handle => handle == h && (s.close owner handle).2.isOk
  | .closeOwner owner => (s.live h).any (fun e => e.owner = owner)
  | _ => false

/-- A shutdown or a close clears the receive queue of the handle. -/
def clearsReceive : SocketOp → Bool
  | .shutdown owner handle read write =>
    handle == h && read && (s.shutdown owner handle read write).2.isOk
  | op => op.closes h s

/-- A shutdown, a failure or a close clears the send queue of the handle. -/
def clearsSend : SocketOp → Bool
  | .shutdown owner handle read write =>
    handle == h && write && (s.shutdown owner handle read write).2.isOk
  | .fail owner handle => handle == h && (s.fail owner handle).2.isOk
  | op => op.closes h s

/-- The peer of the handle's socket closed the connection. -/
def peerCloses : SocketOp → Bool
  | .markServerClosed owner handle peer =>
    handle == h && (s.markServerClosed owner handle peer).2.isOk
  | _ => false

end SocketOp

open SocketOp

/-! ## §5. The queues of one entry. -/

namespace SocketEntry

open ByteQueue

variable (e : SocketEntry)

/-- A send appends what it accepts. -/
theorem sendBytes_flow (data : Bytes) :
    e.send.content ++ stored data (e.sendBytes data).2 = (e.sendBytes data).1.send.content := by
  unfold sendBytes
  split
  · exact append_nil _
  split
  · exact append_nil _
  · exact (push_content e.send data).symm

/-- Starting a transport hands out the whole queue. -/
theorem beginTransport_flow (protocol : SocketProtocol) (requestId : BitVec 64) :
    e.send.content = launched (e.beginTransport protocol requestId).2
      ++ (e.beginTransport protocol requestId).1.send.content := by
  unfold beginTransport
  split
  · rfl
  · exact (append_nil _).symm

variable (requestId : BitVec 64)

theorem beginUdpSend_flow :
    e.send.content = launched (e.beginUdpSend requestId).2
      ++ (e.beginUdpSend requestId).1.send.content := by
  unfold beginUdpSend
  split
  · rfl
  · exact (append_nil _).symm

theorem beginServerSend_flow :
    e.send.content = taken (e.beginServerSend requestId).2
      ++ (e.beginServerSend requestId).1.send.content := by
  unfold beginServerSend
  split
  · rfl
  · exact (append_nil _).symm

/-- A completion appends its response, or fails and appends nothing. -/
theorem completeTransport_flow (protocol : SocketProtocol) (requestId : BitVec 64)
    (response : Bytes) :
    e.receive.content ++ stored response (e.completeTransport protocol requestId response).2
      = (e.completeTransport protocol requestId response).1.receive.content := by
  unfold completeTransport
  split
  · exact append_nil _
  have hpush := push_content e.receive response
  dsimp only
  cases hres : (e.receive.push response).2 with
  | ok n =>
    rw [hres] at hpush
    dsimp only
    split <;> exact hpush.symm
  | error err =>
    rw [hres] at hpush
    exact hpush.symm

theorem completeUdpSend_flow (response : Bytes) :
    e.receive.content ++ stored response (e.completeUdpSend requestId response).2
      = (e.completeUdpSend requestId response).1.receive.content := by
  unfold completeUdpSend
  split
  · exact append_nil _
  have hpush := push_content e.receive response
  dsimp only
  cases hres : (e.receive.push response).2 with
  | ok n | error err =>
    rw [hres] at hpush
    exact hpush.symm

theorem pushReceive_flow (data : Bytes) :
    e.receive.content ++ stored data (e.pushReceive data).2
      = (e.pushReceive data).1.receive.content := by
  unfold pushReceive
  split
  · exact append_nil _
  · exact (push_content e.receive data).symm

theorem receiveBytes_flow (room : Nat) :
    e.receive.content = taken (e.receiveBytes room).2
      ++ (e.receiveBytes room).1.receive.content := by
  unfold receiveBytes
  split
  · rfl
  · exact pop_content e.receive room

/-- A shutdown keeps the queue of the direction it does not close. -/
theorem shutdown_receive (write : Bool) :
    (e.shutdown false write).1.receive = e.receive := by
  unfold shutdown
  split
  · rfl
  split
  · rfl
  split
  · rfl
  · cases write <;> dsimp only [clearReceiveIf, clearSendIf] <;>
      cases shutdownState false _ e.state <;> rfl

theorem shutdown_send (read : Bool) : (e.shutdown read false).1.send = e.send := by
  unfold shutdown
  split
  · rfl
  split
  · rfl
  split
  · rename_i hwrite
    exact absurd hwrite.2 (by simp)
  · cases read <;> dsimp only [clearReceiveIf, clearSendIf] <;>
      cases shutdownState _ false e.state <;> rfl

/-- A shutdown of some direction that fails does nothing. -/
theorem shutdown_refused {read write : Bool} (hflags : ¬ (read = false ∧ write = false))
    (h : (e.shutdown read write).2.isOk = false) : (e.shutdown read write).1 = e := by
  rcases e.shutdown_cases hflags with ⟨error, heq⟩ | ⟨-, ⟨-, -, -, heq⟩ | ⟨-, state, -, heq⟩⟩
  · rw [heq]
  · rw [heq] at h
    cases h
  · rw [heq] at h
    cases h

end SocketEntry

open SocketEntry

namespace SocketOp

/-- The calls that may change the receive queue. -/
def reachesReceive : SocketOp → Bool
  | .completeTransport .. | .completeUdpSend .. | .pushReceive .. | .receive .. | .shutdown .. => true
  | _ => false

/-- The calls that may change the send queue. -/
def reachesSend : SocketOp → Bool
  | .send .. | .beginTransport .. | .beginUdpSend .. | .beginServerSend .. | .takeSend ..
  | .markServerClosed .. | .shutdown .. | .fail .. => true
  | _ => false

variable {op : SocketOp} {f : SocketEntry → SocketEntry × Bool}

theorem receive_kept (hcall : op.entryCall = some f) (hop : op.reachesReceive = false)
    (e : SocketEntry) : (f e).1.receive = e.receive := by
  cases op <;> cases hcall <;> cases hop
  all_goals
    simp only [reported, SocketEntry.connect, SocketEntry.validateBind, SocketEntry.bindTo,
      SocketEntry.listen, SocketEntry.queueIncoming, SocketEntry.dropIncoming,
      SocketEntry.markConnected, SocketEntry.sendBytes, SocketEntry.beginTransport,
      SocketEntry.failTransport, SocketEntry.beginServerSend, SocketEntry.completeServerSend,
      SocketEntry.markServerReadClosed, SocketEntry.markServerClosed, SocketEntry.beginUdpSend,
      SocketEntry.failUdpSend, SocketEntry.takeSend, SocketEntry.fail]
    repeat' split
    all_goals rfl

theorem send_kept (hcall : op.entryCall = some f) (hop : op.reachesSend = false)
    (e : SocketEntry) : (f e).1.send = e.send := by
  cases op <;> cases hcall <;> cases hop
  all_goals
    simp only [reported, SocketEntry.connect, SocketEntry.validateBind, SocketEntry.bindTo,
      SocketEntry.listen, SocketEntry.queueIncoming, SocketEntry.dropIncoming,
      SocketEntry.markConnected, SocketEntry.completeTransport, SocketEntry.failTransport,
      SocketEntry.completeServerSend, SocketEntry.markServerReadClosed, SocketEntry.completeUdpSend,
      SocketEntry.failUdpSend, SocketEntry.pushReceive, SocketEntry.receiveBytes]
    repeat' split
    all_goals rfl

end SocketOp

/-! ## §6. One call. -/

section Steps

open ByteQueue SocketSet

variable (s : SocketSet) (h : BitVec 64) (op : SocketOp)

/-- A call written with `withEntry` keeps the handle. -/
theorem reported_handle {operation : SocketEntry → EntryOutcome α}
    (hcall : op.entryCall = some fun e => reported (operation e)) (e : SocketEntry) :
    (operation e).1.handle = e.handle :=
  (entryCall_outcome hcall e).step.handle

theorem receive_quiet {op : SocketOp} {f : SocketEntry → SocketEntry × Bool}
    (hcall : op.entryCall = some f) (hop : op.reachesReceive = false) (h : BitVec 64) :
    (op.apply s).stream receive h = s.stream receive h :=
  entry_quiet op hcall fun e _ _ => receive_kept hcall hop e

theorem send_quiet {op : SocketOp} {f : SocketEntry → SocketEntry × Bool}
    (hcall : op.entryCall = some f) (hop : op.reachesSend = false) (h : BitVec 64) :
    (op.apply s).stream send h = s.stream send h :=
  entry_quiet op hcall fun e _ _ => send_kept hcall hop e

/-- A shutdown that does not clear the queue of the handle. -/
theorem shutdown_stream {owner : SocketOwner} {handle : BitVec 64} {read write : Bool}
    (hkept : (handle == h && (s.shutdown owner handle read write).2.isOk) = true →
      ∀ e, view (shutdown read write e).1 = view e) :
    (s.shutdown owner handle read write).1.stream view h = s.stream view h := by
  refine entry_quiet (.shutdown owner handle read write) rfl (fun e htarget hok => ?_)
  split
  · rfl
  rename_i hflags
  rw [if_neg hflags] at hok
  show view (e.shutdown read write).1 = view e
  cases hres : (e.shutdown read write).2.isOk with
  | true =>
    have hok : (s.shutdown owner handle read write).2.isOk = true := hok.trans hres
    rw [hok, Option.some.inj htarget] at hkept
    exact hkept (by simp) e
  | false => rw [e.shutdown_refused hflags hres]

/-- Nothing enters or leaves a queue that stays as it is. -/
theorem stream_kept {s t : SocketSet} {h : BitVec 64} (ht : t.stream view h = s.stream view h) :
    s.stream view h ++ [] = [] ++ t.stream view h := by
  rw [ht, append_nil, nil_append]

/-- **The receive queue is a stream**: what a call pushes enters at the end and
what it returns leaves at the front, unless it clears the queue. -/
theorem receive_step (hclear : op.clearsReceive h s = false) :
    s.stream receive h ++ op.pushed h s
      = op.received h s ++ (op.apply s).stream receive h := by
  cases op
  case openSocket owner protocol => exact stream_kept (openSocket_stream View.receive protocol h)
  case accept owner handle => exact stream_kept (accept_stream View.receive h)
  case closeOwner owner => exact stream_kept (closeOwner_stream hclear)
  case close owner handle =>
    refine stream_kept (close_stream (fun heq => ?_))
    simpa [clearsReceive, closes, heq] using hclear
  case completeTransport owner handle protocol requestId response =>
    exact withEntry_enters (stored response) (fun _ => rfl)
      (reported_handle (.completeTransport owner handle protocol requestId response) rfl)
      (fun e => e.completeTransport_flow protocol requestId response) h
  case completeUdpSend owner handle requestId response =>
    exact withEntry_enters (stored response) (fun _ => rfl)
      (reported_handle (.completeUdpSend owner handle requestId response) rfl)
      (fun e => e.completeUdpSend_flow requestId response) h
  case pushReceive owner handle data =>
    exact withEntry_enters (stored data) (fun _ => rfl)
      (reported_handle (.pushReceive owner handle data) rfl)
      (fun e => e.pushReceive_flow data) h
  case receive owner handle room =>
    exact withEntry_leaves taken (fun _ => rfl)
      (reported_handle (.receive owner handle room) rfl) (fun e => e.receiveBytes_flow room) h
  case shutdown owner handle read write =>
    refine stream_kept (shutdown_stream s h (fun hok e => ?_))
    cases read with
    | false => exact e.shutdown_receive write
    | true =>
      simp only [clearsReceive, Bool.and_true, hok] at hclear
      cases hclear
  -- the other calls do not reach the queue
  all_goals exact stream_kept (receive_quiet s rfl rfl h)

/-- **The send queue is a stream**: what `send` accepts enters at the end and
what a transport gets leaves at the front, unless the call clears the queue. -/
theorem send_step (hclear : op.clearsSend h s = false) (hpeer : op.peerCloses h s = false) :
    s.stream send h ++ op.accepted h s
      = op.handed h s ++ (op.apply s).stream send h := by
  cases op
  case openSocket owner protocol => exact stream_kept (openSocket_stream View.send protocol h)
  case accept owner handle => exact stream_kept (accept_stream View.send h)
  case closeOwner owner => exact stream_kept (closeOwner_stream hclear)
  case close owner handle =>
    refine stream_kept (close_stream (fun heq => ?_))
    simpa [clearsSend, closes, heq] using hclear
  case send owner handle data =>
    exact withEntry_enters (stored data) (fun _ => rfl)
      (reported_handle (.send owner handle data) rfl) (fun e => e.sendBytes_flow data) h
  case beginTransport owner handle protocol requestId =>
    exact withEntry_leaves launched (fun _ => rfl)
      (reported_handle (.beginTransport owner handle protocol requestId) rfl)
      (fun e => e.beginTransport_flow protocol requestId) h
  case beginServerSend owner handle requestId =>
    exact withEntry_leaves taken (fun _ => rfl)
      (reported_handle (.beginServerSend owner handle requestId) rfl)
      (fun e => e.beginServerSend_flow requestId) h
  case beginUdpSend owner handle requestId =>
    exact withEntry_leaves launched (fun _ => rfl)
      (reported_handle (.beginUdpSend owner handle requestId) rfl)
      (fun e => e.beginUdpSend_flow requestId) h
  case takeSend owner handle room =>
    exact withEntry_leaves taken (fun _ => rfl)
      (reported_handle (.takeSend owner handle room) rfl)
      (fun e => pop_content e.send room) h
  case markServerClosed owner handle peer =>
    refine stream_kept (entry_quiet _ rfl (fun e htarget hok => ?_))
    -- it did not return `Ok` on this handle
    have hok : (s.markServerClosed owner handle peer).2.isOk = (e.markServerClosed peer).2.isOk := hok
    rw [peerCloses, hok, Option.some.inj htarget] at hpeer
    show (e.markServerClosed peer).1.send = e.send
    unfold SocketEntry.markServerClosed at hpeer ⊢
    split
    · rfl
    rename_i hmine
    rw [if_neg hmine] at hpeer
    simp [Except.isOk, Except.toBool] at hpeer
  case shutdown owner handle read write =>
    refine stream_kept (shutdown_stream s h (fun hok e => ?_))
    cases write with
    | false => exact e.shutdown_send read
    | true =>
      simp only [clearsSend, Bool.and_true, hok] at hclear
      cases hclear
  case fail owner handle =>
    refine stream_kept (entry_quiet _ rfl (fun e htarget hok => ?_))
    -- it always returns `Ok` on a live handle
    have hok : (s.fail owner handle).2.isOk = true := hok
    rw [clearsSend, hok, Option.some.inj htarget] at hclear
    simp at hclear
  all_goals exact stream_kept (send_quiet s rfl rfl h)

end Steps

/-! ## §7. Runs. -/

/-- The set after the calls. -/
def runSockets (s : SocketSet) (ops : List SocketOp) : SocketSet := ops.foldl SocketOp.apply s

/-- The bytes the calls report, one after the other. -/
def collect (report : SocketSet → SocketOp → Bytes) : SocketSet → List SocketOp → Bytes
  | _, [] => []
  | s, op :: ops => report s op ++ collect report (op.apply s) ops

/-- No call of the run is of this kind. -/
def never (kind : SocketSet → SocketOp → Bool) : SocketSet → List SocketOp → Bool
  | _, [] => true
  | s, op :: ops => !kind s op && never kind (op.apply s) ops

/-- A queue that is a stream in every call of a run is one over the run. -/
theorem collect_stream
    {entered left : SocketSet → SocketOp → Bytes} (clears : SocketSet → SocketOp → Bool)
    (hstep : ∀ s op, clears s op = false →
      s.stream view h ++ entered s op = left s op ++ (op.apply s).stream view h)
    (ops : List SocketOp) : ∀ s, never clears s ops = true →
      s.stream view h ++ collect entered s ops
        = collect left s ops ++ (runSockets s ops).stream view h := by
  induction ops with
  | nil =>
    intro s _
    show s.stream view h ++ [] = [] ++ s.stream view h
    rw [append_nil, nil_append]
  | cons op ops ih =>
    intro s hnever
    simp only [never, Bool.and_eq_true, Bool.not_eq_true'] at hnever
    show s.stream view h ++ (entered s op ++ collect entered (op.apply s) ops)
      = (left s op ++ collect left (op.apply s) ops) ++ (runSockets (op.apply s) ops).stream view h
    rw [← append_assoc, hstep s op hnever.1, append_assoc, ih _ hnever.2,
      append_assoc]

/-- **The byte streams of a socket are lossless and ordered.**  For every
handle and every sequence of calls: while no shutdown or close clears the
receive queue, the bytes pushed are the bytes received followed by those still
queued; while no shutdown, failure, close or close of the peer clears the send
queue, the bytes accepted are the bytes handed out followed by those still
queued. -/
theorem socket_streams_ordered (ops : List SocketOp) (h : BitVec 64) :
    (never (SocketOp.clearsReceive h) SocketSet.new ops = true →
      collect (SocketOp.pushed h) SocketSet.new ops
        = collect (SocketOp.received h) SocketSet.new ops
          ++ (reached ops).stream SocketEntry.receive h)
    ∧ (never (fun s op => op.clearsSend h s || op.peerCloses h s) SocketSet.new ops = true →
      collect (SocketOp.accepted h) SocketSet.new ops
        = collect (SocketOp.handed h) SocketSet.new ops
          ++ (reached ops).stream SocketEntry.send h) := by
  have hnew : ∀ view, SocketSet.new.stream view h = [] := by
    intro view
    rw [SocketSet.stream_eq_share]
    cases socketSlot h <;> rfl
  constructor
  · intro hnever
    have hrun := collect_stream _ (fun s op hc => receive_step s h op hc) ops SocketSet.new hnever
    rw [hnew, List.nil_append] at hrun
    exact hrun
  · intro hnever
    have hrun := collect_stream (fun s op => op.clearsSend h s || op.peerCloses h s)
      (fun s op hc => send_step s h op (Bool.or_eq_false_iff.mp hc).1
        (Bool.or_eq_false_iff.mp hc).2) ops SocketSet.new hnever
    rw [hnew, List.nil_append] at hrun
    exact hrun

/-- A datagram socket that sends three bytes and receives two, one of which is
read. -/
theorem socket_streams_ordered_datagram :
    let owner : SocketOwner := ⟨1, 1⟩
    let handle := socketHandle owner 1 0
    let ops : List SocketOp := [.openSocket owner .udp, .connect owner handle 9 53,
      .send owner handle [1, 2, 3], .takeSend owner handle 2, .pushReceive owner handle [4, 5],
      .receive owner handle 1]
    collect (SocketOp.pushed handle) SocketSet.new ops
        = [4] ++ (reached ops).stream SocketEntry.receive handle
      ∧ collect (SocketOp.accepted handle) SocketSet.new ops
        = [1, 2] ++ (reached ops).stream SocketEntry.send handle := by
  intro owner handle ops
  obtain ⟨hreceive, hsend⟩ := socket_streams_ordered ops handle
  have hread : collect (SocketOp.received handle) SocketSet.new ops = [4] := by decide +kernel
  have hsent : collect (SocketOp.handed handle) SocketSet.new ops = [1, 2] := by decide +kernel
  rw [← hread, ← hsent]
  exact ⟨hreceive (by decide +kernel), hsend (by decide +kernel)⟩

/-- A listener accepts one connection, the child sends a byte and the peer
closes. -/
def closedByPeer : List SocketOp :=
  let owner : SocketOwner := ⟨1, 1⟩
  let listener := socketHandle owner 1 0
  let child := socketHandle owner 2 1
  let peer : TcpServerPeer := ⟨1, 5000, 2000, 0, 0, FixedBytes.zero⟩
  [.openSocket owner .tcpStream, .bind owner listener 2000, .listen owner listener 2,
    .queueIncoming owner listener peer, .accept owner listener, .send owner child [120],
    .markServerClosed owner child peer]

/-- **The peer's close drops accepted bytes**: no call of the run shuts down,
fails or closes, and the accepted byte is neither handed out nor queued. -/
theorem closedByPeer_drops :
    let child := socketHandle ⟨1, 1⟩ 2 1
    never (SocketOp.clearsSend child) SocketSet.new closedByPeer = true
      ∧ collect (SocketOp.accepted child) SocketSet.new closedByPeer = [120]
      ∧ collect (SocketOp.handed child) SocketSet.new closedByPeer = []
      ∧ (reached closedByPeer).stream SocketEntry.send child = [] := by
  decide +kernel

end GenOS.Socket
