/-
  GenOS.Socket.EntrySteps — the structure of one socket entry.

  `EntryOk` is the structure of one entry.  It is kept by every operation on
  an entry, given one more fact, that the backlog of a socket is empty before
  it listens (`EntryInv`).  The operations also keep the entry's identity,
  which is what the handle checks rest on (`EntryStep`).
-/
import GenOS.Socket.EntryCalls

namespace GenOS.Socket

open GenOS.Lib

/-! ## §1. The structure of one entry. -/

/-- The send bytes fit, the in-flight request is set exactly while bytes are
in flight, and the backlog is packed at the front. -/
structure EntryOk (e : SocketEntry) : Prop where
  sendBound : e.send.len + e.inFlightSend ≤ socketBufferCapacity
  flight : e.inFlightRequest ≠ 0 ↔ e.inFlightSend ≠ 0
  backlogBound : e.backlogLen ≤ e.backlogLimit
  limitBound : e.backlogLimit ≤ socketListenerBacklogCapacity
  cells : ∀ i, (e.backlog i).isSome = true ↔ i.val < e.backlogLen

/-- The states before `listen`. -/
def SocketState.unlistened (state : SocketState) : Prop := state = .opened ∨ state = .bound

open SocketState

variable {state : SocketState}

/-- Any other state is not one of them. -/
theorem SocketState.later (h : state ≠ .opened ∧ state ≠ .bound) {P : Prop} :
    state.unlistened → P := by
  intro hs
  rcases hs with hs | hs
  · exact absurd hs h.1
  · exact absurd hs h.2

/-- The invariant: nothing is queued at a socket that never listened. -/
structure EntryInv (e : SocketEntry) : Prop extends EntryOk e where
  unused : e.state.unlistened → e.backlogLen = 0

/-- What an operation on an entry keeps. -/
structure EntryStep (e e' : SocketEntry) : Prop where
  handle : e'.handle = e.handle
  owner : e'.owner = e.owner
  generation : e'.generation = e.generation
  inv : EntryInv e → EntryInv e'

namespace EntryStep

variable {e : SocketEntry}

section

variable (e : SocketEntry)

theorem refl : EntryStep e e := ⟨rfl, rfl, rfl, fun h => h⟩

theorem trans {a b c : SocketEntry} (h : EntryStep a b) (h' : EntryStep b c) : EntryStep a c :=
  ⟨h'.handle.trans h.handle, h'.owner.trans h.owner, h'.generation.trans h.generation,
    fun hi => h'.inv (h.inv hi)⟩

/-- Fields the structure does not mention, and a state that is not one before
`listen` unless the old one was. -/
theorem unrelated (target : BitVec 32) (port localPort : BitVec 16)
    (serverPeer : Option TcpServerPeer) (receive : ByteQueue)
    (hstate : state.unlistened → e.state.unlistened) :
    EntryStep e { e with
      target := target, port := port, localPort := localPort, serverPeer := serverPeer,
      receive := receive, state := state } :=
  ⟨rfl, rfl, rfl, fun h => ⟨⟨h.sendBound, h.flight, h.backlogBound, h.limitBound, h.cells⟩,
    fun hs => h.unused (hstate hs)⟩⟩

theorem withState (hstate : state.unlistened → e.state.unlistened) :
    EntryStep e { e with state := state } :=
  unrelated e _ _ _ _ _ hstate

theorem withReceive (receive : ByteQueue) : EntryStep e { e with receive := receive } :=
  unrelated e _ _ _ _ _ (fun h => h)

theorem land (e : SocketEntry) : EntryStep e e.land := by
  refine ⟨rfl, rfl, rfl, fun h => ⟨⟨?_, ?_, h.backlogBound, h.limitBound, h.cells⟩, h.unused⟩⟩
  · exact Nat.le_trans (Nat.le_add_right _ _) h.sendBound
  · simp [SocketEntry.land]

/-- Another send queue, if it fits beside the bytes in flight. -/
theorem withSend {send : ByteQueue}
    (hfit : e.send.len + e.inFlightSend ≤ socketBufferCapacity →
      send.len + e.inFlightSend ≤ socketBufferCapacity)
    : EntryStep e { e with send := send } :=
  ⟨rfl, rfl, rfl, fun h => ⟨⟨hfit h.sendBound, h.flight, h.backlogBound, h.limitBound, h.cells⟩,
    h.unused⟩⟩

theorem clearSend : EntryStep e { e with send := e.send.clear } := by
  refine withSend e (fun h => ?_)
  show 0 + e.inFlightSend ≤ _
  omega

end

theorem launch {requestId : BitVec 64} (hidle : e.idle requestId = true) :
    EntryStep e (e.launch requestId) := by
  simp only [SocketEntry.idle, Bool.and_eq_true, bne_iff_ne, ne_eq, beq_iff_eq] at hidle
  obtain ⟨⟨⟨hid, _⟩, _⟩, hlen⟩ := hidle
  refine ⟨rfl, rfl, rfl, fun h => ⟨⟨?_, ?_, h.backlogBound, h.limitBound, h.cells⟩, h.unused⟩⟩
  · have := h.sendBound
    show 0 + e.send.len ≤ _
    omega
  · exact ⟨fun _ => hlen, fun _ => hid⟩

/-- Taking a queued connection out. -/
theorem removeIncoming {position : Nat} (hpos : position < e.backlogLen) :
    EntryStep e (e.removeIncoming position) := by
  refine ⟨rfl, rfl, rfl, fun h => ⟨⟨h.sendBound, h.flight, ?_, h.limitBound, ?_⟩, ?_⟩⟩
  · exact Nat.le_trans (Nat.sub_le _ _) h.backlogBound
  · intro i
    have hi := i.isLt
    have hle := Nat.le_trans h.backlogBound h.limitBound
    have hlast : e.backlogLen - 1 < socketListenerBacklogCapacity := by omega
    show (setAt (copyWithin e.backlog (position + 1) e.backlogLen position) (e.backlogLen - 1)
      none i).isSome = true ↔ i.val < e.backlogLen - 1
    rw [setAt, dif_pos hlast]
    by_cases heq : i = ⟨e.backlogLen - 1, hlast⟩
    · subst heq
      simp
    · have hne : i.val ≠ e.backlogLen - 1 := fun hv => heq (Fin.ext hv)
      rw [Function.update_of_ne heq, copyWithin]
      split
      · rename_i hmove
        rw [h.cells]
        show i.val - position + (position + 1) < e.backlogLen ↔ _
        omega
      · rename_i hstay
        rw [h.cells]
        omega
  · intro hs
    have := h.unused hs
    omega

end EntryStep

/-! ## §2. Every operation on an entry keeps it. -/

namespace SocketEntry

variable (e : SocketEntry)

/-- A bound socket starts to listen: its backlog is empty. -/
theorem listen_step {backlog : Nat} (hstate : e.state = .bound)
    (hle : backlog ≤ socketListenerBacklogCapacity) :
    EntryStep e { e with backlogLimit := backlog, state := .listening } := by
  refine ⟨rfl, rfl, rfl, fun h => ⟨⟨h.sendBound, h.flight, ?_, hle, h.cells⟩, ?_⟩⟩
  · show e.backlogLen ≤ backlog
    rw [h.unused (.inr hstate)]
    exact Nat.zero_le _
  · exact later
      (show listening ≠ .opened ∧ listening ≠ .bound by decide)

theorem queueIncoming_step (peer : TcpServerPeer) (hstate : e.state = .listening)
    (hroom : e.backlogLen < e.backlogLimit) :
    EntryStep e { e with
      backlog := setAt e.backlog e.backlogLen (some peer), backlogLen := e.backlogLen + 1 } := by
  refine ⟨rfl, rfl, rfl, fun h => ⟨⟨h.sendBound, h.flight, hroom, h.limitBound, ?_⟩, ?_⟩⟩
  · intro i
    have hlt : e.backlogLen < socketListenerBacklogCapacity := Nat.lt_of_lt_of_le hroom h.limitBound
    show (setAt e.backlog e.backlogLen (some peer) i).isSome = true ↔ i.val < e.backlogLen + 1
    rw [setAt, dif_pos hlt]
    by_cases heq : i = ⟨e.backlogLen, hlt⟩
    · subst heq
      simp
    · have hne : i.val ≠ e.backlogLen := fun hv => heq (Fin.ext hv)
      rw [Function.update_of_ne heq, h.cells]
      omega
  · exact later (show e.state ≠ .opened ∧ e.state ≠ .bound by rw [hstate]; decide)

theorem incomingPosition_lt {peer : TcpServerPeer} {position : Nat}
    (h : e.incomingPosition peer = some position) : position < e.backlogLen := by
  rw [incomingPosition, Option.map_eq_some_iff] at h
  obtain ⟨i, hi, rfl⟩ := h
  have hmem := List.mem_of_find?_eq_some hi
  obtain ⟨k, hk⟩ := List.getElem?_of_mem hmem
  obtain ⟨hlt, hval⟩ := List.getElem?_eq_some_iff.mp hk
  rw [List.length_take] at hlt
  rw [List.getElem_take, List.getElem_finRange] at hval
  rw [← hval]
  show k < e.backlogLen
  omega

/-- A push grows the queue by at most the pushed bytes. -/
theorem push_len_le (q : ByteQueue) (data : Bytes) :
    (q.push data).1.len ≤ q.len + data.length := by
  unfold ByteQueue.push
  split
  · exact Nat.le_refl _
  · exact Nat.le_add_right _ _

theorem pop_len_le (q : ByteQueue) (room : Nat) : (q.pop room).1.len ≤ q.len := by
  unfold ByteQueue.pop
  split
  · exact Nat.le_refl _
  · exact Nat.sub_le _ _

/-- A request that ends in one of the later states. -/
theorem landed_step (receive : ByteQueue) (hstate : state.unlistened → e.state.unlistened) :
    EntryStep e { e.land with receive := receive, state := state } :=
  (EntryStep.land e).trans (.unrelated e.land _ _ _ _ _ hstate)

/-- A socket whose send side is given up. -/
theorem abandoned_step (hstate : state.unlistened → e.state.unlistened) :
    EntryStep e { e.land with send := e.send.clear, state := state } :=
  ((EntryStep.land e).trans (.clearSend e.land)).trans
    (.withState { e.land with send := e.send.clear } hstate)

theorem clearReceiveIf_step (read : Bool) : EntryStep e (e.clearReceiveIf read) := by
  unfold clearReceiveIf
  split
  · exact .withReceive e _
  · exact .refl e

theorem clearSendIf_step (write : Bool) : EntryStep e (e.clearSendIf write) := by
  unfold clearSendIf
  split
  · exact (EntryStep.land e).trans (.clearSend e.land)
  · exact .refl e

/-- `shutdown` leads to a closed or half-closed state. -/
theorem shutdownState_later {read write : Bool} {state' : SocketState}
    (h : shutdownState read write state = some state') {P : Prop} : state'.unlistened → P := by
  unfold shutdownState at h
  split at h <;> cases h <;> exact later (by decide)

theorem adopt_step (connection : TcpServerPeer) (localPort : BitVec 16) :
    EntryStep e (SocketSet.adopt connection localPort e).1 :=
  .unrelated e _ _ _ _ _ (later (by decide))

end SocketEntry

/-- **Every outcome of a call keeps the structure.** -/
theorem Outcome.step {e : SocketEntry} {op : SocketOp} {r : SocketEntry × Bool}
    (h : Outcome e op r) : EntryStep e r.1 := by
  cases h with
  | refused => exact .refl e
  | connected hop target port hstate =>
    refine .unrelated e _ _ _ _ _ ?_
    cases e.protocol <;> exact later (by decide)
  | bound hop localPort hstate => exact .unrelated e _ _ _ _ _ (fun _ => .inl hstate)
  | listening hop backlog hstate hle => exact e.listen_step hstate hle
  | queued owner handle peer hop hstate hroom => exact e.queueIncoming_step peer hstate hroom
  | dropped owner handle peer position hop hstate hposition =>
    exact .removeIncoming (e.incomingPosition_lt hposition)
  | established hop hstate => exact .withState e (later (by decide))
  | sent hop data ok hstate hroom =>
    refine .withSend e (fun h => ?_)
    have := SocketEntry.push_len_le e.send data
    omega
  | launched requestId hop hidle hstate => exact .launch hidle
  | landed requestId hop hrequest hsend => exact .land e
  | failed requestId hop hrequest hsend =>
    exact e.landed_step _ (later (by decide))
  | completed requestId hop receive state ok hrequest hsend hexchanging hstate =>
    refine e.landed_step _ ?_
    rcases hstate with rfl | rfl | ⟨rfl, -⟩
    · exact later (by decide)
    · exact later (by decide)
    · exact id
  | readClosed hop state hstate =>
    refine .withState e ?_
    rcases hstate with rfl | ⟨-, rfl⟩
    · exact id
    · exact later (by decide)
  | abandoned hop hqueue state hstate =>
    refine e.abandoned_step ?_
    rcases hstate with rfl | rfl <;> exact later (by decide)
  | taken hop room ok =>
    refine .withSend e (fun h => ?_)
    have := SocketEntry.pop_len_le e.send room
    omega
  | arrived hop data ok hstate | read hop room ok hstate => exact .withReceive e _
  | shutServer owner handle read hop hserver hidle hopen =>
    refine (e.clearReceiveIf_step read).trans ((EntryStep.clearSend _).trans (.withState _ ?_))
    exact later (by decide)
  | shutClient owner handle read write state hop hclient hopen hstate =>
    exact ((e.clearReceiveIf_step read).trans ((e.clearReceiveIf read).clearSendIf_step write)).trans
      (.withState _ (SocketEntry.shutdownState_later hstate))

end GenOS.Socket
