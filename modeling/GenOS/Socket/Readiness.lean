/-
  GenOS.Socket.Readiness — what the readiness bits promise.

  `status` tests the state of a socket in its own words, and `send`, `receive`
  and `accept` test it again.  The bits are compared with what the calls would
  return, in every reachable set.  They agree in every state but one: `status`
  reports a socket in state `Open` as writable, and `send` refuses it.
-/
import GenOS.Socket.ReadShutdown
import GenOS.Socket.Queries

namespace GenOS.Socket

open GenOS.Lib SocketSet

/-! ## §1. A property of all entries. -/

variable {s : SocketSet}

/-- **What every call keeps holds of all entries.** -/
theorem entries_apply {P : SocketEntry → Prop}
    (hcall : ∀ op f, SocketOp.entryCall op = some f → ∀ e, P e → P (f e).1)
    (htook : ∀ e, P e → P (e.removeIncoming 0))
    (hfresh : ∀ owner protocol generation slot,
      P (freshEntry owner protocol generation slot))
    (hchild : ∀ owner generation slot connection localPort,
      P (acceptedChild owner generation slot connection localPort))
    (hall : ∀ slot e, s.entries slot = some e → P e) (op : SocketOp) :
    ∀ slot e, (op.apply s).entries slot = some e → P e := by
  intro slot' e' he'
  cases effect s op with
  | unchanged heq hok =>
    rw [heq] at he'
    exact hall slot' e' he'
  | replaced owner handle slot e f hcaller htarget hslot he hentry heq hok =>
    rw [heq] at he'
    rcases update_some he' with ⟨-, hnew⟩ | ⟨-, hold⟩
    · cases hnew
      exact hcall op f hentry e (hall slot e he)
    · exact hall slot' e' hold
  | removed owner handle slot hop hslot heq =>
    rw [heq] at he'
    rcases update_some he' with ⟨-, hnew⟩ | ⟨-, hold⟩
    · cases hnew
    · exact hall slot' e' hold
  | opened owner protocol slot hop hempty hgen heq =>
    rw [hop, SocketOp.apply, heq] at he'
    rcases update_some he' with ⟨-, hnew⟩ | ⟨-, hold⟩
    · cases hnew
      exact hfresh _ _ _ _
    · exact hall slot' e' hold
  | accepted owner handle slot child listener connection localPort hop hslot hl hpos hempty hgen heq
      hreply hnext =>
      rw [heq] at he'
      rcases update_some he' with ⟨-, hnew⟩ | ⟨-, hold⟩
      · cases hnew
        exact hchild _ _ _ _ _
      · rcases update_some hold with ⟨-, hnew⟩ | ⟨-, hold⟩
        · cases hnew
          exact htook listener (hall slot listener hl)
        · exact hall slot' e' hold
  | ownerClosed owner hop =>
    rw [hop] at he'
    exact hall slot' e' (closeOwner_entries he').1

/-- The same in every reachable set. -/
theorem entries_reached {P : SocketEntry → Prop}
    (hcall : ∀ op f, SocketOp.entryCall op = some f → ∀ e, P e → P (f e).1)
    (htook : ∀ e, P e → P (e.removeIncoming 0))
    (hfresh : ∀ owner protocol generation slot,
      P (freshEntry owner protocol generation slot))
    (hchild : ∀ owner generation slot connection localPort,
      P (acceptedChild owner generation slot connection localPort))
    (ops : List SocketOp) : ∀ slot e, (reached ops).entries slot = some e → P e := by
  induction ops using List.reverseRecOn with
  | nil =>
    intro slot e he
    cases he
  | append_singleton ops op ih =>
    rw [reached_snoc]
    exact entries_apply hcall htook hfresh hchild ih op

/-! ## §2. Sockets that are not connected yet. -/

/-- The states before a connection. -/
def SocketState.early : SocketState → Bool
  | .opened | .connecting => true
  | _ => false

/-- Nothing was received before a connection, nothing is sent before
`connect`, and only a stream waits for its connection. -/
structure Early (e : SocketEntry) : Prop where
  unread : e.state.early = true → e.receive.len = 0
  unsent : e.state = .opened → e.send.len = 0 ∧ e.inFlightSend = 0
  stream : e.state = .connecting → e.protocol = .tcpStream

namespace Early

variable {e : SocketEntry}

/-- A later state. -/
theorem later {e' : SocketEntry} (h : e'.state.early = false) : Early e' := by
  refine ⟨fun hearly => ?_, fun hs => ?_, fun hs => ?_⟩
  · rw [h] at hearly
    cases hearly
  · rw [hs] at h
    cases h
  · rw [hs] at h
    cases h

/-- The calls that leave the state and the receive queue alone, and the send
side unless the state allows it. -/
theorem kept {e' : SocketEntry} (h : Early e) (hstate : e'.state = e.state)
    (hreceive : e'.receive = e.receive) (hprotocol : e'.protocol = e.protocol)
    (hsend : e.state = .opened → e'.send.len = 0 ∧ e'.inFlightSend = 0) : Early e' := by
  refine ⟨?_, ?_, ?_⟩
  · rw [hstate, hreceive]
    exact h.unread
  · rw [hstate]
    exact hsend
  · rw [hstate, hprotocol]
    exact h.stream

/-- A datagram socket with a request in flight is connected. -/
theorem of_exchanging (h : Early e) (hexchanging : e.exchanging = true)
    (hprotocol : e.protocol ≠ .tcpStream) : e.state.early = false := by
  cases hs : e.state with
  | opened =>
    rw [SocketEntry.exchanging, hs] at hexchanging
    cases hexchanging
  | connecting => exact absurd (h.stream hs) hprotocol
  | _ => rfl

/-- **Every call on an entry keeps it.** -/
theorem call (h : Early e) {op : SocketOp} {f : SocketEntry → SocketEntry × Bool}
    (hcall : op.entryCall = some f) : Early (f e).1 := by
  have houtcome := entryCall_outcome hcall e
  generalize f e = r at houtcome
  cases houtcome with
  | refused => exact h
  | connected hop target port hstate =>
    cases hprotocol : e.protocol with
    | udp => exact later rfl
    | tcpStream =>
      refine ⟨fun _ => h.unread (by rw [hstate]; rfl), fun hs => ?_, fun _ => rfl⟩
      cases hs
  | bound | listening | established | failed | shutServer => exact later rfl
  | queued | dropped => exact h.kept rfl rfl rfl h.unsent
  | sent hop data ok hstate | launched requestId hop hidle hstate =>
    refine h.kept rfl rfl rfl (fun hs => ?_)
    simp [hs] at hstate
  | landed => exact h.kept rfl rfl rfl (fun hs => ⟨(h.unsent hs).1, rfl⟩)
  | completed requestId hop receive state ok hrequest hsend hexchanging hstate =>
    rcases hstate with rfl | rfl | ⟨rfl, hprotocol⟩
    · exact later rfl
    · exact later rfl
    · exact later (h.of_exchanging hexchanging hprotocol)
  | readClosed hop state hstate =>
    rcases hstate with rfl | ⟨-, rfl⟩
    · exact h
    · exact later rfl
  | abandoned hop hqueue state hstate => rcases hstate with rfl | rfl <;> exact later rfl
  | taken hop room ok =>
    refine h.kept rfl rfl rfl (fun hs => ⟨?_, (h.unsent hs).2⟩)
    show (e.send.pop room).1.len = 0
    rw [ByteQueue.pop, if_pos (h.unsent hs).1]
    exact (h.unsent hs).1
  | arrived hop data ok hstate =>
    refine later ?_
    show e.state.early = false
    rcases hstate with hs | hs <;> rw [hs] <;> rfl
  | read hop room ok hstate =>
    refine later ?_
    show e.state.early = false
    rw [not_or] at hstate
    cases hs : e.state with
    | opened => exact absurd hs hstate.1
    | connecting => exact absurd hs hstate.2
    | _ => rfl
  | shutClient owner handle read write state hop hclient hopen hstate =>
    refine later ?_
    show state.early = false
    cases read <;> cases write <;> cases hs : e.state <;> rw [hs] at hstate <;> cases hstate <;> rfl

/-- It holds in every reachable set. -/
theorem reached (ops : List SocketOp) (slot : Fin socketCapacity) (e : SocketEntry)
    (he : (reached ops).entries slot = some e) : Early e := by
  refine entries_reached (fun op f hf e he => he.call hf)
    (fun e he => he.kept rfl rfl rfl he.unsent) (fun owner protocol generation slot => ?_)
    (fun owner generation slot connection localPort => later rfl) ops slot e he
  refine ⟨fun _ => rfl, fun _ => ⟨rfl, rfl⟩, fun hs => ?_⟩
  cases hs

end Early

/-! ## §3. The bits. -/

/-- The bit is reported. -/
def SocketStatus.reports (st : SocketStatus) (bit : BitVec 64) : Prop := st.readiness &&& bit ≠ 0

namespace SocketEntry

variable (e : SocketEntry)

/-- The bits do not overlap, but for the readable bit of a listener. -/
theorem flags_apart : ∀ receive listener writable connected closed failed : Bool,
    let readiness := flag receive socketReadyReadable
      ||| flag listener (socketReadyReadable ||| socketReadyAccept)
      ||| flag writable socketReadyWritable ||| flag connected socketReadyConnected
      ||| flag closed socketReadyClosed ||| flag failed socketReadyError
    (readiness &&& socketReadyReadable ≠ 0 ↔ (receive || listener) = true)
      ∧ (readiness &&& socketReadyWritable ≠ 0 ↔ writable = true)
      ∧ (readiness &&& socketReadyAccept ≠ 0 ↔ listener = true) := by
  decide

theorem reports_writable :
    e.status.reports socketReadyWritable
      ↔ e.send.len + e.inFlightSend < socketBufferCapacity ∧ sendClosed e.state = false := by
  refine (flags_apart _ _ _ _ _ _).2.1.trans ?_
  rw [decide_eq_true_iff]

theorem reports_accept :
    e.status.reports socketReadyAccept ↔ e.state = .listening ∧ e.backlogLen ≠ 0 := by
  refine (flags_apart _ _ _ _ _ _).2.2.trans ?_
  rw [decide_eq_true_iff]

theorem reports_readable (h : e.state ≠ .listening) :
    e.status.reports socketReadyReadable ↔ e.receive.len ≠ 0 := by
  refine (flags_apart _ _ _ _ _ _).1.trans ?_
  simp [h]

/-- A byte is accepted in the states `send` names, while there is room. -/
theorem sendBytes_isOk (b : UInt8) :
    (e.sendBytes [b]).2.isOk = true
      ↔ (e.state = .connecting ∨ e.state = .established ∨ e.state = .readClosed)
        ∧ e.send.len + e.inFlightSend < socketBufferCapacity := by
  unfold sendBytes
  split
  · rename_i hstate
    exact ⟨(fun h => by cases h), fun h => absurd h.1 hstate⟩
  · rename_i hstate
    rw [not_not] at hstate
    split
    · rename_i hfull
      have hlen : [b].length = 1 := rfl
      rw [hlen] at hfull
      refine ⟨(fun h => by cases h), fun h => ?_⟩
      have hroom := h.2
      omega
    · rename_i hroom
      have hlen : [b].length = 1 := rfl
      rw [hlen] at hroom
      refine ⟨fun _ => ⟨hstate, by omega⟩, fun _ => ?_⟩
      show (e.send.push [b]).2.isOk = true
      unfold ByteQueue.push
      rw [dif_pos ⟨by simp, by rw [hlen]; omega⟩]
      rfl

/-- Something is read in the states after a connection, if there is
something. -/
theorem receiveBytes_isOk (room : Nat) :
    (e.receiveBytes room).2.isOk = true ↔ e.state.early = false ∧ e.receive.len ≠ 0 := by
  unfold receiveBytes
  split
  · rename_i hstate
    refine ⟨(fun h => by cases h), fun h => ?_⟩
    have hlate := h.1
    rcases hstate with hs | hs <;> rw [hs] at hlate <;> cases hlate
  · rename_i hstate
    have hlate : e.state.early = false := by
      rw [not_or] at hstate
      cases hs : e.state with
      | opened => exact absurd hs hstate.1
      | connecting => exact absurd hs hstate.2
      | _ => rfl
    show (e.receive.pop room).2.isOk = true ↔ _
    by_cases hlen : e.receive.len = 0
    · rw [ByteQueue.pop, if_pos hlen]
      exact ⟨(fun h => by cases h), fun h => absurd hlen h.2⟩
    · rw [ByteQueue.pop_ok hlen]
      exact ⟨fun _ => ⟨hlate, hlen⟩, fun _ => rfl⟩

end SocketEntry

/-- A queued connection is accepted, if there is room for its child. -/
theorem accept_isOk {owner : SocketOwner} {handle : BitVec 64} {e : SocketEntry}
    (hres : s.Resolves owner handle e) (hinv : EntryInv e) (hfree : s.freeSlot ≠ none)
    (hgen : ¬ (s.nextGeneration = 0 ∨ socketGenerationMax < s.nextGeneration)) :
    (s.accept owner handle).2.isOk = true ↔ e.state = .listening ∧ e.backlogLen ≠ 0 := by
  obtain ⟨slot, hslot, he⟩ := hres
  by_cases hready : e.state ≠ .listening ∨ e.backlogLen = 0
  · have hpend : s.pendingConnection slot = .error .wouldBlock := by
      simp only [pendingConnection, he, if_pos hready]
    have hrefused : (s.accept owner handle).2 = .error .wouldBlock := by
      simp only [accept, if_neg hfree, hslot, hpend]
    rw [hrefused]
    refine ⟨(fun h => by cases h), fun h => ?_⟩
    rcases hready with hne | hzero
    · exact absurd h.1 hne
    · exact absurd hzero h.2
  · have hlisten : e.state = .listening ∧ e.backlogLen ≠ 0 := by
      simpa only [not_or, not_not] using hready
    -- the first cell of a backlog that is not empty holds a connection
    obtain ⟨connection, hfirst⟩ := Option.isSome_iff_exists.mp
      ((hinv.cells ⟨0, by decide⟩).mpr (Nat.pos_of_ne_zero hlisten.2))
    have hpend : s.pendingConnection slot = .ok (connection, e.localPort) := by
      simp only [pendingConnection, he, if_neg hready, hfirst]
    obtain ⟨child, hchild⟩ := Option.ne_none_iff_exists'.mp hfree
    have hopen : s.openSocket owner .tcpStream
        = (s.opened owner .tcpStream child, .ok (socketHandle owner s.nextGeneration child)) := by
      simp only [openSocket, hchild, if_neg hgen]
      rfl
    have hreply := (accept_opened hfree hslot hpend he (freeSlot_some hchild)
      (BitVec.not_lt.mp (fun h => hgen (.inr h))) hopen).2.1
    rw [hreply]
    exact ⟨fun _ => hlisten, fun _ => rfl⟩

/-! ## §4. When the bits tell the truth. -/

/-- The readiness bits of a handle say what the calls would return: a byte
sent, something read into a buffer that has room, and a connection accepted
while there is a slot and a generation for it. -/
structure Truthful (s : SocketSet) (owner : SocketOwner) (handle : BitVec 64) (st : SocketStatus) :
    Prop where
  writable : ∀ b, st.reports socketReadyWritable ↔ (s.send owner handle [b]).2.isOk = true
  readable : st.state ≠ .listening → ∀ room, 0 < room →
    (st.reports socketReadyReadable ↔ (s.receive owner handle room).2.isOk = true)
  accept : s.freeSlot ≠ none →
    ¬ (s.nextGeneration = 0 ∨ socketGenerationMax < s.nextGeneration) →
    (st.reports socketReadyAccept ↔ (s.accept owner handle).2.isOk = true)

theorem resolves_of_entry {owner : SocketOwner} {handle : BitVec 64} {e : SocketEntry}
    (h : s.entry owner handle = .ok e) : s.Resolves owner handle e := by
  unfold entry at h
  split at h
  · cases h
  rename_i slot hslot
  split at h
  · cases h
  rename_i found hfound
  cases h
  exact ⟨slot, hslot, hfound⟩

/-- **The readiness bits tell the truth in every state but `Open`.** -/
theorem readiness_truthful_iff (ops : List SocketOp) (owner : SocketOwner) (handle : BitVec 64)
    (e : SocketEntry) (he : (reached ops).entry owner handle = .ok e) :
    (∀ st, (reached ops).status owner handle = .ok st → Truthful (reached ops) owner handle st)
      ↔ e.state ≠ .opened := by
  have hres := resolves_of_entry he
  have hstatus : (reached ops).status owner handle = .ok e.status := by
    simp only [SocketSet.status, he]
  obtain ⟨hinv, hearly⟩ : EntryInv e ∧ Early e := by
    obtain ⟨slot, -, hentry⟩ := hres
    exact ⟨(reached_sound ops).inv.entry slot e hentry, Early.reached ops slot e hentry⟩
  have hsend : ∀ b, ((reached ops).send owner handle [b]).2 = (e.sendBytes [b]).2 :=
    fun b => hres.withEntry
  constructor
  · intro htruth hopened
    -- nothing is queued before `connect`, so the bit is set, and `send` refuses
    have hbit : e.status.reports socketReadyWritable := by
      obtain ⟨hlen, hflight⟩ := hearly.unsent hopened
      refine e.reports_writable.mpr ⟨?_, by rw [hopened]; rfl⟩
      rw [hlen, hflight]
      decide
    have hok := ((htruth _ hstatus).writable 0).mp hbit
    rw [hsend, SocketEntry.sendBytes_isOk, hopened] at hok
    simp at hok
  · intro hopened st hst
    cases hstatus.symm.trans hst
    refine ⟨fun b => ?_, fun hlisten room _ => ?_, fun hfree hgen => ?_⟩
    · rw [hsend, SocketEntry.sendBytes_isOk, SocketEntry.reports_writable, and_comm]
      refine and_congr_left fun _ => ?_
      cases hs : e.state with
      | opened => exact absurd hs hopened
      | _ => decide
    · have hread : ((reached ops).receive owner handle room).2 = (e.receiveBytes room).2 :=
        hres.withEntry
      rw [hread, SocketEntry.receiveBytes_isOk, e.reports_readable hlisten]
      refine ⟨fun hlen => ⟨?_, hlen⟩, fun h => h.2⟩
      cases hs : e.state.early with
      | false => rfl
      | true => exact absurd (hearly.unread hs) hlen
    · rw [accept_isOk hres hinv hfree hgen, SocketEntry.reports_accept]

/-- A connected datagram socket. -/
theorem readiness_truthful_datagram :
    let owner : SocketOwner := ⟨1, 1⟩
    let handle := socketHandle owner 1 0
    let ops : List SocketOp := [.openSocket owner .udp, .connect owner handle 9 53,
      .pushReceive owner handle [4]]
    ∃ st, (reached ops).status owner handle = .ok st ∧ st.readiness = 7
      ∧ Truthful (reached ops) owner handle st := by
  intro owner handle ops
  have hfound : ((reached ops).status owner handle).map (fun st => (st.readiness, st.state))
      = .ok (7, .established) := by decide +kernel
  cases he : (reached ops).entry owner handle with
  | error error =>
    simp only [SocketSet.status, he] at hfound
    cases hfound
  | ok e =>
    have hstatus : (reached ops).status owner handle = .ok e.status := by
      simp only [SocketSet.status, he]
    rw [hstatus] at hfound
    have hpair : (e.status.readiness, e.state) = (7, .established) := Except.ok.inj hfound
    have hstate : e.state ≠ .opened := by
      rw [(Prod.mk.inj hpair).2]
      decide
    exact ⟨e.status, hstatus, (Prod.mk.inj hpair).1,
      (readiness_truthful_iff ops owner handle e he).mpr hstate e.status hstatus⟩

/-- **A socket that was just opened is reported as writable, and refuses to
send.** -/
theorem opened_reported_writable :
    let owner : SocketOwner := ⟨1, 1⟩
    let handle := socketHandle owner 1 0
    let s := reached [.openSocket owner .udp]
    ((s.status owner handle).map fun st => st.readiness &&& socketReadyWritable)
        = .ok socketReadyWritable
      ∧ (s.send owner handle [7]).2 = .error .invalidState := by
  decide +kernel

end GenOS.Socket
