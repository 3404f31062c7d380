/-
  GenOS.Socket.ReadShutdown — what a shut read side stays like.

  One state field stands for both directions.  A client whose read side was
  shut has an empty receive queue and a state in which nothing is delivered,
  and every call keeps this (`ReadShut`).  An accepted child that was shut for
  reading may still be shut for writing, and that branch of `shutdown` assigns
  `WriteClosed` whatever the read side was: in this state bytes are delivered
  again.
-/
import GenOS.Socket.Streams

namespace GenOS.Socket

open GenOS.Lib ByteQueue

/-! ## §1. A read side that is shut for good. -/

/-- The states in which nothing is delivered. -/
def SocketState.deaf : SocketState → Bool
  | .readClosed | .closed | .failed => true
  | _ => false

/-- Nothing is queued, nothing is delivered, and a child is past the state from
which its write side is shut. -/
structure ReadShut (e : SocketEntry) : Prop where
  empty : e.receive.len = 0
  deaf : e.state.deaf = true
  final : e.serverPeer = none ∨ e.state ≠ .readClosed

variable {e e' : SocketEntry} {read write : Bool}

/-- What a successful `shutdown` did: the write side of a child, or the state
table of a client. -/
theorem SocketEntry.shutdown_ok (hflags : ¬ (read = false ∧ write = false))
    (h : (e.shutdown read write).2 = .ok ()) :
    (e.serverPeer.isSome = true ∧ write = true
        ∧ (e.shutdown read write).1
          = { e.clearReceiveIf read with
              send := (e.clearReceiveIf read).send.clear, state := .writeClosed })
      ∨ (¬ (e.serverPeer.isSome = true ∧ write = true)
        ∧ ∃ next, SocketEntry.shutdownState read write e.state = some next
          ∧ (e.shutdown read write).1
            = { (e.clearReceiveIf read).clearSendIf write with state := next }) := by
  rcases e.shutdown_cases hflags with
    ⟨error, heq⟩ | ⟨-, ⟨hserver, hwrite, -, heq⟩ | ⟨hclient, state, hstate, heq⟩⟩
  · rw [heq] at h
    cases h
  · exact .inl ⟨hserver, hwrite, congrArg Prod.fst heq⟩
  · exact .inr ⟨hclient, state, hstate, congrArg Prod.fst heq⟩

namespace ReadShut

variable {e : SocketEntry}

/-- The states in which a read side is open. -/
theorem state_ne (h : ReadShut e) {state : SocketState} (hopen : state.deaf = false) :
    e.state ≠ state := by
  intro heq
  have := h.deaf
  rw [heq, hopen] at this
  cases this

theorem not_exchanging (h : ReadShut e) : e.exchanging = false := by
  have h₁ : e.state ≠ .connecting := h.state_ne rfl
  have h₂ : e.state ≠ .established := h.state_ne rfl
  simp [SocketEntry.exchanging, h₁, h₂]

/-- Nothing is read from it. -/
theorem receiveBytes (h : ReadShut e) (room : Nat) :
    ∃ error, (e.receiveBytes room).2 = .error error := by
  unfold SocketEntry.receiveBytes
  split
  · exact ⟨_, rfl⟩
  · exact ⟨.wouldBlock, by simp only [pop, h.empty, if_true]⟩

theorem clear_receive (hread : read = true ∨ e.receive.len = 0) :
    ((e.clearReceiveIf read).clearSendIf write).receive.len = 0 := by
  cases read with
  | true => cases write <;> rfl
  | false =>
    have hempty : e.receive.len = 0 := by simpa using hread
    cases write <;> exact hempty

theorem clear_serverPeer (read write : Bool) :
    ((e.clearReceiveIf read).clearSendIf write).serverPeer = e.serverPeer := by
  cases read <;> cases write <;> rfl

/-- **A read shutdown shuts a client for good**, and a child whose write side
was already shut. -/
theorem of_shutdown (hshut : e.serverPeer = none ∨ (e.state = .writeClosed ∧ write = false))
    (hok : (e.shutdown true write).2 = .ok ()) : ReadShut (e.shutdown true write).1 := by
  obtain ⟨hserver, hwrite, -⟩ | ⟨-, next, hnext, hres⟩ := e.shutdown_ok (by simp) hok
  · rcases hshut with hnone | ⟨-, hw⟩
    · rw [hnone] at hserver
      cases hserver
    · rw [hwrite] at hw
      cases hw
  · rw [hres]
    refine ⟨clear_receive (.inl rfl), ?_, ?_⟩
    · cases write <;> cases hs : e.state <;> rw [hs] at hnext <;> cases hnext <;> rfl
    rcases hshut with hnone | ⟨hstate, hw⟩
    · exact .inl ((clear_serverPeer true write).trans hnone)
    rw [hstate, hw] at hnext
    cases hnext
    exact .inr (by simp)

variable (h : ReadShut e)

include h

/-- What is neither closed nor failed was shut for reading, and is a client. -/
theorem client (hopen : e.state ≠ .closed ∧ e.state ≠ .failed) :
    e.state = .readClosed ∧ e.serverPeer = none := by
  have hdeaf := h.deaf
  have hstate : e.state = .readClosed := by
    cases hs : e.state with
    | readClosed => rfl
    | closed => exact absurd hs hopen.1
    | failed => exact absurd hs hopen.2
    | _ =>
      rw [hs] at hdeaf
      cases hdeaf
  exact ⟨hstate, h.final.resolve_right (fun hne => hne hstate)⟩

/-! ## §2. One call on the entry. -/

/-- The calls that concern the send side only. -/
theorem kept (hreceive : e'.receive = e.receive) (hstate : e'.state = e.state)
    (hpeer : e'.serverPeer = e.serverPeer) : ReadShut e' := by
  refine ⟨?_, ?_, ?_⟩
  · rw [hreceive]
    exact h.empty
  · rw [hstate]
    exact h.deaf
  · rw [hstate, hpeer]
    exact h.final

/-- The calls that end the socket. -/
theorem ended (hreceive : e'.receive = e.receive) (hstate : e'.state = .closed ∨ e'.state = .failed)
    : ReadShut e' := by
  refine ⟨?_, ?_, ?_⟩
  · rw [hreceive]
    exact h.empty
  · rcases hstate with hs | hs <;> rw [hs] <;> rfl
  · rcases hstate with hs | hs <;> exact .inr (by rw [hs]; decide)

/-- **Every call on the entry keeps a read side shut.** -/
theorem call {op : SocketOp} {f : SocketEntry → SocketEntry × Bool} (hcall : op.entryCall = some f)
    : ReadShut (f e).1 := by
  have hexchanging := h.not_exchanging
  have houtcome := entryCall_outcome hcall e
  generalize f e = r at houtcome
  cases houtcome with
  | refused => exact h
  | connected hop target port hstate | bound hop localPort hstate | listening hop backlog hstate hle
  | queued owner handle peer hop hstate hroom | dropped owner handle peer position hop hstate hposition
  | established hop hstate => exact absurd hstate (h.state_ne rfl)
  | sent | launched | landed | taken => exact h.kept rfl rfl rfl
  | failed => exact h.ended rfl (.inr rfl)
  | completed requestId hop receive state ok hrequest hsend hlive hstate =>
    rw [hexchanging] at hlive
    cases hlive
  | readClosed hop state hstate =>
    rcases hstate with rfl | ⟨hestablished, -⟩
    · exact h
    · exact absurd hestablished (h.state_ne rfl)
  | abandoned hop hqueue state hstate => exact h.ended rfl hstate
  | arrived hop data ok hstate =>
    rcases hstate with hstate | hstate <;> exact absurd hstate (h.state_ne rfl)
  | read hop room ok hstate =>
    exact ⟨by simp only [pop, h.empty, if_true], h.deaf, h.final⟩
  | shutServer owner handle read hop hserver hidle hopen =>
    rw [(h.client hopen).2] at hserver
    cases hserver
  | shutClient owner handle read write state hop hclient hopen hstate =>
    -- a client goes to `ReadClosed` or `Closed`
    obtain ⟨hclosed, hnone⟩ := h.client hopen
    refine ⟨clear_receive (.inr h.empty), ?_, .inl ((clear_serverPeer read write).trans hnone)⟩
    rw [hclosed] at hstate
    cases read <;> cases write <;> cases hstate <;> rfl

end ReadShut

/-! ## §3. Calls on a handle that resolves. -/

namespace SocketSet

/-- The handle resolves for its owner to the entry. -/
def Resolves (s : SocketSet) (owner : SocketOwner) (handle : BitVec 64) (e : SocketEntry) : Prop :=
  ∃ slot, s.slotFor owner handle = .ok slot ∧ s.entries slot = some e

variable {s : SocketSet} {owner : SocketOwner} {handle : BitVec 64} {e : SocketEntry}

/-- A handle resolves as before once its entry was replaced by one of the same
identity. -/
theorem slotFor_put {slot : Fin socketCapacity} (h : s.slotFor owner handle = .ok slot)
    (he : s.entries slot = some e) (hstep : EntryStep e e') :
    (s.put slot (some e')).slotFor owner handle = .ok slot := by
  have hslot := slotFor_socketSlot h
  unfold slotFor at h ⊢
  simp only [hslot, he] at h
  simp only [hslot, put_entries_self, hstep.handle, hstep.owner, hstep.generation]
  exact h

theorem Resolves.withEntry {α : Type} {operation : SocketEntry → EntryOutcome α}
    (h : s.Resolves owner handle e) :
    (s.withEntry owner handle operation).2 = (operation e).2 := by
  obtain ⟨slot, hslot, he⟩ := h
  simp only [SocketSet.withEntry, hslot, he]

theorem Resolves.call (h : s.Resolves owner handle e) (op : SocketOp)
    {f : SocketEntry → SocketEntry × Bool} (hcall : op.entryCall = some f)
    (hcaller : op.caller = some owner) (htarget : op.handle = some handle) :
    (op.apply s).Resolves owner handle (f e).1 := by
  obtain ⟨slot, hslot, he⟩ := h
  obtain ⟨owner', handle', heff⟩ := entryEffect s hcall
  cases heff.caller.symm.trans hcaller
  cases heff.target.symm.trans htarget
  rw [(heff.resolved slot e hslot he).1]
  exact ⟨slot, slotFor_put hslot he (entryCall_move hcall e).step, put_entries_self _⟩

/-- A call on a handle that returns `Ok` resolved it. -/
theorem Resolves.of_shutdown (h : (s.shutdown owner handle read write).2 = .ok ()) :
    ∃ e, s.Resolves owner handle e ∧ (e.shutdown read write).2 = .ok () := by
  unfold SocketSet.shutdown at h
  split at h
  · cases h
  cases hslot : s.slotFor owner handle with
  | error error =>
    simp only [SocketSet.withEntry, hslot] at h
    cases h
  | ok slot =>
    obtain ⟨e, he, -, -⟩ := slotFor_ok hslot
    have hres : s.Resolves owner handle e := ⟨slot, hslot, he⟩
    rw [hres.withEntry] at h
    exact ⟨e, hres, h⟩

theorem Resolves.live (h : s.Resolves owner handle e) : s.live handle = some e := by
  obtain ⟨slot, hslot, he⟩ := h
  exact live_of_slotFor hslot he

/-- No other entry has the handle. -/
theorem Resolves.unique (h : s.Resolves owner handle e) (hinv : SetInv s)
    {slot : Fin socketCapacity} (he' : s.entries slot = some e') (hhandle : e'.handle = handle) : e' = e := by
  obtain ⟨slot', hslot, he⟩ := h
  have hfound : socketSlot handle = some slot := by
    obtain ⟨heq, hgen⟩ := hinv.handle slot e' he'
    rw [← hhandle, heq]
    exact socketSlot_socketHandle e'.owner hgen slot
  cases (slotFor_socketSlot hslot).symm.trans hfound
  exact Option.some.inj (he'.symm.trans he)

end SocketSet

/-! ## §4. A child reads again. -/

/-- A pop returns the front of a queue that is not empty. -/
theorem ByteQueue.pop_ok {q : ByteQueue} (h : q.len ≠ 0) (room : Nat) :
    (q.pop room).2 = .ok (q.content.take room) := by
  unfold pop
  rw [if_neg h]
  simp only [content, FixedBytes.slice, List.drop_zero, List.take_take, Nat.min_comm]

/-- The calls that let a child read again: its send side is drained and shut,
and a byte arrives. -/
def rereads (owner : SocketOwner) (h : BitVec 64) (e : SocketEntry) (peer : TcpServerPeer) :
    List SocketOp :=
  [.takeSend owner h socketBufferCapacity, .completeServerSend owner h peer e.inFlightRequest,
    .shutdown owner h false true, .pushReceive owner h [1]]

namespace SocketEntry

variable {e : SocketEntry}

theorem takeSend_drains : (e.takeSend socketBufferCapacity).1.send.len = 0 := by
  have hfits := e.send.fits
  show (e.send.pop socketBufferCapacity).1.len = 0
  unfold pop
  split
  · assumption
  · show e.send.len - min e.send.len socketBufferCapacity = 0
    omega

/-- Completing the request in flight changes no other field of a child. -/
theorem completeServerSend_drains {peer : TcpServerPeer} (hpeer : e.serverPeer = some peer) :
    (e.completeServerSend peer e.inFlightRequest).1 = { e.land with
      inFlightRequest := (e.completeServerSend peer e.inFlightRequest).1.inFlightRequest } := by
  unfold completeServerSend
  split
  · rename_i hrefused
    have hzero : e.inFlightSend = 0 := by simpa [hpeer] using hrefused
    simp only [land, ← hzero]
  · rfl

/-- A write shutdown of an idle child leaves it in `WriteClosed`. -/
theorem shutdown_child (hpeer : e.serverPeer.isSome = true)
    (hstate : e.state = .readClosed ∨ e.state = .writeClosed) (hsend : e.send.len = 0)
    (hflight : e.inFlightSend = 0) :
    (e.shutdown false true).1.state = .writeClosed
      ∧ (e.shutdown false true).1.receive = e.receive := by
  refine ⟨?_, e.shutdown_receive true⟩
  unfold shutdown
  have hlive : ¬ (e.state = .closed ∨ e.state = .failed ∨ e.state = .bound
      ∨ e.state = .listening) := by
    rcases hstate with hs | hs <;> rw [hs] <;> decide
  rw [if_neg hlive, if_neg (by simp [hsend, hflight]), if_pos ⟨hpeer, rfl⟩]

/-- The byte that arrives then is read. -/
theorem pushReceive_reads (hstate : e.state = .writeClosed) (hempty : e.receive.len = 0) :
    ((e.pushReceive [1]).1.receiveBytes 1).2 = .ok [1] := by
  have hpush : (e.pushReceive [1]).1 = { e with receive := (e.receive.push [1]).1 } :=
    congrArg Prod.fst (if_neg (by simp [hstate]))
  have hcontent : (e.receive.push [1]).1.content = [1] := by
    have hnone : e.receive.content = [] := by
      rw [← List.length_eq_zero_iff, content_length, hempty]
    have hok : (e.receive.push [1]).2 = .ok 1 := by
      unfold push
      rw [dif_pos (by rw [hempty]; decide)]
      rfl
    rw [push_content, hok, hnone]
    rfl
  have hlen : (e.receive.push [1]).1.len ≠ 0 := by
    rw [← content_length, hcontent]
    decide
  rw [hpush, receiveBytes, if_neg (by simp [hstate])]
  show ((e.receive.push [1]).1.pop 1).2 = .ok [1]
  rw [pop_ok hlen, hcontent]
  rfl

end SocketEntry

open SocketEntry

/-- **A child whose read side was shut reads again** after its write side is
shut. -/
theorem rereads_ok {s : SocketSet} {owner : SocketOwner} {h : BitVec 64} {peer : TcpServerPeer}
    (hres : s.Resolves owner h e) (hpeer : e.serverPeer = some peer)
    (hstate : e.state = .readClosed ∨ e.state = .writeClosed) (hempty : e.receive.len = 0) :
    ((runSockets s (rereads owner h e peer)).receive owner h 1).2 = .ok [1] := by
  have h₁ := hres.call (.takeSend owner h socketBufferCapacity) rfl rfl rfl
  have h₂ := h₁.call (.completeServerSend owner h peer e.inFlightRequest) rfl rfl rfl
  have h₃ := h₂.call (.shutdown owner h false true) rfl rfl rfl
  have h₄ := h₃.call (.pushReceive owner h [1]) rfl rfl rfl
  have hread : ((runSockets s (rereads owner h e peer)).receive owner h 1).2 = _ := h₄.withEntry
  rw [hread]
  -- the entry after the two calls that drain the send side
  obtain ⟨e₁, he₁⟩ : ∃ e₁, e₁ = (e.takeSend socketBufferCapacity).1 := ⟨_, rfl⟩
  have hsend : e₁.send.len = 0 := by
    rw [he₁]
    exact takeSend_drains
  have hpeer₁ : e₁.serverPeer = some peer := by rw [he₁]; exact hpeer
  have hstate₁ : e₁.state = .readClosed ∨ e₁.state = .writeClosed := by rw [he₁]; exact hstate
  have hempty₁ : e₁.receive.len = 0 := by rw [he₁]; exact hempty
  have hflight₁ : e₁.inFlightRequest = e.inFlightRequest := by rw [he₁]; rfl
  have hdrained := completeServerSend_drains hpeer₁
  rw [hflight₁] at hdrained
  obtain ⟨e₂, he₂⟩ : ∃ e₂, e₂ = (e₁.completeServerSend peer e.inFlightRequest).1 := ⟨_, rfl⟩
  have hshut := shutdown_child (e := e₂)
    (by rw [he₂, hdrained]; simp [land, hpeer₁])
    (by rw [he₂, hdrained]; exact hstate₁) (by rw [he₂, hdrained]; exact hsend)
    (by rw [he₂, hdrained]; rfl)
  have hempty₂ : e₂.receive.len = 0 := by
    rw [he₂, hdrained]
    exact hempty₁
  rw [he₁] at he₂
  show (((shutdown false true
    ((e.takeSend socketBufferCapacity).1.completeServerSend peer e.inFlightRequest).1).1.pushReceive
      [1]).1.receiveBytes 1).2 = .ok [1]
  rw [← he₂]
  exact pushReceive_reads hshut.1 (by rw [hshut.2]; exact hempty₂)

/-! ## §5. Runs. -/

/-- What a child is after a read shutdown that leaves a side open. -/
theorem SocketEntry.shutdown_read_child (hok : (e.shutdown true write).2 = .ok ())
    (hchild : e.serverPeer ≠ none) (hopen : ¬ (e.state = .writeClosed ∧ write = false)) :
    (e.shutdown true write).1.serverPeer = e.serverPeer
      ∧ ((e.shutdown true write).1.state = .readClosed
        ∨ (e.shutdown true write).1.state = .writeClosed)
      ∧ (e.shutdown true write).1.receive.len = 0 := by
  obtain ⟨-, -, hres⟩ | ⟨hserver, next, hnext, hres⟩ := e.shutdown_ok (by simp) hok
  · rw [hres]
    exact ⟨rfl, .inr rfl, rfl⟩
  · cases write with
    | true => exact absurd ⟨Option.isSome_iff_ne_none.mpr hchild, rfl⟩ hserver
    | false =>
      rw [hres]
      refine ⟨rfl, .inl ?_, rfl⟩
      have hstate : e.state ≠ .writeClosed := fun hs => hopen ⟨hs, rfl⟩
      cases hs : e.state <;> rw [hs] at hnext
      case writeClosed => exact absurd hs hstate
      all_goals
        cases hnext
        rfl

/-- A read side that is shut for good stays so along every run. -/
theorem ReadShut.run {before : List SocketOp} {owner : SocketOwner} {h : BitVec 64}
    (hres : (reached before).Resolves owner h e) (hshut : ReadShut e) (after : List SocketOp)
    (o : SocketOwner) (room : Nat) (bytes : Bytes) :
    ((reached (before ++ after)).receive o h room).2 ≠ .ok bytes := by
  have hold : Old (reached before) h := by
    obtain ⟨slot, hslot, he⟩ := hres
    obtain ⟨e', he', hhandle, -⟩ := SocketSet.slotFor_ok hslot
    rw [← hhandle]
    exact (reached_sound before).old he'
  have hall : ∀ slot e', (reached (before ++ after)).entries slot = some e' → e'.handle = h →
      ReadShut e' := by
    refine Old.all_run (fun op f hf e he => he.call hf) (fun e he => he.kept rfl rfl rfl) hold ?_ after
    intro slot e' he' hhandle
    rw [hres.unique (reached_sound before).inv he' hhandle]
    exact hshut
  intro hok
  cases hslot : (reached (before ++ after)).slotFor o h with
  | error error =>
    simp only [SocketSet.receive, SocketSet.withEntry, hslot] at hok
    cases hok
  | ok slot =>
    obtain ⟨e', he', hhandle, -⟩ := SocketSet.slotFor_ok hslot
    have hresolves : (reached (before ++ after)).Resolves o h e' := ⟨slot, hslot, he'⟩
    obtain ⟨error, herror⟩ := (hall slot e' he' hhandle).receiveBytes room
    rw [SocketSet.receive, hresolves.withEntry, herror] at hok
    cases hok

/-- **When a read shutdown is permanent.**  After a shutdown of the read side
succeeded, nothing that is called later makes the handle return bytes, exactly
if the socket is not an accepted child, or is one whose write side was shut
before and is not shut again by this call. -/
theorem read_shutdown_permanent_iff (before : List SocketOp) (owner : SocketOwner) (h : BitVec 64)
    (write : Bool) (e : SocketEntry) (hlive : (reached before).live h = some e)
    (hok : ((reached before).shutdown owner h true write).2 = .ok ()) :
    (∀ after o room bytes,
        ((reached (before ++ .shutdown owner h true write :: after)).receive o h room).2
          ≠ .ok bytes)
      ↔ e.serverPeer = none ∨ (e.state = .writeClosed ∧ write = false) := by
  obtain ⟨e', hres, hentry⟩ := SocketSet.Resolves.of_shutdown hok
  cases hres.live.symm.trans hlive
  have hshut : (reached (before ++ [.shutdown owner h true write])).Resolves owner h
      (e.shutdown true write).1 := by
    rw [reached_snoc]
    exact hres.call (.shutdown owner h true write) rfl rfl rfl
  constructor
  · intro hnever
    by_contra hcond
    rw [not_or] at hcond
    obtain ⟨hpeer, hstate, hempty⟩ := SocketEntry.shutdown_read_child hentry hcond.1 hcond.2
    obtain ⟨peer, hsome⟩ := Option.ne_none_iff_exists'.mp hcond.1
    have hread := rereads_ok hshut (hpeer.trans hsome) hstate hempty
    refine hnever (rereads owner h (e.shutdown true write).1 peer) owner 1 [1] ?_
    have hsplit : reached (before ++ .shutdown owner h true write
        :: rereads owner h (e.shutdown true write).1 peer)
      = runSockets (reached (before ++ [.shutdown owner h true write]))
        (rereads owner h (e.shutdown true write).1 peer) := by
      simp only [reached, runSockets, List.foldl_append, List.foldl_cons, List.foldl_nil]
    rw [hsplit]
    exact hread
  · intro hcond after o room bytes
    have hrun := ReadShut.run hshut (ReadShut.of_shutdown hcond hentry) after o room bytes
    rw [List.append_assoc] at hrun
    exact hrun

/-- A connected client that shuts its read side reads nothing afterwards. -/
theorem read_shutdown_permanent_client :
    let owner : SocketOwner := ⟨1, 1⟩
    let handle := socketHandle owner 1 0
    let before : List SocketOp := [.openSocket owner .udp, .connect owner handle 9 53,
      .pushReceive owner handle [4, 5]]
    ((reached before).receive owner handle 8).2 = .ok [4, 5]
      ∧ ∀ after o room bytes,
        ((reached (before ++ .shutdown owner handle true false :: after)).receive o handle room).2
          ≠ .ok bytes := by
  intro owner handle before
  obtain ⟨e, he⟩ : ∃ e, (reached before).live handle = some e :=
    Option.isSome_iff_exists.mp (by decide +kernel)
  have hclient : (((reached before).live handle).bind SocketEntry.serverPeer) = none := by
    decide +kernel
  rw [he] at hclient
  exact ⟨by decide +kernel, (read_shutdown_permanent_iff before owner handle false e he
    (by decide +kernel)).mpr (Or.inl hclient)⟩

/-- A listener accepts one connection and the child is shut in both directions;
a byte of the peer is then delivered and read. -/
theorem read_shutdown_reopens :
    let owner : SocketOwner := ⟨1, 1⟩
    let listener := socketHandle owner 1 0
    let child := socketHandle owner 2 1
    let peer : TcpServerPeer := ⟨1, 5000, 2000, 0, 0, FixedBytes.zero⟩
    let before : List SocketOp := [.openSocket owner .tcpStream, .bind owner listener 2000,
      .listen owner listener 2, .queueIncoming owner listener peer, .accept owner listener]
    ((reached before).shutdown owner child true true).2 = .ok ()
      ∧ ((reached (before ++ [.shutdown owner child true true, .pushReceive owner child [9]])).receive
        owner child 8).2 = .ok [9] := by
  decide +kernel

end GenOS.Socket
