/-
  GenOS.Socket.Isolation — an operation on one handle leaves every other
  socket alone.

  A handle resolves to the slot whose entry carries it, so an operation
  lifted by `withEntry` changes that slot only; `accept` is the only operation
  on a handle that touches a second slot, an empty one.  `Effect` lists what a
  call can do to the entries, and both the invariant (`SetInv.apply`) and the
  frame property (`isolated`) are read off it.
-/
import GenOS.Lib.Packed
import GenOS.Socket.EntrySteps

namespace GenOS.Socket

open GenOS.Lib Function Packed

/-! ## §1. Handles. -/

variable (owner : SocketOwner) (s : SocketSet) (op : SocketOp)

/-- The parts of a handle between its tag and its slot. -/
def socketMiddle (generation : BitVec 64) : BitVec 64 :=
  ((owner.slot.setWidth 64 &&& 0x0f#64) <<< 52) ||| ((owner.incarnation &&& 0xfffffff#64) <<< 24)
    ||| (generation <<< 8)

theorem socketHandle_eq (generation : BitVec 64) (slot : Nat) :
    socketHandle owner generation slot
      = packed 0xe7#64 (socketMiddle owner generation) (slot + 1) := by
  unfold socketHandle packed socketMiddle
  simp only [BitVec.or_assoc]

theorem middle_socketMiddle {generation : BitVec 64} (hgen : generation ≤ socketGenerationMax) :
    Middle (socketMiddle owner generation) := by
  have hslot : (owner.slot.setWidth 64 &&& 0x0f#64).toNat < 2 ^ 4 := by
    rw [BitVec.toNat_and]
    exact Nat.lt_of_le_of_lt Nat.and_le_right (by decide)
  have hincarnation : (owner.incarnation &&& 0xfffffff#64).toNat < 2 ^ 28 := by
    rw [BitVec.toNat_and]
    exact Nat.lt_of_le_of_lt Nat.and_le_right (by decide)
  have hgeneration : generation.toNat < 2 ^ 16 := Nat.lt_of_le_of_lt hgen (by decide)
  exact middle_or
    (middle_or (middle_shiftLeft hslot (by decide) (by decide))
      (middle_shiftLeft hincarnation (by decide) (by decide)))
    (middle_shiftLeft hgeneration (by decide) (by decide))

theorem socketSlot_of_parts {handle : BitVec 64} {slot : Fin socketCapacity}
    (htag : handle &&& (0xff#64 <<< 56) = 0xe7#64 <<< 56)
    (hlow : (handle &&& 0xff#64).toNat = slot.val + 1) : socketSlot handle = some slot := by
  have hs := slot.isLt
  unfold socketSlot
  rw [if_neg (fun h => h htag)]
  simp only [hlow]
  rw [dif_pos ⟨Nat.le_add_left 1 _, hs⟩]
  simp

/-- The index packed into a handle comes out again. -/
theorem socketSlot_socketHandle {generation : BitVec 64} (hgen : generation ≤ socketGenerationMax)
    (slot : Fin socketCapacity) : socketSlot (socketHandle owner generation slot) = some slot := by
  have hslot : slot.val + 1 < 256 := by
    have := slot.isLt
    unfold socketCapacity at this
    omega
  have hmiddle := middle_socketMiddle owner hgen
  rw [socketHandle_eq]
  exact socketSlot_of_parts (tag_packed _ hmiddle hslot)
    (number_packed _ hmiddle hslot)

namespace SocketSet

variable {s : SocketSet} {owner : SocketOwner} {handle : BitVec 64} {slot : Fin socketCapacity}

/-- A resolved handle is the handle of the entry it resolves to. -/
theorem slotFor_ok (h : s.slotFor owner handle = .ok slot) :
    ∃ e, s.entries slot = some e ∧ e.handle = handle ∧ e.owner = owner := by
  unfold slotFor at h
  split at h
  · cases h
  split at h
  · cases h
  rename_i e he
  split at h
  · cases h
  rename_i hmatch
  cases h
  simp only [not_or, not_not] at hmatch
  exact ⟨e, he, hmatch.1, hmatch.2.1⟩

theorem put_entries_self (entry : Option SocketEntry) : (s.put slot entry).entries slot = entry :=
  update_self _ _ _

theorem put_entries_of_ne {slot' : Fin socketCapacity} (h : slot' ≠ slot)
    (entry : Option SocketEntry) : (s.put slot entry).entries slot' = s.entries slot' :=
  update_of_ne h _ _

end SocketSet

open SocketSet

/-! ## §2. The invariant of a set. -/

/-- Every entry has its structure and the handle of its own slot. -/
structure SetInv (s : SocketSet) : Prop where
  entry : ∀ slot e, s.entries slot = some e → EntryInv e
  handle : ∀ slot e, s.entries slot = some e →
    e.handle = socketHandle e.owner e.generation slot ∧ e.generation ≤ socketGenerationMax

/-! ## §3. Operations that open and close. -/

namespace SocketSet

theorem freeSlot_some {s : SocketSet} {slot : Fin socketCapacity} (h : s.freeSlot = some slot) :
    s.entries slot = none := by
  have := List.find?_some h
  simpa using this

variable (s : SocketSet) (owner : SocketOwner)

/-- The set after `open` filled `slot`. -/
def opened (protocol : SocketProtocol) (slot : Fin socketCapacity) : SocketSet :=
  { s.put slot (some (freshEntry owner protocol s.nextGeneration slot)) with
    nextGeneration := s.nextGeneration + 1 }

/-- `open` fails without a change or fills an empty slot. -/
theorem openSocket_cases (protocol : SocketProtocol) :
    (∃ e, s.openSocket owner protocol = (s, .error e))
      ∨ ∃ slot, s.entries slot = none ∧ s.nextGeneration ≤ socketGenerationMax
        ∧ s.openSocket owner protocol
          = (s.opened owner protocol slot, .ok (socketHandle owner s.nextGeneration slot)) := by
  unfold openSocket
  cases hfree : s.freeSlot with
  | none => exact .inl ⟨_, rfl⟩
  | some slot =>
    dsimp only
    split
    · exact .inl ⟨_, rfl⟩
    rename_i hgen
    rw [not_or] at hgen
    exact .inr ⟨slot, freeSlot_some hfree, BitVec.not_lt.mp hgen.2, rfl⟩

/-- A handle that `open` returned resolves to its slot. -/
theorem slotFor_of_entry {s : SocketSet} {slot : Fin socketCapacity} {e : SocketEntry}
    (he : s.entries slot = some e) (hgen : e.generation ≤ socketGenerationMax)
    (hhandle : e.handle = socketHandle e.owner e.generation slot) :
    s.slotFor e.owner e.handle = .ok slot := by
  have hslot : socketSlot e.handle = some slot := by
    rw [hhandle]
    exact socketSlot_socketHandle e.owner hgen slot
  simp only [slotFor, hslot, he]
  rw [if_neg]
  simp only [not_or, not_not, true_and]
  exact hhandle.symm

theorem pendingConnection_ok {s : SocketSet} {slot : Fin socketCapacity}
    {connection : TcpServerPeer} {localPort : BitVec 16}
    (h : s.pendingConnection slot = .ok (connection, localPort)) :
    ∃ listener, s.entries slot = some listener ∧ 0 < listener.backlogLen
      ∧ listener.backlog ⟨0, by decide⟩ = some connection := by
  unfold pendingConnection at h
  split at h
  · cases h
  rename_i listener hl
  split at h
  · cases h
  rename_i hready
  rw [not_or] at hready
  split at h
  · cases h
  rename_i found hfound
  cases h
  exact ⟨listener, hl, Nat.pos_of_ne_zero hready.2, hfound⟩

/-- The last part of `accept`, on a set where the child is already open. -/
theorem finishAccept_eq {s : SocketSet} {slot child : Fin socketCapacity}
    {listener e : SocketEntry} (hl : s.entries slot = some listener) (hne : child ≠ slot)
    (he : s.entries child = some e) (hgen : e.generation ≤ socketGenerationMax)
    (hhandle : e.handle = socketHandle e.owner e.generation child) (connection : TcpServerPeer)
    (localPort : BitVec 16) :
    s.finishAccept e.owner slot e.handle connection localPort
      = ((s.put slot (some (listener.removeIncoming 0))).put child
            (some (adopt connection localPort e).1), .ok e.handle) := by
  have he' : (s.put slot (some (listener.removeIncoming 0))).entries child = some e := by
    rw [put_entries_of_ne hne]
    exact he
  have hslot := slotFor_of_entry he' hgen hhandle
  simp only [finishAccept, hl, withEntry, hslot, he']
  rfl

/-- The child `accept` leaves in the slot it opened. -/
def acceptedChild (generation : BitVec 64) (slot : Fin socketCapacity) (connection : TcpServerPeer)
    (localPort : BitVec 16) : SocketEntry :=
  (adopt connection localPort (freshEntry owner .tcpStream generation slot)).1

/-- `accept` with a connection to take and a slot for its child. -/
theorem accept_opened {s : SocketSet} {owner : SocketOwner} {handle : BitVec 64}
    {slot child : Fin socketCapacity} {listener : SocketEntry} {connection : TcpServerPeer}
    {localPort : BitVec 16} (hfree : s.freeSlot ≠ none) (hslot : s.slotFor owner handle = .ok slot)
    (hpend : s.pendingConnection slot = .ok (connection, localPort))
    (hl : s.entries slot = some listener) (hempty : s.entries child = none)
    (hgen : s.nextGeneration ≤ socketGenerationMax)
    (hopen : s.openSocket owner .tcpStream
      = (s.opened owner .tcpStream child, .ok (socketHandle owner s.nextGeneration child))) :
    (s.accept owner handle).1.entries
        = update (update s.entries slot (some (listener.removeIncoming 0))) child
            (some (acceptedChild owner s.nextGeneration child connection localPort))
      ∧ (s.accept owner handle).2 = .ok (socketHandle owner s.nextGeneration child)
      ∧ (s.accept owner handle).1.nextGeneration = s.nextGeneration + 1 := by
  have hne : slot ≠ child := by
    intro heq
    rw [heq, hempty] at hl
    cases hl
  have hfinish := finishAccept_eq (s := s.opened owner .tcpStream child)
    (e := freshEntry owner .tcpStream s.nextGeneration child)
    ((put_entries_of_ne hne _).trans hl) (Ne.symm hne) (put_entries_self _) hgen rfl
    connection localPort
  unfold accept
  rw [if_neg hfree, hslot]
  dsimp only
  rw [hpend]
  dsimp only
  rw [hopen]
  refine ⟨(congrArg (fun o => o.1.entries) hfinish).trans ?_, congrArg Prod.snd hfinish,
    congrArg (fun o => o.1.nextGeneration) hfinish⟩
  show update (update (update s.entries child _) slot _) child _ = _
  rw [update_comm hne, update_idem]
  exact update_comm (Ne.symm hne) _ _ _

/-- `accept` fails without a change of any entry, or takes the first queued
connection of the listener and fills an empty slot with its child. -/
theorem accept_cases (handle : BitVec 64) :
    (∃ e, s.accept owner handle = (s, .error e))
      ∨ ∃ slot listener child connection localPort,
        s.slotFor owner handle = .ok slot ∧ s.entries slot = some listener
        ∧ 0 < listener.backlogLen ∧ s.entries child = none
        ∧ s.nextGeneration ≤ socketGenerationMax
        ∧ (s.accept owner handle).1.entries
          = update (update s.entries slot (some (listener.removeIncoming 0))) child
              (some (acceptedChild owner s.nextGeneration child connection localPort))
        ∧ (s.accept owner handle).2 = .ok (socketHandle owner s.nextGeneration child)
        ∧ (s.accept owner handle).1.nextGeneration = s.nextGeneration + 1
        ∧ listener.backlog ⟨0, by decide⟩ = some connection := by
  by_cases hfree : s.freeSlot = none
  · exact .inl ⟨.capacity, if_pos hfree⟩
  cases hslot : s.slotFor owner handle with
  | error e => exact .inl ⟨e, by simp only [accept, if_neg hfree, hslot]⟩
  | ok slot =>
    cases hpend : s.pendingConnection slot with
    | error e => exact .inl ⟨e, by simp only [accept, if_neg hfree, hslot, hpend]⟩
    | ok c =>
      obtain ⟨connection, localPort⟩ := c
      obtain ⟨listener, hl, hpos, hfirst⟩ := pendingConnection_ok hpend
      rcases s.openSocket_cases owner .tcpStream with ⟨e, hopen⟩ | ⟨child, hempty, hgen, hopen⟩
      · exact .inl ⟨e, by simp only [accept, if_neg hfree, hslot, hpend, hopen]⟩
      obtain ⟨hentries, hreply, hnext⟩ :=
        accept_opened hfree hslot hpend hl hempty hgen hopen
      exact .inr ⟨slot, listener, child, connection, localPort, rfl, hl, hpos, hempty,
        hgen, hentries, hreply, hnext, hfirst⟩

end SocketSet

/-! ## §4. What a call can do. -/

/-- The effects of a call on the set. -/
inductive Effect (s : SocketSet) (op : SocketOp) : Prop
  | unchanged (h : op.apply s = s) (hok : op.ok s = false)
  | replaced (owner : SocketOwner) (handle : BitVec 64) (slot : Fin socketCapacity)
      (e : SocketEntry) (f : SocketEntry → SocketEntry × Bool) (hcaller : op.caller = some owner)
      (htarget : op.handle = some handle) (hslot : s.slotFor owner handle = .ok slot)
      (he : s.entries slot = some e) (hcall : op.entryCall = some f)
      (h : op.apply s = s.put slot (some (f e).1)) (hok : op.ok s = (f e).2)
  | removed (owner : SocketOwner) (handle : BitVec 64) (slot : Fin socketCapacity)
      (hop : op = .close owner handle) (hslot : s.slotFor owner handle = .ok slot)
      (h : op.apply s = s.put slot none)
  | opened (owner : SocketOwner) (protocol : SocketProtocol) (slot : Fin socketCapacity)
      (hop : op = .openSocket owner protocol) (hempty : s.entries slot = none)
      (hgen : s.nextGeneration ≤ socketGenerationMax)
      (h : s.openSocket owner protocol
        = (s.opened owner protocol slot, .ok (socketHandle owner s.nextGeneration slot)))
  | accepted (owner : SocketOwner) (handle : BitVec 64) (slot child : Fin socketCapacity)
      (listener : SocketEntry) (connection : TcpServerPeer) (localPort : BitVec 16)
      (hop : op = .accept owner handle) (hslot : s.slotFor owner handle = .ok slot)
      (hl : s.entries slot = some listener) (hpos : 0 < listener.backlogLen)
      (hempty : s.entries child = none) (hgen : s.nextGeneration ≤ socketGenerationMax)
      (h : (op.apply s).entries
        = Function.update (Function.update s.entries slot (some (listener.removeIncoming 0))) child
            (some (SocketSet.acceptedChild owner s.nextGeneration child connection localPort)))
      (hreply : (s.accept owner handle).2 = .ok (socketHandle owner s.nextGeneration child))
      (hnext : (s.accept owner handle).1.nextGeneration = s.nextGeneration + 1)
  | ownerClosed (owner : SocketOwner) (hop : op = .closeOwner owner)

/-- **Every call has one of the effects.** -/
theorem effect : Effect s op := by
  cases hcall : op.entryCall with
  | some f =>
    obtain ⟨owner, handle, heffect⟩ := entryEffect s hcall
    cases hslot : s.slotFor owner handle with
    | error error =>
      obtain ⟨happly, hok⟩ := heffect.refused error hslot
      exact .unchanged happly hok
    | ok slot =>
      obtain ⟨e, he, -, -⟩ := slotFor_ok hslot
      obtain ⟨happly, hok⟩ := heffect.resolved slot e hslot he
      exact .replaced owner handle slot e f heffect.caller heffect.target hslot he hcall happly hok
  | none =>
    cases op <;> cases hcall
    case none.openSocket.refl owner protocol =>
      rcases s.openSocket_cases owner protocol with ⟨error, heq⟩ | ⟨slot, hempty, hgen, heq⟩
      · exact .unchanged (congrArg Prod.fst heq) (congrArg (fun o => o.2.isOk) heq)
      · exact .opened owner protocol slot rfl hempty hgen heq
    case none.closeOwner.refl owner => exact .ownerClosed owner rfl
    case none.accept.refl owner handle =>
      rcases s.accept_cases owner handle with ⟨error, heq⟩ | ⟨slot, listener, child, connection,
        localPort, hslot, hl, hpos, hempty, hgen, hentries, hreply, hnext, -⟩
      · exact .unchanged (congrArg Prod.fst heq) (congrArg (fun o => o.2.isOk) heq)
      · exact .accepted owner handle slot child listener connection localPort rfl hslot hl hpos
          hempty hgen hentries hreply hnext
    case none.close.refl owner handle =>
      cases hslot : s.slotFor owner handle with
      | error error =>
        have heq : s.close owner handle = (s, .error error) := by
          unfold close
          rw [hslot]
        exact .unchanged (congrArg Prod.fst heq) (congrArg (fun o => o.2.isOk) heq)
      | ok slot =>
        refine .removed owner handle slot rfl hslot ?_
        show (s.close owner handle).1 = _
        unfold close
        rw [hslot]

/-- What is left after `close_owner` belongs to another owner. -/
theorem closeOwner_entries {s : SocketSet} {owner : SocketOwner} {slot : Fin socketCapacity}
    {e : SocketEntry} (he : (SocketOp.apply s (.closeOwner owner)).entries slot = some e) :
    s.entries slot = some e ∧ e.owner ≠ owner := by
  have he : (if (s.entries slot).any (fun e => decide (e.owner = owner)) then none
      else s.entries slot) = some e := he
  split at he
  · cases he
  rename_i hother
  rw [he, Option.any_some, decide_eq_true_eq] at hother
  exact ⟨he, hother⟩

/-- An entry of an updated table is the new one or one of another slot. -/
theorem update_some {entries : Fin socketCapacity → Option SocketEntry}
    {slot slot' : Fin socketCapacity} {entry : Option SocketEntry} {e : SocketEntry}
    (h : update entries slot entry slot' = some e) :
    (slot' = slot ∧ entry = some e) ∨ (slot' ≠ slot ∧ entries slot' = some e) := by
  by_cases heq : slot' = slot
  · rw [heq, update_self] at h
    exact .inl ⟨heq, h⟩
  · rw [update_of_ne heq] at h
    exact .inr ⟨heq, h⟩

/-! ## §5. The invariant is kept. -/

namespace SetInv

variable {s : SocketSet}

theorem freshEntry (owner : SocketOwner) (protocol : SocketProtocol) (generation : BitVec 64)
    (slot : Fin socketCapacity) : EntryInv (SocketSet.freshEntry owner protocol generation slot) :=
  ⟨⟨Nat.zero_le _, ⟨fun h => absurd rfl h, fun h => absurd rfl h⟩, Nat.le_refl _, Nat.zero_le _,
    fun _ => ⟨(fun h => nomatch h), fun h => absurd h (Nat.not_lt_zero _)⟩⟩, fun _ => rfl⟩

/-- Filling or emptying a slot touches the invariant only there. -/
theorem update (h : SetInv s) {t : SocketSet} {slot : Fin socketCapacity}
    {entry : Option SocketEntry} (ht : t.entries = update s.entries slot entry)
    (hentry : ∀ e, entry = some e → EntryInv e
      ∧ e.handle = socketHandle e.owner e.generation slot ∧ e.generation ≤ socketGenerationMax) :
    SetInv t := by
  have hall : ∀ slot' e, t.entries slot' = some e → EntryInv e
      ∧ e.handle = socketHandle e.owner e.generation slot'
      ∧ e.generation ≤ socketGenerationMax := by
    intro slot' e he
    rw [ht] at he
    rcases update_some he with ⟨rfl, hnew⟩ | ⟨-, hold⟩
    · exact hentry e hnew
    · exact ⟨h.entry slot' e hold, h.handle slot' e hold⟩
  exact ⟨fun slot e he => (hall slot e he).1, fun slot e he => (hall slot e he).2⟩

/-- One call keeps the invariant. -/
theorem apply (h : SetInv s) (op : SocketOp) : SetInv (op.apply s) := by
  cases effect s op with
  | unchanged heq hok =>
    rw [heq]
    exact h
  | replaced owner handle slot e f hcaller htarget hslot he hcall heq hok =>
    have hstep := (entryCall_outcome hcall e).step
    rw [heq]
    refine h.update rfl (fun x hx => ?_)
    cases hx
    rw [hstep.handle, hstep.owner, hstep.generation]
    exact ⟨hstep.inv (h.entry slot e he), h.handle slot e he⟩
  | removed owner handle slot hop hslot heq =>
    rw [heq]
    exact h.update rfl (fun x hx => nomatch hx)
  | opened owner protocol slot hop hempty hgen heq =>
    rw [hop, SocketOp.apply, heq]
    refine h.update rfl (fun x hx => ?_)
    cases hx
    exact ⟨freshEntry _ _ _ _, rfl, hgen⟩
  | accepted owner handle slot child listener connection localPort hop hslot hl hpos hempty hgen heq =>
    have hstep := EntryStep.removeIncoming (e := listener) hpos
    have hlistener : SetInv (s.put slot (some (listener.removeIncoming 0))) := by
      refine h.update rfl (fun x hx => ?_)
      cases hx
      exact ⟨hstep.inv (h.entry slot listener hl), h.handle slot listener hl⟩
    refine hlistener.update heq (fun x hx => ?_)
    cases hx
    have hadopt := SocketEntry.adopt_step
      (SocketSet.freshEntry owner .tcpStream s.nextGeneration child) connection localPort
    exact ⟨hadopt.inv (freshEntry _ _ _ _), rfl, hgen⟩
  | ownerClosed owner hop =>
    subst hop
    exact ⟨fun slot e he => h.entry slot e (closeOwner_entries he).1,
      fun slot e he => h.handle slot e (closeOwner_entries he).1⟩

end SetInv

/-- The sets reached from an empty one. -/
inductive SocketReach : SocketSet → Prop
  | new : SocketReach SocketSet.new
  | step {s : SocketSet} (op : SocketOp) : SocketReach s → SocketReach (op.apply s)

theorem SocketReach.inv {s : SocketSet} (h : SocketReach s) : SetInv s := by
  induction h with
  | new => exact ⟨(fun _ _ h => nomatch h), (fun _ _ h => nomatch h)⟩
  | step op _ ih => exact ih.apply op

/-! ## §6. Isolation. -/

/-- A slot that does not hold the entry of the handle is unchanged, except
that `accept` may fill an empty one with the child whose handle it returns. -/
def Isolated : Prop :=
  ∀ handle, op.handle = some handle → ∀ slot,
    (∀ e, s.entries slot = some e → e.handle ≠ handle) →
    (op.apply s).entries slot = s.entries slot
      ∨ ∃ owner child, op = .accept owner handle ∧ s.entries slot = none
        ∧ (op.apply s).entries slot = some child ∧ child.owner = owner
        ∧ (s.accept owner handle).2 = .ok child.handle

theorem isolated : Isolated s op := by
  intro handle hop slot hother
  -- the slot a handle resolves to holds the entry of that handle
  have hne : ∀ {owner slot'}, s.slotFor owner handle = .ok slot' → slot ≠ slot' := by
    intro owner slot' hslot heq
    obtain ⟨e, he, hh, _⟩ := slotFor_ok hslot
    rw [← heq] at he
    exact hother e he hh
  cases effect s op with
  | unchanged heq hok => exact .inl (by rw [heq])
  | replaced owner handle' slot' e f hcaller htarget hslot he hcall heq hok =>
    cases hop.symm.trans htarget
    rw [heq]
    exact .inl (put_entries_of_ne (hne hslot) _)
  | removed owner handle' slot' hop' hslot heq =>
    subst hop'
    cases hop
    rw [heq]
    exact .inl (put_entries_of_ne (hne hslot) _)
  | opened owner protocol slot' hop' | ownerClosed owner hop' =>
    subst hop'
    cases hop
  | accepted owner handle' slot' child listener connection localPort hop' hslot _ _ hempty _ heq
      hreply =>
      subst hop'
      cases hop
      rw [heq]
      by_cases hc : slot = child
      · subst hc
        rw [update_self]
        exact .inr ⟨owner, _, rfl, hempty, rfl, rfl, hreply⟩
      · rw [update_of_ne hc, update_of_ne (hne hslot)]
        exact .inl rfl

/-- **Structure and isolation of the socket set.**  After any calls every
entry has its structure, and the next call on a handle leaves every other
entry as it is, apart from the child that `accept` adds. -/
theorem socketSet_structure_isolation {s : SocketSet} (h : SocketReach s) :
    (∀ slot e, s.entries slot = some e → EntryOk e) ∧ ∀ op, Isolated s op :=
  ⟨fun slot e he => (h.inv.entry slot e he).toEntryOk, isolated s⟩

/-- A listener with one queued connection that is accepted. -/
theorem socketSet_structure_isolation_accept :
    let peer : TcpServerPeer := ⟨1, 5000, 2000, 0, 0, FixedBytes.zero⟩
    ∃ s, SocketReach s ∧ (s.entries ⟨1, by decide⟩).map SocketEntry.serverPeer = some (some peer)
      ∧ ∀ slot e, s.entries slot = some e → EntryOk e := by
  intro peer
  let owner : SocketOwner := ⟨1, 1⟩
  let handle := socketHandle owner 1 0
  have hreach := SocketReach.new.step (.openSocket owner .tcpStream)
    |>.step (.bind owner handle 2000) |>.step (.listen owner handle 2)
    |>.step (.queueIncoming owner handle peer) |>.step (.accept owner handle)
  exact ⟨_, hreach, by decide +kernel, (socketSet_structure_isolation hreach).1⟩

end GenOS.Socket
