/-
  GenOS.Socket.EntryMoves — what a call does to requests and waiting peers.

  `Move` says what the function of a call on a handle may do: it begins the
  request of its number or ends what is in flight, it completes only the request
  in flight, it never wakes a socket whose send side is shut (`Quiet`), and it
  changes the waiting peers only as `queue_incoming` and `drop_incoming` do.
-/
import GenOS.Socket.Isolation

namespace GenOS.Socket

open GenOS.Lib List

/-! ## §1. Waiting peers and shut sockets. -/

instance : NeZero socketListenerBacklogCapacity := ⟨by decide⟩

/-- The peers that wait at a listener, the oldest first. -/
def SocketEntry.waiting (e : SocketEntry) : List TcpServerPeer :=
  ((List.finRange socketListenerBacklogCapacity).take e.backlogLen).filterMap e.backlog

/-- The states in which nothing more is sent. -/
def SocketState.shut : SocketState → Bool
  | .writeClosed | .closed | .failed => true
  | _ => false

/-- The send side is shut and nothing is in flight. -/
structure Quiet (e : SocketEntry) : Prop where
  state : e.state.shut = true
  send : e.inFlightSend = 0

variable {e : SocketEntry} {requestId : BitVec 64}

/-- A full backlog is two cells; the lists are written out. -/
theorem SocketEntry.waiting_eq (h : EntryInv e) :
    (e.backlogLen = 0 ∧ e.waiting = [])
      ∨ (∃ a, e.backlogLen = 1 ∧ e.backlog 0 = some a ∧ e.waiting = [a])
      ∨ ∃ a b, e.backlogLen = 2 ∧ e.backlog 0 = some a ∧ e.backlog 1 = some b
        ∧ e.waiting = [a, b] := by
  have hbound : e.backlogLen ≤ 2 := Nat.le_trans h.backlogBound h.limitBound
  have hrange : List.finRange socketListenerBacklogCapacity = [0, 1] := rfl
  unfold SocketEntry.waiting
  rw [hrange]
  rcases Nat.lt_or_ge e.backlogLen 1 with hlt | hge
  · have hzero : e.backlogLen = 0 := by omega
    rw [hzero]
    exact .inl ⟨rfl, rfl⟩
  obtain ⟨a, ha⟩ := Option.isSome_iff_exists.mp ((h.cells 0).mpr hge)
  rcases Nat.lt_or_ge e.backlogLen 2 with hlt | hge'
  · have hone : e.backlogLen = 1 := by omega
    refine .inr (.inl ⟨a, hone, ha, ?_⟩)
    rw [hone]
    show [(0 : Fin socketListenerBacklogCapacity)].filterMap e.backlog = [a]
    rw [filterMap_cons_some ha]
    rfl
  · have htwo : e.backlogLen = 2 := by omega
    obtain ⟨b, hb⟩ := Option.isSome_iff_exists.mp ((h.cells 1).mpr hge')
    refine .inr (.inr ⟨a, b, htwo, ha, hb, ?_⟩)
    rw [htwo]
    show [(0 : Fin socketListenerBacklogCapacity), 1].filterMap e.backlog = [a, b]
    rw [filterMap_cons_some ha, filterMap_cons_some hb]
    rfl

theorem SocketEntry.waiting_congr {e' : SocketEntry} (hcells : e'.backlog = e.backlog)
    (hlen : e'.backlogLen = e.backlogLen) : e'.waiting = e.waiting := by
  unfold SocketEntry.waiting
  rw [hcells, hlen]

/-! ## §2. Moves of an entry. -/

/-- What the function of a call may do to an entry. -/
structure Move (op : SocketOp) (e : SocketEntry) (r : SocketEntry × Bool) : Prop where
  step : EntryStep e r.1
  quiet : Quiet e → Quiet r.1
  request : r.1.inFlightRequest = e.inFlightRequest ∨ r.1.inFlightRequest = 0
    ∨ (op.begins = some r.1.inFlightRequest ∧ r.2 = true)
  settled : ∀ id, op.settles = some id → r.2 = true →
    e.inFlightRequest = id ∧ e.inFlightSend ≠ 0 ∧ r.1.inFlightRequest = 0
  shut : op.shuts = true → r.2 = true → Quiet r.1
  waiting : EntryInv e → r.1.waiting = if r.2 then op.queueStep e.waiting else e.waiting

namespace Move

variable {op : SocketOp} {e e' : SocketEntry} {ok : Bool}

theorem refused (op : SocketOp) (e : SocketEntry) : Move op e (e, false) :=
  ⟨.refl e, id, .inl rfl, nofun, nofun, fun _ => rfl⟩

/-- The backlog is not touched. -/
theorem waiting_of_same (hop : ∀ queue, op.queueStep queue = queue) (hcells : e'.backlog = e.backlog)
    (hlen : e'.backlogLen = e.backlogLen) :
    e'.waiting = if ok then op.queueStep e.waiting else e.waiting := by
  rw [hop, ite_self]
  exact SocketEntry.waiting_congr hcells hlen

/-- The request stays as it is, and a shut state stays shut. -/
theorem kept (hop : op.Plain) (hstep : EntryStep e e')
    (hrequest : e'.inFlightRequest = e.inFlightRequest) (hsend : e'.inFlightSend = e.inFlightSend)
    (hstate : e.state.shut = true → e'.state.shut = true) (hcells : e'.backlog = e.backlog)
    (hlen : e'.backlogLen = e.backlogLen) : Move op e (e', ok) where
  step := hstep
  quiet hq := ⟨hstate hq.state, hsend.trans hq.send⟩
  request := .inl hrequest
  settled id hid := by
    rw [hop.settles] at hid
    cases hid
  shut hs := by
    rw [hop.shuts] at hs
    cases hs
  waiting _ := waiting_of_same hop.queueStep hcells hlen

/-- The request in flight ends. -/
theorem landed (hop : ∀ queue, op.queueStep queue = queue) (hstep : EntryStep e e')
    (hrequest : e'.inFlightRequest = 0) (hsend : e'.inFlightSend = 0)
    (hstate : e.inFlightSend = 0 → e.state.shut = true → e'.state.shut = true)
    (hsettled : ∀ id, op.settles = some id → ok = true →
      e.inFlightRequest = id ∧ e.inFlightSend ≠ 0)
    (hshut : op.shuts = true → ok = true → e'.state.shut = true) (hcells : e'.backlog = e.backlog)
    (hlen : e'.backlogLen = e.backlogLen) : Move op e (e', ok) where
  step := hstep
  quiet hq := ⟨hstate hq.send hq.state, hsend⟩
  request := .inr (.inl hrequest)
  settled id hid hok := ⟨(hsettled id hid hok).1, (hsettled id hid hok).2, hrequest⟩
  shut hs hok := ⟨hshut hs hok, hsend⟩
  waiting _ := waiting_of_same hop hcells hlen

/-- A request begins, on a socket that may send. -/
theorem launched (hop : op.Starts requestId) (hidle : e.idle requestId = true)
    (hstate : e.state.shut = false) :
    Move op e (e.launch requestId, true) where
  step := .launch hidle
  quiet hq := by
    have := hq.state
    rw [hstate] at this
    cases this
  request := .inr (.inr ⟨hop.begins, rfl⟩)
  settled id hid := by
    rw [hop.settles] at hid
    cases hid
  shut hs := by
    rw [hop.shuts] at hs
    cases hs
  waiting _ := waiting_of_same hop.queueStep rfl rfl

/-- A request ends, by a call of its number. -/
theorem finished (hop : op.Finishes requestId) (hrequest : e.inFlightRequest = requestId)
    (hsend : e.inFlightSend ≠ 0) (hstep : EntryStep e e') (hrequest' : e'.inFlightRequest = 0)
    (hsend' : e'.inFlightSend = 0) (hcells : e'.backlog = e.backlog)
    (hlen : e'.backlogLen = e.backlogLen) :
    Move op e (e', ok) := by
  refine .landed hop.queueStep hstep hrequest' hsend' (fun hzero => absurd hzero hsend)
    (fun id hid _ => ?_) (fun hs => ?_) hcells hlen
  · rw [hop.settles] at hid
    exact ⟨hrequest.trans (Option.some.inj hid), hsend⟩
  · rw [hop.shuts] at hs
    cases hs

end Move

namespace SocketEntry

variable (e : SocketEntry)

/-- A state that is not shut has no quiet entry. -/
theorem shut_elim {state other : SocketState} (hstate : state = other) (hother : other.shut = false)
    {P : Prop} (hs : state.shut = true) : P := by
  rw [hstate, hother] at hs
  cases hs

/-! ### The backlog. -/

theorem queueIncoming_waiting (peer : TcpServerPeer) (hinv : EntryInv e)
    (hstate : e.state = .listening) (hroom : e.backlogLen < e.backlogLimit) :
    SocketEntry.waiting { e with
      backlog := setAt e.backlog e.backlogLen (some peer), backlogLen := e.backlogLen + 1 }
      = e.waiting ++ [peer] := by
  have hfull : e.backlogLen < 2 := Nat.lt_of_lt_of_le hroom hinv.limitBound
  rcases waiting_eq ((e.queueIncoming_step peer hstate hroom).inv hinv) with ⟨hlen, -⟩
    | ⟨a, hlen, ha, hwait⟩ | ⟨a, b, hlen, ha, hb, hwait⟩
  · exact absurd hlen (Nat.succ_ne_zero _)
  · rw [hwait]
    dsimp only at hlen ha
    have hold : e.backlogLen = 0 := by omega
    rcases waiting_eq hinv with ⟨-, hnone⟩ | ⟨_, hone, -⟩ | ⟨_, _, htwo, -⟩
    · rw [hold] at ha
      rw [hnone, show a = peer from (Option.some.inj ha).symm]
      rfl
    · omega
    · omega
  · rw [hwait]
    dsimp only at hlen ha hb
    have hold : e.backlogLen = 1 := by omega
    rcases waiting_eq hinv with ⟨hzero, -⟩ | ⟨c, -, hc, hone⟩ | ⟨_, _, htwo, -⟩
    · omega
    · rw [hold] at ha hb
      have hfirst : some c = some a := hc.symm.trans ha
      rw [hone, show b = peer from (Option.some.inj hb).symm, Option.some.inj hfirst]
      rfl
    · omega

theorem removeIncoming_waiting {position : Nat} (hinv : EntryInv e)
    (hpos : position < e.backlogLen) :
    (e.removeIncoming position).waiting = e.waiting.eraseIdx position := by
  have hnew := waiting_eq ((EntryStep.removeIncoming hpos).inv hinv)
  have hlen : (e.removeIncoming position).backlogLen = e.backlogLen - 1 := rfl
  rw [hlen] at hnew
  rcases waiting_eq hinv with ⟨hzero, -⟩ | ⟨a, hone, -, hwait⟩ | ⟨a, b, htwo, ha, hb, hwait⟩
  · omega
  · have hfirst : position = 0 := by omega
    rcases hnew with ⟨-, hnone⟩ | ⟨_, hbad, -⟩ | ⟨_, _, hbad, -⟩
    · rw [hnone, hwait, hfirst]
      rfl
    · omega
    · omega
  · rcases hnew with ⟨hbad, -⟩ | ⟨c, -, hc, hone⟩ | ⟨_, _, hbad, -⟩
    · omega
    · -- The cell that is left is the one the copy moved to the front, or the first.
      unfold removeIncoming setAt copyWithin at hc
      rw [htwo] at hc
      rcases Nat.lt_or_ge position 1 with hlow | hhigh
      · have hfirst : position = 0 := by omega
        rw [hfirst] at hc
        have hcb : some b = some c := hb.symm.trans hc
        rw [hone, hwait, hfirst, Option.some.inj hcb]
        rfl
      · have hsecond : position = 1 := by omega
        rw [hsecond] at hc
        have hca : some a = some c := ha.symm.trans hc
        rw [hone, hwait, hsecond, Option.some.inj hca]
        rfl
    · omega

/-- The position that `drop_incoming` finds is that of the first such peer. -/
theorem incomingPosition_erase {peer : TcpServerPeer} {position : Nat} (hinv : EntryInv e)
    (h : e.incomingPosition peer = some position) :
    e.waiting.eraseIdx position = e.waiting.erase peer := by
  have hrange : List.finRange socketListenerBacklogCapacity = [0, 1] := rfl
  unfold incomingPosition at h
  rw [hrange] at h
  rcases waiting_eq hinv with ⟨hzero, -⟩ | ⟨a, hone, ha, hwait⟩ | ⟨a, b, htwo, ha, hb, hwait⟩
  · rw [hzero] at h
    cases h
  · rw [hone, take_succ_cons, take_zero, find?_cons, ha] at h
    rw [hwait]
    by_cases hpeer : a = peer
    · rw [hpeer, decide_eq_true rfl] at h
      cases h
      rw [hpeer]
      simp
    · rw [decide_eq_false fun heq => hpeer (Option.some.inj heq)] at h
      cases h
  · rw [htwo, take_succ_cons, take_succ_cons, take_zero, find?_cons, ha] at h
    rw [hwait]
    by_cases hpeer : a = peer
    · rw [hpeer, decide_eq_true rfl] at h
      cases h
      rw [hpeer]
      simp
    · rw [decide_eq_false fun heq => hpeer (Option.some.inj heq), find?_cons, hb] at h
      by_cases hpeer' : b = peer
      · rw [hpeer', decide_eq_true rfl] at h
        cases h
        rw [hpeer']
        show [a] = [a, peer].erase peer
        simp [hpeer]
      · rw [decide_eq_false fun heq => hpeer' (Option.some.inj heq)] at h
        cases h

/-- A shut socket stays shut, and a shutdown of the write side shuts. -/
theorem shutdownState_shut {read write : Bool} {state next : SocketState}
    (hopen : state ≠ .closed ∧ state ≠ .failed) (h : shutdownState read write state = some next) :
    (state.shut = true → next.shut = true) ∧ (write = true → next.shut = true) := by
  cases read <;> cases write <;> cases state <;> cases h <;> simp [SocketState.shut] at hopen ⊢

end SocketEntry

open SocketEntry

/-- **Every call on a handle is a move of its entry.** -/
theorem entryCall_move {op : SocketOp} {f : SocketEntry → SocketEntry × Bool}
    (h : op.entryCall = some f) (e : SocketEntry) : Move op e (f e) := by
  have houtcome := entryCall_outcome h e
  have hstep := houtcome.step
  generalize f e = r at houtcome hstep
  cases houtcome with
  | refused => exact .refused op e
  | connected hop target port hstate | bound hop localPort hstate
  | listening hop backlog hstate hle | established hop hstate =>
    exact .kept hop hstep rfl rfl (shut_elim hstate rfl) rfl rfl
  | queued owner handle peer hop hstate hroom =>
    subst hop
    exact ⟨hstep, fun hq => shut_elim hstate rfl hq.state, .inl rfl, nofun, nofun,
      fun hinv => e.queueIncoming_waiting peer hinv hstate hroom⟩
  | dropped owner handle peer position hop hstate hposition =>
    subst hop
    exact ⟨hstep, fun hq => shut_elim hstate rfl hq.state, .inl rfl, nofun, nofun,
      fun hinv => (e.removeIncoming_waiting hinv (e.incomingPosition_lt hposition)).trans
        (e.incomingPosition_erase hinv hposition)⟩
  | sent hop data ok hstate hroom | taken hop room ok | arrived hop data ok hstate
  | read hop room ok hstate => exact .kept hop hstep rfl rfl id rfl rfl
  | launched requestId hop hidle hstate =>
    refine .launched hop hidle ?_
    rcases hstate with hs | hs | hs <;> rw [hs] <;> rfl
  | landed requestId hop hrequest hsend | failed requestId hop hrequest hsend
  | completed requestId hop receive state ok hrequest hsend hexchanging hstate =>
    exact .finished hop hrequest hsend hstep rfl rfl rfl rfl
  | readClosed hop state hstate =>
    refine .kept hop hstep rfl rfl ?_ rfl rfl
    rcases hstate with rfl | ⟨hold, -⟩
    · exact id
    · exact shut_elim hold rfl
  | abandoned hop hqueue state hstate =>
    have hshut : state.shut = true := by rcases hstate with rfl | rfl <;> rfl
    exact .landed hqueue hstep rfl rfl (fun _ _ => hshut)
      (fun _ hid => absurd (hop.symm.trans hid) nofun) (fun _ _ => hshut) rfl rfl
  | shutServer owner handle read hop hserver hidle hopen =>
    subst hop
    have hsend : (e.clearReceiveIf read).inFlightSend = 0 := by
      cases read <;> exact hidle
    refine ⟨hstep, fun _ => ⟨rfl, hsend⟩, .inl ?_, nofun, fun _ _ => ⟨rfl, hsend⟩, fun _ => ?_⟩
    · cases read <;> rfl
    · refine Move.waiting_of_same (fun _ => rfl) ?_ ?_ <;> cases read <;> rfl
  | shutClient owner handle read write state hop hclient hopen hstate =>
    subst hop
    obtain ⟨hkept, hshut⟩ := shutdownState_shut hopen hstate
    cases write with
    | true =>
      exact .landed (fun _ => rfl) hstep rfl rfl (fun _ _ => hshut rfl) nofun
        (fun _ _ => hshut rfl) (by cases read <;> rfl) (by cases read <;> rfl)
    | false =>
      refine .kept ⟨rfl, rfl, rfl, fun _ => rfl⟩ hstep ?_ ?_ hkept ?_ ?_ <;> cases read <;> rfl

end GenOS.Socket
