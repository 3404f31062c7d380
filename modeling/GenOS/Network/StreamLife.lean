/-
  GenOS.Network.StreamLife — one stream among the others.

  A run of the stack, seen from one stream: from its attachment on its record
  goes through events only (`StreamRun`), and the segments logged for its peer are
  those the events sent.  The other streams, the handshakes and later attachments
  leave no trace in it (`life_run`).  So what is proved of a stream on its own
  holds of every stream of the stack.
-/
import GenOS.Network.StreamEvents

namespace GenOS.Network

open GenOS.Lib GenOS.Socket Relation NetworkStack List

/-! ## §1. Runs of one stream. -/

/-- An event of a stream, with the record and the wire it found. -/
structure Happening where
  before : PassiveTcpStreamOperation
  event : StreamEvent
  wire : Wire

namespace Happening

/-- The segments the event sent. -/
def emitted (h : Happening) : List Emission :=
  (h.event.step h.before h.wire).2.sent.drop h.wire.sent.length

end Happening

/-- The runs of a stream that starts with the record `op₀`; no record is left
when its slot was freed. -/
inductive StreamRun (op₀ : PassiveTcpStreamOperation) :
    List Happening → Option PassiveTcpStreamOperation → Prop
  | start : StreamRun op₀ [] (some op₀)
  | event {trace : List Happening} {op : PassiveTcpStreamOperation}
      (run : StreamRun op₀ trace (some op)) (event : StreamEvent) (wire : Wire) :
      StreamRun op₀ (trace ++ [⟨op, event, wire⟩]) (event.step op wire).1

/-- **A property that events keep holds along a run.** -/
theorem StreamRun.invariant {op₀ : PassiveTcpStreamOperation} {trace : List Happening}
    {current : Option PassiveTcpStreamOperation} (run : StreamRun op₀ trace current)
    {I : PassiveTcpStreamOperation → Prop} (hstart : I op₀)
    (hstep : ∀ op event wire op', I op → (StreamEvent.step op wire event).1 = some op' → I op') :
    ∀ op, current = some op → I op := by
  induction run with
  | start =>
    intro op hop
    cases hop
    exact hstart
  | event run event wire ih => exact fun op' hop' => hstep _ event wire op' (ih _ rfl) hop'

/-! ## §2. Identity. -/

namespace PassiveTcpStreamOperation

variable (op : PassiveTcpStreamOperation)

theorem handleSegment_peer (wire : Wire) (segment : PassiveSegment) (tick : Nat) :
    (op.handleSegment wire segment tick).1.peer = op.peer := by
  have hacked := (op.acceptAcknowledgment_receive segment tick).peer
  have hhandled := op.handleSegment_handled wire segment tick
  generalize op.handleSegment wire segment tick = result at hhandled ⊢
  cases hhandled with
  | reset => rfl
  | challenged => rfl
  | ignored => rfl
  | refused => exact hacked
  | oversized => exact hacked
  | bare => exact hacked
  | accepted =>
    exact (accept_send (op.acceptAcknowledgment segment tick).1 segment tick).peer.trans hacked

end PassiveTcpStreamOperation

/-- An event does not change whose stream it is. -/
theorem StreamEvent.step_peer {op op' : PassiveTcpStreamOperation} {wire : Wire}
    {event : StreamEvent} (h : (event.step op wire).1 = some op') : op'.peer = op.peer := by
  cases event with
  | arrival segment tick =>
    cases h
    exact op.handleSegment_peer wire segment tick
  | poll tick =>
    rcases op.poll_cases wire tick with ⟨wire', progress, hpoll, -⟩ | ⟨-, -, -, kept, wire', -, hpoll,
      hsame⟩
    · simp only [StreamEvent.step, hpoll] at h
      cases h
    · simp only [StreamEvent.step, hpoll] at h
      cases h
      exact hsame.peer
  | startSend bytes tick =>
    cases hsend : op.startSend wire bytes tick with
    | none =>
      simp only [StreamEvent.step, hsend] at h
      cases h
      rfl
    | some result =>
      simp only [StreamEvent.step, hsend] at h
      cases h
      exact (op.startSend_receive hsend).peer
  | consumeReceive =>
    simp only [StreamEvent.step, PassiveTcpStreamOperation.consumeReceive] at h
    by_cases hempty : op.receive = []
    · rw [if_pos hempty] at h
      cases h
      rfl
    · rw [if_neg hempty] at h
      cases h
      exact op.consumed_send.peer
  | consumeSend =>
    cases h
    unfold PassiveTcpStreamOperation.consumeSend
    split <;> rfl
  | consumePeerClose =>
    cases h
    unfold PassiveTcpStreamOperation.consumePeerClose
    split <;> rfl
  | startClose tick =>
    cases hclose : op.startClose wire tick with
    | none =>
      simp only [StreamEvent.step, hclose] at h
      cases h
      rfl
    | some result =>
      simp only [StreamEvent.step, hclose] at h
      cases h
      exact (op.startClose_receive hclose).peer
  | finish => cases h
  | cancel => cases h

/-- All segments of an event are logged for its stream. -/
theorem StreamEvent.step_log (op : PassiveTcpStreamOperation) (wire : Wire) (event : StreamEvent) :
    Wire.Grows (fun em => em.peer = some op.peer) wire (event.step op wire).2 :=
  Covers.step ⟨fun _ h _ _ _ => congrArg some h, fun _ h => congrArg some h⟩ (fun _ => rfl) wire
    event

/-! ## §3. The life of a stream in the stack. -/

/-- The segments of a peer's stream in a part of the log. -/
def ofPeer (peer : TcpServerPeer) (log : List Emission) : List Emission :=
  log.filter fun em => em.peer = some peer

/-- What the log shows of a peer when it grows by segments of another one, or of
none. -/
theorem ofPeer_drop_append {peer : TcpServerPeer} {n : Nat} {sent more : List Emission}
    (hn : n ≤ sent.length) (hother : ∀ em ∈ more, em.peer ≠ some peer) :
    ofPeer peer ((sent ++ more).drop n) = ofPeer peer (sent.drop n) := by
  have hnone : more.filter (fun em => decide (em.peer = some peer)) = [] :=
    filter_eq_nil_iff.mpr fun em hem => by simpa using hother em hem
  rw [drop_append_of_le_length hn, ofPeer, filter_append, hnone, append_nil]
  rfl

/-- The stream of a peer, since the log had length `n`: its slot holds what a run
of the stream left, and the log shows what the run sent. -/
structure Lives (op₀ : PassiveTcpStreamOperation) (index : Fin passiveTcpStreamSlots) (n : Nat)
    (trace : List Happening) (s : NetworkStack) : Prop where
  run : StreamRun op₀ trace (s.passiveStreams index)
  log : ofPeer op₀.peer (s.wire.sent.drop n) = trace.flatMap Happening.emitted
  since : n ≤ s.wire.sent.length
  others : ∀ slot op, s.passiveStreams slot = some op → slot ≠ index → op.peer ≠ op₀.peer

namespace Lives

variable {op₀ : PassiveTcpStreamOperation} {index : Fin passiveTcpStreamSlots} {n : Nat}
  {trace : List Happening} {s s' : NetworkStack}

theorem peer (h : Lives op₀ index n trace s) {op : PassiveTcpStreamOperation}
    (hop : s.passiveStreams index = some op) : op.peer = op₀.peer :=
  h.run.invariant (I := fun op => op.peer = op₀.peer) rfl
    (fun _ _ _ _ hpeer hstep => (StreamEvent.step_peer hstep).trans hpeer) op hop

/-- A step of the stack extends the run of the stream, or leaves it alone. -/
theorem micro (h : Lives op₀ index n trace s) (hstep : Micro s s') :
    ∃ trace', Lives op₀ index n trace' s' := by
  cases hstep with
  | stream slot op event hop =>
    obtain ⟨haccepts, more, hsent, hmore⟩ := event.step_log op s.wire
    by_cases hslot : slot = index
    · subst hslot
      have hpeer := h.peer hop
      refine ⟨trace ++ [⟨op, event, s.wire⟩], ?_, ?_, ?_, ?_⟩
      · rw [putStream_self]
        have hrun := h.run
        rw [hop] at hrun
        exact hrun.event event s.wire
      · have hall : more.filter (fun em => decide (em.peer = some op₀.peer)) = more :=
          filter_eq_self.mpr fun em hem => by simp [hmore em hem, hpeer]
        have hemitted : Happening.emitted ⟨op, event, s.wire⟩ = more := by
          rw [Happening.emitted, hsent, drop_left]
        show ofPeer op₀.peer ((event.step op s.wire).2.sent.drop n) = _
        rw [hsent, drop_append_of_le_length h.since, ofPeer, filter_append, hall,
          flatMap_append, ← h.log]
        simp [ofPeer, hemitted]
      · show n ≤ (event.step op s.wire).2.sent.length
        rw [hsent, length_append]
        exact Nat.le_add_right_of_le h.since
      · intro other op' hop' hne
        rw [s.putStream_of_ne hne] at hop'
        exact h.others other op' hop' hne
    · have hpeer := h.others slot op hop hslot
      refine ⟨trace, ?_, ?_, ?_, ?_⟩
      · rw [s.putStream_of_ne (Ne.symm hslot)]
        exact h.run
      · show ofPeer op₀.peer ((event.step op s.wire).2.sent.drop n) = _
        rw [hsent, ofPeer_drop_append h.since, h.log]
        intro em hem hsame
        rw [hmore em hem] at hsame
        exact hpeer (Option.some.inj hsame)
      · show n ≤ (event.step op s.wire).2.sent.length
        rw [hsent, length_append]
        exact Nat.le_add_right_of_le h.since
      · intro other op' hop' hne
        by_cases hother : other = slot
        · subst hother
          rw [putStream_self] at hop'
          rw [StreamEvent.step_peer hop']
          exact hpeer
        · rw [s.putStream_of_ne hother] at hop'
          exact h.others other op' hop' hne
  | elsewhere hstreams hwire =>
    obtain ⟨-, more, hsent, hmore⟩ := hwire
    refine ⟨trace, ?_, ?_, ?_, ?_⟩
    · rw [hstreams]
      exact h.run
    · rw [hsent, ofPeer_drop_append h.since, h.log]
      intro em hem hsame
      rw [hmore em hem] at hsame
      cases hsame
    · rw [hsent, length_append]
      exact Nat.le_add_right_of_le h.since
    · rw [hstreams]
      exact h.others

theorem micros (h : Lives op₀ index n trace s) (hsteps : ReflTransGen Micro s s') :
    ∃ trace', Lives op₀ index n trace' s' := by
  induction hsteps with
  | refl => exact ⟨trace, h⟩
  | tail _ hstep ih =>
    obtain ⟨trace', h'⟩ := ih
    exact h'.micro hstep

/-- A call while the stream is attached. -/
theorem call (h : Lives op₀ index n trace s) (hlive : (s.streamSlot op₀.peer).isSome = true)
    (call : NetCall) : ∃ trace', Lives op₀ index n trace' (call.apply s) := by
  rcases call.micros s with hsteps | ⟨peer, early, tick, slot, -, hattaches, heq⟩
  · exact h.micros hsteps
  -- a stream that is attached now has other addresses and ports
  have hfresh : peer ≠ op₀.peer := by
    intro hsame
    obtain ⟨found, hfound⟩ := Option.isSome_iff_exists.mp hlive
    obtain ⟨op, hop, hpeer⟩ := Slots.position_some hfound
    have hmine : op.peer = op₀.peer := of_decide_eq_true hpeer
    refine hattaches.fresh found op hop ?_
    rw [hsame, ← hmine]
    rfl
  have hother : slot ≠ index := by
    intro hsame
    obtain ⟨found, hfound⟩ := Option.isSome_iff_exists.mp hlive
    obtain ⟨op, hop, hpeer⟩ := Slots.position_some hfound
    by_cases hindex : found = index
    · rw [hindex, ← hsame, hattaches.free] at hop
      cases hop
    · exact h.others found op hop hindex (of_decide_eq_true hpeer)
  refine ⟨trace, ?_, ?_, ?_, ?_⟩
  · rw [heq, s.putStream_of_ne (Ne.symm hother)]
    exact h.run
  · rw [heq]
    exact h.log
  · rw [heq]
    exact h.since
  · rw [heq]
    intro other op hop hne
    by_cases hslot : other = slot
    · subst hslot
      rw [putStream_self] at hop
      cases hop
      exact hfresh
    · rw [s.putStream_of_ne hslot] at hop
      exact h.others other op hop hne

end Lives

/-- **A stream in the stack is a run of its record.**  From the attachment on,
over all calls that find the stream attached, the slot holds what a run of the
stream left and the log shows for the peer what the run sent. -/
theorem life_run {s s₀ : NetworkStack} {peer : TcpServerPeer} {early : EarlyStreamData}
    {tick : Nat} (hattach : s.startTcpPassiveStream peer early tick = (s₀, true))
    (calls : List NetCall)
    (hlife : ∀ n, n < calls.length → ((s₀.run (calls.take n)).streamSlot peer).isSome = true) :
    early.bytes.length ≤ passiveTcpStreamBufferCapacity
    ∧ ∃ index trace, Lives (streamOperation peer early tick) index
        s₀.wire.sent.length trace (s₀.run calls) := by
  rcases s.startTcpPassiveStream_cases peer early tick with h | ⟨index, hattaches, h⟩
  · rw [h] at hattach
    cases hattach
  rw [h] at hattach
  cases hattach
  refine ⟨hattaches.fits, index, ?_⟩
  -- the calls one by one, from the first
  have hstart : Lives (streamOperation peer early tick) index s.wire.sent.length []
      (s.putStream index (some (streamOperation peer early tick)) s.wire) := by
    refine ⟨?_, ?_, Nat.le_refl _, ?_⟩
    · rw [putStream_self]
      exact .start
    · show ofPeer _ (s.wire.sent.drop s.wire.sent.length) = []
      rw [drop_length]
      rfl
    · intro slot op hop hne hpeer
      rw [s.putStream_of_ne hne] at hop
      refine hattaches.fresh slot op hop ?_
      show peerTuple op.peer = peerTuple peer
      rw [hpeer]
      rfl
  have hrun : ∀ m, m ≤ calls.length → ∃ trace, Lives (streamOperation peer early tick)
      index s.wire.sent.length trace ((s.putStream index
        (some (streamOperation peer early tick)) s.wire).run (calls.take m)) := by
    intro m
    induction m with
    | zero => exact fun _ => ⟨[], hstart⟩
    | succ m ih =>
      intro hm
      obtain ⟨trace, hlives⟩ := ih (Nat.le_of_succ_le hm)
      rw [take_add_one, getElem?_eq_getElem hm, Option.toList_some,
        NetworkStack.run, foldl_append]
      exact hlives.call (hlife m hm) calls[m]
  have hall := hrun calls.length (Nat.le_refl _)
  rw [take_length] at hall
  exact hall

end GenOS.Network
