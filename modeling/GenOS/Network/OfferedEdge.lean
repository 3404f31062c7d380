/-
  GenOS.Network.OfferedEdge — the right edge of the offered window.

  A segment of a stream acknowledges up to a sequence number and offers a window
  from there.  `receive_window` counts the deferred slot, so a segment that is kept
  beyond a gap takes its length off the window while the acknowledgment stays: the
  right edge moves left.  With the length of such a segment added back
  (`extendedEdge`) the edge of a stream only moves right, over its whole life.
-/
import GenOS.Network.AdvertisedWindows
import GenOS.Network.StreamLife
import Mathlib.Data.List.Chain

namespace GenOS.Network

open GenOS.Lib GenOS.Socket List Happening

/-! ## §1. Edges. -/

/-- The bytes of a deferred segment that is not acknowledged yet. -/
def heldBack (deferred : Option DeferredTcpSegment) : Nat :=
  deferred.elim 0 fun d => if d.acknowledged then 0 else d.bytes.length

def Sender.heldBack : Sender → Nat
  | .stream op => Network.heldBack op.deferred
  | _ => 0

namespace Emission

/-- The right edge of the window a segment offers. -/
def edge (em : Emission) : BitVec 32 :=
  em.segment.acknowledgment + BitVec.ofNat 32 em.segment.window.toNat

/-- The right edge, extended by the segment that is kept beyond a gap. -/
def extendedEdge (em : Emission) : BitVec 32 :=
  em.edge + BitVec.ofNat 32 em.sender.heldBack

/-- The segment is no reset and does not offer more than is free. -/
def offers (em : Emission) : Bool :=
  em.segment.flags &&& 0x04 == 0
    && decide (em.segment.window.toNat ≤ passiveTcpReceiveCapacity - em.sender.buffered)

end Emission

/-- `b` is not to the left of `a`, modulo `2 ^ 32`. -/
def NotLeft (a b : BitVec 32) : Prop := (b - a).toNat < 2 ^ 31

/-- `b` is at most `n` to the right of `a`. -/
def Ahead (n : Nat) (a b : BitVec 32) : Prop := ∃ k ≤ n, b = a + BitVec.ofNat 32 k

namespace Ahead

variable {a b c : BitVec 32} {n m : Nat}

theorem refl (n : Nat) (a : BitVec 32) : Ahead n a a := ⟨0, Nat.zero_le n, by simp⟩

theorem trans (h : Ahead n a b) (h' : Ahead m b c) : Ahead (n + m) a c := by
  obtain ⟨k, hk, rfl⟩ := h
  obtain ⟨l, hl, rfl⟩ := h'
  refine ⟨k + l, Nat.add_le_add hk hl, ?_⟩
  rw [BitVec.ofNat_add, BitVec.add_assoc]

theorem notLeft (h : Ahead n a b) (hn : n < 2 ^ 31) : NotLeft a b := by
  obtain ⟨k, hk, rfl⟩ := h
  have hdiff : a + BitVec.ofNat 32 k - a = BitVec.ofNat 32 k := by
    rw [BitVec.add_comm, BitVec.add_sub_cancel]
  rw [NotLeft, hdiff, BitVec.toNat_ofNat]
  omega

end Ahead

namespace PassiveTcpStreamOperation

variable (op : PassiveTcpStreamOperation)

/-- The extended edge of what the stream sends now. -/
def extendedEdge : BitVec 32 :=
  op.remoteSequence + BitVec.ofNat 32 (passiveTcpReceiveCapacity - op.buffered)
    + BitVec.ofNat 32 (heldBack op.deferred)

/-- Both buffers are within their size. -/
structure Bounded : Prop where
  receive : op.receive.length ≤ passiveTcpStreamBufferCapacity
  deferred : deferredLen op.deferred ≤ passiveTcpStreamBufferCapacity

end PassiveTcpStreamOperation

open PassiveTcpStreamOperation

variable {op op' : PassiveTcpStreamOperation}

theorem SameReceive.extendedEdge (h : SameReceive op op') :
    op'.extendedEdge = op.extendedEdge := by
  rw [PassiveTcpStreamOperation.extendedEdge, h.buffered, h.remoteSequence, h.deferred]
  rfl

theorem SameReceive.bounded (h : SameReceive op op') (hop : op.Bounded) : op'.Bounded :=
  ⟨h.receive ▸ hop.receive, h.deferred ▸ hop.deferred⟩

/-- A segment with the receive window offers the edge of the stream. -/
theorem emission_extendedEdge (op : PassiveTcpStreamOperation) (sequence : BitVec 32)
    (flags : BitVec 8) (payload : Bytes) :
    (op.emission sequence flags payload).extendedEdge = op.extendedEdge := by
  show op.remoteSequence + BitVec.ofNat 32 (receiveWindow op).toNat + _ = _
  rw [receiveWindow_toNat]
  rfl

/-- So does the FIN of a close, unless it offers too much. -/
theorem closing_extendedEdge {tick : Nat}
    (h : ((op.closing tick).fullEmission 0x11).offers = true) :
    ((op.closing tick).fullEmission 0x11).extendedEdge = op.extendedEdge := by
  simp only [Emission.offers, Bool.and_eq_true, decide_eq_true_eq] at h
  have hempty : op.buffered = 0 := (closing_backed_iff op tick).mp fun _ => h.2
  show op.remoteSequence + BitVec.ofNat 32 (BitVec.ofNat 16 passiveTcpReceiveCapacity).toNat + _ = _
  rw [PassiveTcpStreamOperation.extendedEdge, hempty]
  rfl

/-! ## §2. What moves the edge. -/

namespace PassiveTcpStreamOperation

variable {op : PassiveTcpStreamOperation}

/-- The edge from the numbers it depends on. -/
theorem extendedEdge_ahead (moved : Nat) {n : Nat}
    (hsequence : op'.remoteSequence = op.remoteSequence + BitVec.ofNat 32 moved)
    (hbuffered : op.buffered ≤ passiveTcpReceiveCapacity)
    (hbuffered' : op'.buffered ≤ passiveTcpReceiveCapacity)
    (hforward : op'.buffered + heldBack op.deferred ≤ moved + op.buffered + heldBack op'.deferred)
    (hbound : moved + op.buffered + heldBack op'.deferred
      ≤ op'.buffered + heldBack op.deferred + n) :
    Ahead n op.extendedEdge op'.extendedEdge := by
  refine ⟨moved + op.buffered + heldBack op'.deferred - (op'.buffered + heldBack op.deferred),
    by omega, ?_⟩
  simp only [extendedEdge, hsequence, BitVec.add_assoc, ← BitVec.ofNat_add]
  congr 2
  omega

theorem oneIf_eq (flag : Bool) : oneIf flag = BitVec.ofNat 32 flag.toNat := by
  cases flag <;> rfl

theorem Bounded.buffered (h : op.Bounded) : op.buffered ≤ passiveTcpReceiveCapacity :=
  Nat.add_le_add h.receive h.deferred

/-- Payload moves the edge by at most the FIN behind it and the segment it
reaches. -/
theorem Stores.edge {segment : PassiveSegment} {result : PassiveTcpStreamOperation × Bool}
    (h : op.Stores segment result) (hop : op.Bounded)
    (hlen : segment.len ≤ passiveTcpStreamBufferCapacity) :
    result.1.Bounded ∧ Ahead 129 op.extendedEdge result.1.extendedEdge := by
  have hcapacity : passiveTcpReceiveCapacity = 256 := rfl
  have hsize : passiveTcpStreamBufferCapacity = 128 := rfl
  have hpayload : segment.payload.length = segment.len := rfl
  have hbuffered := hop.buffered
  cases h with
  | nothing hsame =>
    rw [hsame.extendedEdge]
    exact ⟨hsame.bounded hop, Ahead.refl 129 _⟩
  | first hne hsequence hempty hgap hsame =>
    rw [hsame.extendedEdge]
    have hbounded : PassiveTcpStreamOperation.Bounded { op with
        receive := segment.payload
        remoteSequence := op.remoteSequence + segment.len32 } := ⟨hlen, hop.deferred⟩
    refine ⟨hsame.bounded hbounded, extendedEdge_ahead segment.len rfl hbuffered hbounded.buffered ?_ ?_⟩
    all_goals
      simp only [buffered, hempty, length_nil]
      omega
  | promoted d hne hsequence hempty hdeferred hnext hsame =>
    rw [hsame.extendedEdge]
    have hd : d.bytes.length ≤ passiveTcpStreamBufferCapacity := by
      have h := hop.deferred
      rw [hdeferred] at h
      exact h
    have hbounded : PassiveTcpStreamOperation.Bounded { op with
        receive := segment.payload
        remoteSequence :=
          op.remoteSequence + segment.len32 + BitVec.ofNat 32 d.bytes.length + oneIf d.fin
        deferred := some { d with acknowledged := true } } := ⟨hlen, hd⟩
    have hfin : d.fin.toNat ≤ 1 := by cases d.fin <;> decide
    have hheld : heldBack (some d) ≤ d.bytes.length := by
      show (if d.acknowledged then 0 else d.bytes.length) ≤ _
      split
      · exact Nat.zero_le _
      · exact Nat.le_refl _
    refine ⟨hsame.bounded hbounded,
      extendedEdge_ahead (segment.len + d.bytes.length + d.fin.toNat) ?_ hbuffered
        hbounded.buffered ?_ ?_⟩
    · show op.remoteSequence + segment.len32 + BitVec.ofNat 32 d.bytes.length + oneIf d.fin = _
      rw [PassiveSegment.len32, oneIf_eq, BitVec.ofNat_add, BitVec.ofNat_add]
      simp only [BitVec.add_assoc]
    all_goals
      simp only [buffered, hempty, hdeferred, length_nil,
        deferredLen, heldBack, Option.elim_some, if_true] at hheld ⊢
      omega
  | second hne hfree hbusy hfits hsame =>
    rw [hsame.extendedEdge]
    have hfin : segment.fin.toNat ≤ 1 := by cases segment.fin <;> decide
    have hreceive := hop.receive
    by_cases hnext : segment.sequence = op.remoteSequence
    · -- behind the bytes of the first buffer
      simp only [hnext, if_true, decide_true] at hsame ⊢
      have hbounded : PassiveTcpStreamOperation.Bounded { op with
          remoteSequence := op.remoteSequence + segment.len32 + oneIf segment.fin
          deferred := some ⟨op.remoteSequence, segment.payload, segment.fin, true⟩ } :=
        ⟨hop.receive, hlen⟩
      refine ⟨hsame.bounded hbounded, extendedEdge_ahead (segment.len + segment.fin.toNat) ?_
        hbuffered hbounded.buffered ?_ ?_⟩
      · show op.remoteSequence + segment.len32 + oneIf segment.fin = _
        rw [PassiveSegment.len32, oneIf_eq, BitVec.ofNat_add, BitVec.add_assoc]
      all_goals
        simp only [buffered, hfree, deferredLen, heldBack,
          Option.elim_some, Option.elim_none, if_true]
        omega
    · -- beyond a gap
      simp only [hnext, if_false, decide_false] at hsame ⊢
      have hbounded : PassiveTcpStreamOperation.Bounded { op with
          deferred := some ⟨segment.sequence, segment.payload, segment.fin, false⟩ } :=
        ⟨hop.receive, hlen⟩
      refine ⟨hsame.bounded hbounded, extendedEdge_ahead 0 ?_ hbuffered hbounded.buffered ?_ ?_⟩
      · exact (BitVec.add_zero _).symm
      all_goals
        simp only [buffered, hfree, deferredLen, heldBack,
          Option.elim_some, Option.elim_none, Bool.false_eq_true, if_false]
        omega

theorem takeFin_edge (hop : op.Bounded) (segment : PassiveSegment) (tick : Nat) :
    (op.takeFin segment tick).Bounded
    ∧ Ahead 1 op.extendedEdge (op.takeFin segment tick).extendedEdge := by
  rcases op.takeFin_cases segment tick with ⟨-, heq⟩ | ⟨-, hsame⟩
  · rw [heq]
    exact ⟨hop, Ahead.refl 1 _⟩
  · have hbounded : PassiveTcpStreamOperation.Bounded { op with
        remoteSequence := op.remoteSequence + 1
        peerFin := true
        peerFinPending := true } := ⟨hop.receive, hop.deferred⟩
    rw [hsame.extendedEdge]
    refine ⟨hsame.bounded hbounded, extendedEdge_ahead 1 rfl hop.buffered hop.buffered ?_ ?_⟩
    · show op.buffered + heldBack op.deferred ≤ 1 + op.buffered + heldBack op.deferred
      omega
    · show 1 + op.buffered + heldBack op.deferred ≤ op.buffered + heldBack op.deferred + 1
      omega

theorem accept_edge (hop : op.Bounded) {segment : PassiveSegment}
    (hlen : segment.len ≤ passiveTcpStreamBufferCapacity) (tick : Nat) :
    (op.accept segment tick).1.Bounded
    ∧ Ahead 130 op.extendedEdge (op.accept segment tick).1.extendedEdge := by
  obtain ⟨hstored, hedge⟩ := (op.stored_stores segment tick).edge hop hlen
  rw [accept_eq]
  split
  · obtain ⟨htaken, hedge'⟩ := takeFin_edge hstored segment tick
    exact ⟨htaken, hedge.trans hedge'⟩
  · exact ⟨hstored, hedge.trans (.refl 1 _)⟩

/-- Reading moves the edge by what was read. -/
theorem consumed_edge (hop : op.Bounded) :
    op.consumed.Bounded ∧ Ahead 130 op.extendedEdge op.consumed.extendedEdge := by
  have hsize : passiveTcpStreamBufferCapacity = 128 := rfl
  have hreceive := hop.receive
  have hdeferred := hop.deferred
  have hbuffered := hop.buffered
  unfold consumed
  split
  · rename_i d hd
    rw [Option.filter_eq_some_iff] at hd
    obtain ⟨hd, hacked⟩ := hd
    rw [hd] at hdeferred
    have hbounded : PassiveTcpStreamOperation.Bounded { op with
        deferred := none
        receive := d.bytes
        peerFin := op.peerFin || d.fin
        peerFinPending := op.peerFinPending || d.fin } := ⟨hdeferred, Nat.zero_le _⟩
    refine ⟨hbounded, extendedEdge_ahead 0 (BitVec.add_zero _).symm hbuffered hbounded.buffered
      ?_ ?_⟩
    all_goals
      simp only [buffered, hd, deferredLen, heldBack, Option.elim_some,
        Option.elim_none, hacked, if_true]
      omega
  · have hbounded : PassiveTcpStreamOperation.Bounded { op with receive := [] } :=
      ⟨Nat.zero_le _, hop.deferred⟩
    refine ⟨hbounded, extendedEdge_ahead 0 (BitVec.add_zero _).symm hbuffered hbounded.buffered
      ?_ ?_⟩
    all_goals
      simp only [buffered, length_nil]
      omega

end PassiveTcpStreamOperation

/-! ## §3. The events. -/

/-- Where the segment offers a window, it offers the edge of the stream. -/
def Offered (op : PassiveTcpStreamOperation) (em : Emission) : Prop :=
  em.offers = true → em.extendedEdge = op.extendedEdge

theorem offered_sends (op : PassiveTcpStreamOperation) : Sends (Offered op) op where
  segment := fun op' hsame sequence flags payload _ =>
    (emission_extendedEdge op' sequence flags payload).trans hsame.extendedEdge
  reset := fun op' _ hoffers => by
    simp [Emission.offers, fullEmission] at hoffers

/-- What an event does to the edge: it stays, and all that is sent offers it; or it
moves right, and one segment says so. -/
inductive Offering (op : PassiveTcpStreamOperation) (wire : Wire) :
    Option PassiveTcpStreamOperation × Wire → Prop
  | kept {current : Option PassiveTcpStreamOperation} {wire' : Wire}
      (hgrows : Wire.Grows (Offered op) wire wire')
      (hedge : ∀ op', current = some op' → op'.Bounded ∧ op'.extendedEdge = op.extendedEdge) :
      Offering op wire (current, wire')
  | moved {sender op' : PassiveTcpStreamOperation} {wire' : Wire}
      (hsent : wire'.sent = wire.sent ++ [sender.emission sender.localSequence 0x10 []])
      (hbounded : sender.Bounded) (hahead : Ahead 130 op.extendedEdge sender.extendedEdge)
      (hsame : SameReceive sender op') : Offering op wire (some op', wire')

/-- The edge stays with the receiving half. -/
theorem Offering.same {wire wire' : Wire} {current : Option PassiveTcpStreamOperation}
    (hop : op.Bounded) (hgrows : Wire.Grows (Offered op) wire wire')
    (hsame : ∀ op', current = some op' → SameReceive op op') :
    Offering op wire (current, wire') :=
  .kept hgrows fun op' h => ⟨(hsame op' h).bounded hop, (hsame op' h).extendedEdge⟩

theorem handleSegment_offering (hop : op.Bounded) (wire : Wire) (segment : PassiveSegment)
    (tick : Nat) :
    Offering op wire (some (op.handleSegment wire segment tick).1,
      (op.handleSegment wire segment tick).2) := by
  have hsends := offered_sends op
  have hrefl : Wire.Grows (Offered op) wire wire := Wire.Grows.refl wire
  have hacked := op.acceptAcknowledgment_receive segment tick
  have hhandled := op.handleSegment_handled wire segment tick
  generalize op.handleSegment wire segment tick = result at hhandled ⊢
  cases hhandled with
  | reset =>
    refine .same hop hrefl fun op' h => ?_
    cases h
    exact ⟨rfl, rfl, rfl, rfl, rfl, rfl⟩
  | challenged =>
    refine .same hop (hsends.sendStreamAck wire) fun op' h => ?_
    cases h
    exact ⟨rfl, rfl, rfl, rfl, rfl, rfl⟩
  | ignored =>
    refine .same hop hrefl fun op' h => ?_
    cases h
    exact .refl op
  | refused =>
    refine .same hop ((hsends.of_same hacked).sendStreamAck wire) fun op' h => ?_
    cases h
    exact hacked
  | oversized =>
    refine .same hop ((hsends.of_same hacked).sendReset wire) fun op' h => ?_
    cases h
    exact hacked.trans ⟨rfl, rfl, rfl, rfl, rfl, rfl⟩
  | bare =>
    refine .same hop hrefl fun op' h => ?_
    cases h
    exact hacked
  | accepted _ _ _ _ hlen =>
    obtain ⟨hbounded, hahead⟩ :=
      accept_edge (hacked.bounded hop) hlen tick
    rw [hacked.extendedEdge] at hahead
    -- the acknowledgment is built before a refusal of the device is noted
    exact .moved rfl hbounded hahead ⟨rfl, rfl, rfl, rfl, rfl, rfl⟩

/-- **The edge never moves left in an event.** -/
theorem StreamEvent.step_offering (hop : op.Bounded) (wire : Wire) (event : StreamEvent) : Offering op wire (event.step op wire) := by
  have hsends := offered_sends op
  have hrefl : Wire.Grows (Offered op) wire wire := Wire.Grows.refl wire
  cases event with
  | arrival segment tick => exact handleSegment_offering hop wire segment tick
  | poll tick =>
    refine .same hop (hsends.poll wire tick) fun op' h => ?_
    rcases op.poll_cases wire tick with ⟨wire', progress, hpoll, -⟩ | ⟨-, -, -, kept, wire', -,
      hpoll, hsame⟩
    · rw [hpoll] at h
      cases h
    · rw [hpoll] at h
      cases h
      exact hsame
  | startSend bytes tick =>
    simp only [StreamEvent.step]
    split
    · exact .same hop hrefl fun op' h => by cases h; exact .refl op
    rename_i changed wire' _ hsend
    refine .same hop (hsends.startSend hsend) fun op' h => ?_
    cases h
    exact op.startSend_receive hsend
  | consumeReceive =>
    simp only [StreamEvent.step, PassiveTcpStreamOperation.consumeReceive]
    by_cases hempty : op.receive = []
    · rw [if_pos hempty]
      exact .same hop hrefl fun op' h => by cases h; exact .refl op
    · rw [if_neg hempty]
      obtain ⟨hbounded, hahead⟩ := PassiveTcpStreamOperation.consumed_edge hop
      exact .moved rfl hbounded hahead (.refl _)
  | consumeSend =>
    refine .same hop hrefl fun op' h => ?_
    cases h
    unfold PassiveTcpStreamOperation.consumeSend
    split <;> exact ⟨rfl, rfl, rfl, rfl, rfl, rfl⟩
  | consumePeerClose =>
    refine .kept hrefl fun op' h => ?_
    cases h
    unfold PassiveTcpStreamOperation.consumePeerClose
    split <;> exact ⟨⟨hop.receive, hop.deferred⟩, rfl⟩
  | startClose tick =>
    cases hclose : op.startClose wire tick with
    | none =>
      simp only [StreamEvent.step, hclose]
      exact .same hop hrefl fun op' h => by cases h; exact .refl op
    | some result =>
      have hsame := op.startClose_receive hclose
      simp only [StreamEvent.step, hclose]
      refine .same hop ?_ fun op' h => by cases h; exact hsame
      simp only [PassiveTcpStreamOperation.startClose, Option.ite_none_left_eq_some,
        Option.some.injEq] at hclose
      rw [← hclose.2]
      exact Wire.sendTcpWithWindow_grows (P := Offered op) closing_extendedEdge
  | finish => exact .same hop hrefl fun op' h => by cases h
  | cancel => exact .same hop (hsends.sendReset wire) fun op' h => by cases h

/-! ## §4. The life of a stream. -/

/-- The extended edges of the segments that offer a window, in order. -/
def offeredEdges (log : List Emission) : List (BitVec 32) :=
  (log.filter Emission.offers).map Emission.extendedEdge

theorem NotLeft.refl (a : BitVec 32) : NotLeft a a := by
  rw [NotLeft, BitVec.sub_self]
  decide

/-- Edges that only move right, up to the given one. -/
structure EndsAt (edges : List (BitVec 32)) (edge : BitVec 32) : Prop where
  chain : edges.IsChain NotLeft
  last : ∀ e ∈ edges.getLast?, e = edge

/-- They go on with one that is not to the left. -/
theorem EndsAt.append {edges more : List (BitVec 32)} {edge next : BitVec 32}
    (h : EndsAt edges edge) (hmore : ∀ e ∈ more, e = next) (hnext : NotLeft edge next)
    (hnil : more = [] → next = edge) : EndsAt (edges ++ more) next := by
  refine ⟨isChain_append.mpr ⟨h.chain, ?_, ?_⟩, ?_⟩
  · rw [eq_replicate_of_mem hmore]
    exact isChain_replicate_of_rel _ (.refl next)
  · intro x hx y hy
    rw [h.last x hx, hmore y (mem_of_mem_head? hy)]
    exact hnext
  · intro e he
    by_cases hempty : more = []
    · rw [hempty, append_nil] at he
      rw [hnil hempty]
      exact h.last e he
    · rw [getLast?_append_of_ne_nil _ hempty] at he
      exact hmore e (mem_of_mem_getLast? he)

/-- **The edges of a stream on its own.**  They only move right, and the last one
is that of the record. -/
theorem StreamRun.offered_chain {op₀ : PassiveTcpStreamOperation} (hop₀ : op₀.Bounded)
    {trace : List Happening} {current : Option PassiveTcpStreamOperation}
    (run : StreamRun op₀ trace current) :
    ∃ edge, EndsAt (offeredEdges (trace.flatMap emitted)) edge
      ∧ ∀ op, current = some op → op.Bounded ∧ op.extendedEdge = edge := by
  induction run with
  | start =>
    refine ⟨op₀.extendedEdge, ⟨isChain_nil, fun e he => by cases he⟩, ?_⟩
    intro op hop
    cases hop
    exact ⟨hop₀, rfl⟩
  | @event trace op run event wire ih =>
    obtain ⟨edge, hends, hcurrent⟩ := ih
    obtain ⟨hbounded, rfl⟩ := hcurrent op rfl
    have hoffering := event.step_offering hbounded wire
    have hedges : offeredEdges
          ((trace ++ [(⟨op, event, wire⟩ : Happening)]).flatMap emitted)
        = offeredEdges (trace.flatMap emitted)
          ++ offeredEdges ((event.step op wire).2.sent.drop wire.sent.length) := by
      simp [offeredEdges, emitted]
    rw [hedges]
    generalize event.step op wire = result at hoffering
    cases hoffering with
    | kept hgrows hedge =>
      refine ⟨op.extendedEdge, hends.append ?_ (.refl _) (fun _ => rfl), hedge⟩
      intro e he
      obtain ⟨em, hem, rfl⟩ := mem_map.mp he
      obtain ⟨hem, hoffers⟩ := mem_filter.mp hem
      exact hgrows.mem_drop em hem hoffers
    | @moved sender op' wire' hsent hbounded' hahead hsame =>
      have hone : offeredEdges (wire'.sent.drop wire.sent.length) = [sender.extendedEdge] := by
        have hoffers : (sender.emission sender.localSequence 0x10 []).offers = true := by
          have hwindow : (receiveWindow sender).toNat
              ≤ passiveTcpReceiveCapacity - sender.buffered :=
            Nat.le_of_eq (receiveWindow_toNat sender)
          simp only [Emission.offers, Bool.and_eq_true, decide_eq_true_eq]
          exact ⟨show ((0x10 : BitVec 8) &&& 0x04 == 0) = true by decide, hwindow⟩
        rw [hsent, drop_left, offeredEdges, filter_cons_of_pos hoffers]
        exact congrArg (fun e => [e]) (emission_extendedEdge sender _ _ _)
      rw [hone]
      refine ⟨sender.extendedEdge, hends.append ?_ (hahead.notLeft (by decide)) ?_, ?_⟩
      · exact fun e he => mem_singleton.mp he
      · intro hnil
        cases hnil
      · intro kept hkept
        cases hkept
        exact ⟨hsame.bounded hbounded', hsame.extendedEdge⟩

/-- The peer of `sampleSyn`. -/
def samplePeer : TcpServerPeer := (NetworkStack.handshakeOperation sampleSyn 0).establishedPeer

/-- The stack after the handshake of this peer. -/
def sampleEstablished : NetworkStack :=
  (NetworkStack.new true fun _ => true).run [.startTcpPassive sampleSyn 0,
    .pollTcpPassive (some (sampleSegment 101 0x10 [] (by decide))) 1]

/-- The stack with its stream attached. -/
def sampleAttached : NetworkStack :=
  (sampleEstablished.startTcpPassiveStream samplePeer ⟨[], false, 1024⟩ 2).1

/-- What calls send for the stream. -/
def sampleLog (calls : List NetCall) : List Emission :=
  ofPeer samplePeer
    ((sampleAttached.run calls).wire.sent.drop sampleAttached.wire.sent.length)

end GenOS.Network
