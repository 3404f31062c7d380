/-
  GenOS.Network.SendCompletion — completions behind unread bytes.

  `poll_tcp_passive_stream` serves the stream slots in rotation and returns one
  report.  A slot that reports is passed over until all others had their turn, so a
  completion is reported within four polls, unless the stream holds unread bytes:
  for these it reports the bytes again and again, and never the completion.
-/
import GenOS.Network.OfferedEdge
import GenOS.Network.SendSteps

namespace GenOS.Network

open GenOS.Lib GenOS.Socket List

/-! ## §1. Streams of a reachable stack. -/

variable {s : NetworkStack} {progress : PassiveTcpStreamProgress}

namespace NetworkStack

variable (hs : s.Reachable)

include hs

/-- **What holds of a new stream and is kept by events holds of every stream.** -/
theorem Reachable.streams {I : PassiveTcpStreamOperation → Prop}
    (hstart : ∀ peer early tick, early.bytes.length ≤ passiveTcpStreamBufferCapacity →
      I (streamOperation peer early tick))
    (hstep : ∀ op event wire op', I op → (StreamEvent.step op wire event).1 = some op' → I op') :
    ∀ index op, s.passiveStreams index = some op → I op := by
  refine Reachable.induct (I := fun s => ∀ index op, s.passiveStreams index = some op → I op)
    ?_ ?_ ?_ hs
  · intro available accepts index op hop
    cases hop
  · intro s s' h hmicro index op hop
    cases hmicro with
    | stream slot before event hbefore =>
      by_cases hslot : index = slot
      · subst hslot
        rw [putStream_self] at hop
        exact hstep before event s.wire op (h index before hbefore) hop
      · rw [s.putStream_of_ne hslot] at hop
        exact h index op hop
    | elsewhere hstreams hwire =>
      rw [hstreams] at hop
      exact h index op hop
  · intro s peer early tick slot h hattaches index op hop
    by_cases hslot : index = slot
    · subst hslot
      rw [putStream_self] at hop
      cases hop
      exact hstart peer early tick hattaches.fits
    · rw [s.putStream_of_ne hslot] at hop
      exact h index op hop

/-- No two streams have the same peer. -/
theorem Reachable.peers :
    ∀ index op slot other, s.passiveStreams index = some op → s.passiveStreams slot = some other →
      slot ≠ index → other.peer ≠ op.peer := by
  refine Reachable.induct (I := fun s => ∀ index op slot other, s.passiveStreams index = some op →
    s.passiveStreams slot = some other → slot ≠ index → other.peer ≠ op.peer) ?_ ?_ ?_ hs
  · intro available accepts index op slot other hop
    cases hop
  · intro s s' h hmicro index op slot other hop hother hne
    cases hmicro with
    | stream at_ before event hbefore =>
      -- the record after the event has the peer of the one before
      have hkept : ∀ i x, (s.putStream at_ (event.step before s.wire).1
          (event.step before s.wire).2).passiveStreams i = some x →
          ∃ y, s.passiveStreams i = some y ∧ x.peer = y.peer := by
        intro i x hx
        by_cases hi : i = at_
        · subst hi
          rw [putStream_self] at hx
          exact ⟨before, hbefore, StreamEvent.step_peer hx⟩
        · rw [s.putStream_of_ne hi] at hx
          exact ⟨x, hx, rfl⟩
      obtain ⟨y, hy, hpeer⟩ := hkept index op hop
      obtain ⟨z, hz, hpeer'⟩ := hkept slot other hother
      rw [hpeer, hpeer']
      exact h index y slot z hy hz hne
    | elsewhere hstreams hwire =>
      rw [hstreams] at hop hother
      exact h index op slot other hop hother hne
  · intro s peer early tick at_ h hattaches index op slot other hop hother hne
    have hfresh : ∀ i x, s.passiveStreams i = some x → x.peer ≠ peer := by
      intro i x hx hpeer
      refine hattaches.fresh i x hx ?_
      show peerTuple x.peer = peerTuple peer
      rw [hpeer]
    by_cases hindex : index = at_
    · subst hindex
      rw [putStream_self] at hop
      rw [s.putStream_of_ne hne] at hother
      cases hop
      exact hfresh slot other hother
    · rw [s.putStream_of_ne hindex] at hop
      by_cases hslot : slot = at_
      · subst hslot
        rw [putStream_self] at hother
        cases hother
        exact fun heq => hfresh index op hop heq.symm
      · rw [s.putStream_of_ne hslot] at hother
        exact h index op slot other hop hother hne

theorem Reachable.sendable : ∀ index op, s.passiveStreams index = some op → op.Sendable := by
  refine hs.streams ?_ ?_
  · intro peer early tick _
    refine ⟨Nat.le_refl 0, Nat.zero_le _, ?_, ?_, ?_⟩
    · exact fun h => absurd rfl h
    · exact fun h => nomatch h
    · exact fun h => nomatch h
  · exact fun op event wire op' hop hstep => hop.step hstep

theorem Reachable.apply (call : NetCall) : (call.apply s).Reachable := by
  obtain ⟨available, accepts, calls, rfl⟩ := hs
  exact ⟨available, accepts, calls ++ [call], by rw [run, run, foldl_append]; rfl⟩

end NetworkStack

/-! ## §2. Reports. -/

/-- The stream a report is about. -/
def PassiveTcpStreamProgress.about : PassiveTcpStreamProgress → Option TcpServerPeer
  | .idle => none
  | .pending => none
  | .received peer _ => some peer
  | .sendComplete peer => some peer
  | .peerClosed peer => some peer
  | .closed peer => some peer
  | .reset peer => some peer
  | .failed peer => some peer

namespace PassiveTcpStreamOperation

variable {op : PassiveTcpStreamOperation}

theorem report_about (h : op.report = some progress) :
    progress.about = some op.peer := by
  unfold report at h
  split at h
  · cases h
    rfl
  split at h
  · cases h
    rfl
  split at h
  · cases h
    rfl
  split at h
  · cases h
    rfl
  · cases h

/-- A slot reports on its own stream. -/
theorem poll_about {wire : Wire} {tick : Nat} (h : (op.poll wire tick).2.2 = some progress) : progress.about = some op.peer := by
  rcases op.poll_cases wire tick with ⟨wire', other, hpoll, hother⟩ | ⟨-, -, -, kept, wire', -,
    hpoll, hsame⟩
  · rw [hpoll] at h
    cases h
    rcases hother with rfl | rfl
    · rfl
    · rfl
  · rw [hpoll] at h
    rw [report_about h, hsame.peer]

/-- The report of a stream with a completion: its unread bytes, or the
completion. -/
def completion (op : PassiveTcpStreamOperation) : PassiveTcpStreamProgress :=
  if op.receive ≠ [] then .received op.peer op.receive else .sendComplete op.peer

/-- A poll of a stream whose send is complete changes nothing. -/
theorem poll_completed (hop : op.Sendable) (hcompleted : op.sendCompleted = true)
    (hreset : op.reset = false) (hfailed : op.failed = false) {tick : Nat}
    (hexpired : op.expired tick = false) (wire : Wire) :
    op.poll wire tick = (some op, wire, some op.completion) := by
  have hsend := hop.done hcompleted
  have hflight : op.sendFlight = 0 := by
    have hle := hop.flight
    rw [hsend] at hle
    exact Nat.le_zero.mp hle
  have hfin : op.finOutstanding = false := by
    rw [finOutstanding, hop.open_of_completed hcompleted]
    rfl
  have hearly : ¬ op.deadline ≤ tick := by
    intro hdue
    simp [expired, hdue, hflight, hfin] at hexpired
  have hresume : op.resume wire tick = (op, wire) := by
    unfold resume
    exact if_neg fun h => h.1 hsend
  have hretry : op.retransmit wire tick = (some op, wire) := by
    unfold retransmit
    exact if_neg hearly
  have hreport : op.report = some op.completion := by
    unfold report completion
    by_cases hunread : op.receive ≠ []
    · rw [if_pos hunread, if_pos hunread]
    · rw [if_neg hunread, if_neg hunread, if_pos hcompleted]
  unfold poll
  rw [if_neg (by simp [hreset]), if_neg (by simp [hfailed]), if_neg (by simp [hexpired]), hresume]
  dsimp only
  rw [hretry]
  dsimp only
  rw [hreport]

end PassiveTcpStreamOperation

open PassiveTcpStreamOperation

/-! ## §3. The rotation. -/

namespace NetworkStack

variable {op : PassiveTcpStreamOperation} {index : Fin passiveTcpStreamSlots} {tick : Nat}

theorem slot_add_cancel : ∀ a b c : Fin passiveTcpStreamSlots, a + b = a + c → b = c := by
  decide

/-- How far the cursor is from a slot after it was moved behind a slot before
that. -/
theorem rotated_lt : ∀ cursor place before : Fin passiveTcpStreamSlots, before < place →
    (cursor + place - (cursor + before + ⟨1, by decide⟩)).val < place.val := by
  decide

theorem add_sub_slot : ∀ cursor index : Fin passiveTcpStreamSlots,
    cursor + (index - cursor) = index := by
  decide

/-- The other streams have other peers. -/
def Others (index : Fin passiveTcpStreamSlots) (op : PassiveTcpStreamOperation)
    (s : NetworkStack) : Prop :=
  ∀ slot other, s.passiveStreams slot = some other → slot ≠ index → other.peer ≠ op.peer

/-- **One pass over the slots.**  A slot that would report keeps its record, and
either it is the one that reports, or a slot before it is and the cursor now stands
behind that one. -/
theorem pollStreams_rotates (hreport : ∀ wire, op.poll wire tick = (some op, wire, some progress))
    (offsets : List (Fin passiveTcpStreamSlots)) (hsorted : offsets.Pairwise (· < ·)) :
    ∀ (s : NetworkStack) (anyActive : Bool) (place : Fin passiveTcpStreamSlots),
      place ∈ offsets → s.passiveStreamCursor + place = index →
      s.passiveStreams index = some op → Others index op s →
      (s.pollStreams tick anyActive offsets).1.passiveStreams index = some op
      ∧ ((s.pollStreams tick anyActive offsets).2 = progress
        ∨ ((s.pollStreams tick anyActive offsets).2.about ≠ some op.peer
          ∧ ∃ before < place, (s.pollStreams tick anyActive offsets).1.passiveStreamCursor
            = s.passiveStreamCursor + before + ⟨1, by decide⟩)) := by
  induction offsets with
  | nil =>
    intro s anyActive place hplace
    cases hplace
  | cons offset rest ih =>
    intro s anyActive place hplace hindex hop hothers
    obtain ⟨hfirst, hrest⟩ := pairwise_cons.mp hsorted
    unfold pollStreams
    dsimp only
    by_cases hturn : offset = place
    · -- the turn of the slot itself
      subst hturn
      rw [hindex, hop]
      dsimp only
      rw [hreport]
      refine ⟨?_, .inl rfl⟩
      exact s.putStream_self index (some op) s.wire
    have hlater : place ∈ rest := by
      rcases mem_cons.mp hplace with h | h
      · exact absurd h.symm hturn
      · exact h
    have hother : s.passiveStreamCursor + offset ≠ index := by
      intro heq
      rw [← hindex] at heq
      exact hturn (slot_add_cancel _ _ _ heq)
    split
    · exact ih hrest s anyActive place hlater hindex hop hothers
    rename_i other hslot
    have hpeer := hothers _ other hslot hother
    split
    · rename_i kept wire report hpoll
      refine ⟨?_, .inr ⟨?_, offset, hfirst place hlater, rfl⟩⟩
      · show (s.putStream _ kept wire).passiveStreams index = some op
        rw [s.putStream_of_ne (Ne.symm hother)]
        exact hop
      · rw [poll_about (congrArg (fun r => r.2.2) hpoll)]
        exact fun heq => hpeer (Option.some.inj heq)
    · rename_i kept wire hpoll
      refine ih hrest (s.putStream (s.passiveStreamCursor + offset) kept wire) true place hlater
        hindex ?_ ?_
      · rw [s.putStream_of_ne (Ne.symm hother)]
        exact hop
      · intro slot x hx hne
        by_cases hsame : slot = s.passiveStreamCursor + offset
        · subst hsame
          rw [putStream_self] at hx
          have hstep : (StreamEvent.step other s.wire (.poll tick)).1 = some x := by
            show (other.poll s.wire tick).1 = some x
            rw [hpoll]
            exact hx
          rw [StreamEvent.step_peer hstep]
          exact hpeer
        · rw [s.putStream_of_ne hsame] at hx
          exact hothers slot x hx hne

/-- What the coordinator consumes when it is reported. -/
def settle (s : NetworkStack) : PassiveTcpStreamProgress → NetworkStack
  | .sendComplete peer => (s.consumeTcpPassiveStreamSend peer).1
  | .peerClosed peer => (s.consumeTcpPassivePeerClose peer).1
  | .closed peer => (s.finishTcpPassiveStream peer).1
  | _ => s

/-- The reports of consecutive polls without a new segment; completions and closes
are consumed, received bytes are not. -/
def reports (s : NetworkStack) : List Nat → List PassiveTcpStreamProgress
  | [] => []
  | tick :: ticks =>
    (s.pollTcpPassiveStream none tick).2
      :: reports ((s.pollTcpPassiveStream none tick).1.settle
        (s.pollTcpPassiveStream none tick).2) ticks

theorem Reachable.settle (hs : s.Reachable) (progress : PassiveTcpStreamProgress) : (s.settle progress).Reachable := by
  cases progress with
  | sendComplete peer => exact hs.apply (.consumeTcpPassiveStreamSend peer)
  | peerClosed peer => exact hs.apply (.consumeTcpPassivePeerClose peer)
  | closed peer => exact hs.apply (.finishTcpPassiveStream peer)
  | _ => exact hs

theorem withStream_frame (s : NetworkStack) {peer : TcpServerPeer}
    {step : PassiveTcpStreamOperation → Option (PassiveTcpStreamOperation × Wire × Bool)}
    (hop : s.passiveStreams index = some op) (hpeer : peer ≠ op.peer) :
    (s.withStream peer step).1.passiveStreams index = some op
    ∧ (s.withStream peer step).1.passiveStreamCursor = s.passiveStreamCursor := by
  unfold withStream
  split
  · exact ⟨hop, rfl⟩
  rename_i slot hslot
  split
  · exact ⟨hop, rfl⟩
  split
  · exact ⟨hop, rfl⟩
  refine ⟨?_, rfl⟩
  rw [s.putStream_of_ne]
  · exact hop
  intro heq
  obtain ⟨found, hfound, hmatch⟩ := Slots.position_some hslot
  rw [← heq, hop] at hfound
  cases hfound
  exact hpeer (of_decide_eq_true hmatch).symm

/-- What is consumed for other streams leaves a stream alone. -/
theorem settle_frame (s : NetworkStack) (hop : s.passiveStreams index = some op)
    (hpeer : progress.about ≠ some op.peer) :
    (s.settle progress).passiveStreams index = some op
    ∧ (s.settle progress).passiveStreamCursor = s.passiveStreamCursor := by
  cases progress with
  | sendComplete peer => exact s.withStream_frame hop fun h => hpeer (congrArg some h)
  | peerClosed peer => exact s.withStream_frame hop fun h => hpeer (congrArg some h)
  | closed peer =>
    show (s.finishTcpPassiveStream peer).1.passiveStreams index = some op
      ∧ (s.finishTcpPassiveStream peer).1.passiveStreamCursor = s.passiveStreamCursor
    unfold finishTcpPassiveStream
    split
    · exact ⟨hop, rfl⟩
    rename_i slot hslot
    refine ⟨?_, rfl⟩
    rw [s.putStream_of_ne]
    · exact hop
    intro heq
    obtain ⟨found, hfound, hmatch⟩ := Slots.position_some hslot
    rw [← heq, hop] at hfound
    cases hfound
    exact hpeer (congrArg some (of_decide_eq_true hmatch).symm)
  | _ => exact ⟨hop, rfl⟩

theorem pollTcpPassiveStream_none (s : NetworkStack) (tick : Nat) :
    s.pollTcpPassiveStream none tick
      = s.pollStreams tick false (List.finRange passiveTcpStreamSlots) := rfl

/-- **One poll and what is consumed after it.** -/
theorem poll_round (hs : s.Reachable) (hop : s.passiveStreams index = some op)
    (hcompleted : op.sendCompleted = true) (hreset : op.reset = false)
    (hfailed : op.failed = false) (hexpired : op.expired tick = false) :
    (s.pollTcpPassiveStream none tick).2 = op.completion
      ∧ (s.pollTcpPassiveStream none tick).1.passiveStreams index = some op
    ∨ (s.pollTcpPassiveStream none tick).2.about ≠ some op.peer
      ∧ ((s.pollTcpPassiveStream none tick).1.settle
          (s.pollTcpPassiveStream none tick).2).passiveStreams index = some op
      ∧ (index - ((s.pollTcpPassiveStream none tick).1.settle
          (s.pollTcpPassiveStream none tick).2).passiveStreamCursor).val
        < (index - s.passiveStreamCursor).val := by
  rw [pollTcpPassiveStream_none]
  have hreport := fun wire => poll_completed
    (hs.sendable index op hop) hcompleted hreset hfailed hexpired wire
  have hplace := add_sub_slot s.passiveStreamCursor index
  have hsorted : (List.finRange passiveTcpStreamSlots).Pairwise (· < ·) := by decide
  obtain ⟨hkept, hresult⟩ := pollStreams_rotates hreport (List.finRange passiveTcpStreamSlots)
    hsorted s false (index - s.passiveStreamCursor) (mem_finRange _) hplace hop
    (fun slot other hother hne => hs.peers index op slot other hop hother hne)
  rcases hresult with hown | ⟨hother, before, hbefore, hcursor⟩
  · exact .inl ⟨hown, hkept⟩
  obtain ⟨hslot, hmoved⟩ := settle_frame _ hkept hother
  refine .inr ⟨hother, hslot, ?_⟩
  rw [hmoved, hcursor]
  have hlt := rotated_lt s.passiveStreamCursor (index - s.passiveStreamCursor) before hbefore
  rw [hplace] at hlt
  exact hlt

/-- Without unread bytes the completion comes within as many polls as the cursor
is away, and one. -/
theorem sendComplete_mem_reports (hcompleted : op.sendCompleted = true) (hreset : op.reset = false)
    (hfailed : op.failed = false) (hread : op.receive = []) :
    ∀ (ticks : List Nat) (s : NetworkStack), s.Reachable → s.passiveStreams index = some op →
      (∀ tick ∈ ticks, op.expired tick = false) →
      (index - s.passiveStreamCursor).val < ticks.length →
      .sendComplete op.peer ∈ s.reports ticks := by
  intro ticks
  induction ticks with
  | nil =>
    intro s _ _ _ hdistance
    cases hdistance
  | cons tick ticks ih =>
    intro s hs hop hexpired hdistance
    have hround := poll_round hs hop hcompleted hreset hfailed
      (hexpired tick mem_cons_self)
    rcases hround with ⟨hown, -⟩ | ⟨-, hslot, hcloser⟩
    · have hcompletion : op.completion = .sendComplete op.peer := by
        unfold completion
        exact if_neg fun h => h hread
      rw [reports, hown, hcompletion]
      exact mem_cons_self
    · refine mem_cons_of_mem _ (ih _ ?_ hslot ?_ ?_)
      · exact (hs.apply (.pollTcpPassiveStream none tick)).settle _
      · exact fun tick' h => hexpired tick' (mem_cons_of_mem _ h)
      · rw [length_cons] at hdistance
        omega

/-- With unread bytes it never comes. -/
theorem sendComplete_not_mem_reports (hcompleted : op.sendCompleted = true)
    (hreset : op.reset = false) (hfailed : op.failed = false) (hunread : op.receive ≠ []) :
    ∀ (ticks : List Nat) (s : NetworkStack), s.Reachable → s.passiveStreams index = some op →
      (∀ tick ∈ ticks, op.expired tick = false) → .sendComplete op.peer ∉ s.reports ticks := by
  intro ticks
  induction ticks with
  | nil =>
    intro s _ _ _ hmem
    cases hmem
  | cons tick ticks ih =>
    intro s hs hop hexpired hmem
    have hnext := (hs.apply (.pollTcpPassiveStream none tick)).settle
      (s.pollTcpPassiveStream none tick).2
    have hlater : ∀ tick' ∈ ticks, op.expired tick' = false :=
      fun tick' h => hexpired tick' (mem_cons_of_mem _ h)
    have hround := poll_round hs hop hcompleted hreset hfailed
      (hexpired tick mem_cons_self)
    have hcompletion : op.completion = .received op.peer op.receive := if_pos hunread
    rcases hround with ⟨hown, hslot⟩ | ⟨hother, hslot, -⟩
    · -- the bytes are reported, and nothing is consumed for them
      rw [hcompletion] at hown
      rw [reports, hown] at hmem
      rcases mem_cons.mp hmem with h | h
      · cases h
      · refine ih _ ?_ hslot hlater h
        exact hs.apply (.pollTcpPassiveStream none tick)
    · rcases mem_cons.mp hmem with h | h
      · exact hother (by rw [← h]; rfl)
      · exact ih _ hnext hslot hlater h

end NetworkStack

/-- **When a completion is reported in time.**  In every reachable stack, for every
stream whose send is complete and that is not reset, failed or expired: the
completion is among the reports of eight consecutive polls without a new segment,
exactly if the stream holds no unread bytes. -/
theorem send_completion_reported_iff {s : NetworkStack} (hs : s.Reachable)
    {index : Fin passiveTcpStreamSlots} {op : PassiveTcpStreamOperation}
    (hop : s.passiveStreams index = some op) (hcompleted : op.sendCompleted = true)
    (hreset : op.reset = false) (hfailed : op.failed = false) (ticks : List Nat)
    (hticks : ticks.length = 8) (hexpired : ∀ tick ∈ ticks, op.expired tick = false) :
    .sendComplete op.peer ∈ s.reports ticks ↔ op.receive = [] := by
  constructor
  · intro hmem
    by_contra hunread
    exact NetworkStack.sendComplete_not_mem_reports hcompleted hreset hfailed hunread ticks s hs hop
      hexpired hmem
  · intro hread
    refine NetworkStack.sendComplete_mem_reports hcompleted hreset hfailed hread ticks s hs hop
      hexpired ?_
    have hslot := (index - s.passiveStreamCursor).isLt
    have hslots : passiveTcpStreamSlots = 4 := rfl
    omega

/-- The stream of `sampleSyn` with a completion: the five bytes of a send are
acknowledged by a segment with `payload`. -/
def completing (payload : Bytes) (h : payload.length ≤ segmentCapacity) : NetworkStack :=
  sampleAttached.run [.startTcpPassiveStreamSend samplePeer [1, 2, 3, 4, 5] 3,
    .pollTcpPassiveStream (some { sampleSegment 101 0x10 payload h with
      acknowledgment := samplePeer.localSequence + 5 }) 4]

theorem completing_reachable (payload : Bytes) (h : payload.length ≤ segmentCapacity) :
    (completing payload h).Reachable :=
  ⟨true, fun _ => true, [.startTcpPassive sampleSyn 0,
    .pollTcpPassive (some (sampleSegment 101 0x10 [] (by decide))) 1,
    .startTcpPassiveStream samplePeer ⟨[], false, 1024⟩ 2,
    .startTcpPassiveStreamSend samplePeer [1, 2, 3, 4, 5] 3,
    .pollTcpPassiveStream (some { sampleSegment 101 0x10 payload h with
      acknowledgment := samplePeer.localSequence + 5 }) 4], rfl⟩

/-- A send that the peer acknowledges without sending anything itself. -/
theorem send_completion_reported_reply :
    let op := ((completing [] (by decide)).passiveStreams ⟨0, by decide⟩).get (by decide +kernel)
    op.peer = samplePeer ∧ op.receive = []
      ∧ .sendComplete op.peer
        ∈ (completing [] (by decide)).reports [5, 6, 7, 8, 9, 10, 11, 12] :=
  ⟨by decide +kernel, by decide +kernel,
    (send_completion_reported_iff (completing_reachable [] (by decide)) (Option.some_get _).symm
      (by decide +kernel) (by decide +kernel) (by decide +kernel) _ rfl
      (by decide +kernel)).mpr (by decide +kernel)⟩

/-- **A completion that is never reported.**  The segment that acknowledges the send
carries one byte; while nobody reads it, every poll reports the byte. -/
theorem send_completion_withheld :
    (completing [7] (by decide)).Reachable
      ∧ ((completing [7] (by decide)).passiveStreams ⟨0, by decide⟩).map
          (fun op => (op.peer, op.sendCompleted, op.reset, op.failed,
            [5, 6, 7, 8, 9, 10, 11, 12].map op.expired))
        = some (samplePeer, true, false, false, List.replicate 8 false)
      ∧ (completing [7] (by decide)).reports [5, 6, 7, 8, 9, 10, 11, 12]
        = List.replicate 8 (.received samplePeer [7]) :=
  ⟨completing_reachable [7] (by decide), by decide +kernel, by decide +kernel⟩

end GenOS.Network
