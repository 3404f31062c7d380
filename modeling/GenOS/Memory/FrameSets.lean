/-
  GenOS.Memory.FrameSets — the frame allocator as a pair of sets.

  What the allocator is for: a set of managed pages and the subset of live
  ones.  Each call of the bitmap allocator is one step of this model
  (`allocator_refines_sets`), and the self check holds after every call.
-/
import GenOS.Memory.AddRegion
import Mathlib.Order.Bounds.Basic

namespace GenOS.Memory

open GenOS.Lib FrameAllocator Words

/-! ## §1. The abstract model. -/

/-- Managed pages, and the live ones among them. -/
@[ext] structure FrameSets where
  managed : Set Nat
  live : Set Nat
  live_managed : live ⊆ managed

namespace FrameSets

/-- Adding a region: its whole pages become managed, or nothing changes. -/
def AddStep (S : FrameSets) (region : MemoryRegion) (ok : Bool) (S' : FrameSets) : Prop :=
  S'.live = S.live ∧ (ok = false → S' = S)
    ∧ (ok = true → S'.managed = S.managed ∪ {f | region.kind = .usable ∧ region.Whole f})

/-- Allocating: the lowest page that is not live becomes live. -/
def AllocStep (S : FrameSets) (result : Option Nat) (S' : FrameSets) : Prop :=
  (result = none ↔ S.managed ⊆ S.live) ∧ (result = none → S' = S)
    ∧ ∀ f, result = some f → IsLeast (S.managed \ S.live) f
      ∧ S'.managed = S.managed ∧ S'.live = insert f S.live

/-- Releasing: a live page stops being live if its preparation succeeds. -/
def FreeStep (S : FrameSets) (frame : Nat) (prepared ok : Bool) (S' : FrameSets) : Prop :=
  (ok = true ↔ frame ∈ S.live ∧ prepared = true) ∧ (ok = false → S' = S)
    ∧ (ok = true → S'.managed = S.managed ∧ S'.live = S.live \ {frame})

end FrameSets

variable {words : Nat} {a a' : FrameAllocator words}

/-- The sets an allocator stands for. -/
def FrameAllocator.sets (a : FrameAllocator words) : FrameSets where
  managed := {f | f ∈ pagesOf a.regions}
  live := {f | LiveAt a f}
  live_managed := fun _ ⟨_, hpage, _⟩ => List.mem_of_getElem? hpage

theorem sets_congr (hregions : a'.regions = a.regions) (hbits : a'.allocated = a.allocated) :
    a'.sets = a.sets := by
  ext f
  · show f ∈ pagesOf a'.regions ↔ f ∈ pagesOf a.regions
    rw [hregions]
  · exact liveAt_congr hregions hbits f

/-! ## §2. Every call is a step. -/

/-- The layout only changes while nothing was ever allocated. -/
theorem addRegion_frozen (a : FrameAllocator words) (region : MemoryRegion) :
    (a.addRegion region).1 = a ∨ a.started = false := by
  cases hstarted : a.started with
  | false => exact .inr rfl
  | true =>
    unfold FrameAllocator.addRegion
    rw [hstarted]
    split
    · exact .inl rfl
    · exact .inl rfl

theorem addRegion_step (h : AllocInv a) (region : MemoryRegion) :
    a.sets.AddStep region (a.addRegion region).2 (a.addRegion region).1.sets := by
  have hadded := addRegion_spec h region
  have hrefused : (a.addRegion region).2 = false → (a.addRegion region).1.sets = a.sets :=
    fun hno => by rw [hadded.refused hno]
  refine ⟨?_, hrefused, fun hok => Set.ext (hadded.accepted hok)⟩
  rcases addRegion_frozen a region with hsame | hfresh
  · rw [hsame]
  -- nothing is live before and after
  have hclear := h.fresh hfresh
  have hnone : ∀ {b : FrameAllocator words}, b.allocated = a.allocated →
      b.sets.live = (∅ : Set Nat) := by
    intro b hbits
    refine Set.eq_empty_iff_forall_notMem.mpr (fun f ⟨i, _, hbit⟩ => ?_)
    rw [hbits, hclear i] at hbit
    cases hbit
  rw [hnone hadded.bits, hnone rfl]

theorem allocFrame_step (h : AllocInv a) :
    a.sets.AllocStep a.allocFrame.2 a.allocFrame.1.sets := by
  rcases allocFrame_spec h with ⟨a', f, i, hval, h', hregions, hpage, hclear, hlow, hset⟩
    | ⟨a', hval, h', hregions, hbits, hfull⟩
  · rw [hval]
    have hmem : f ∈ pagesOf a.regions := List.mem_of_getElem? hpage
    have hdead : ¬ LiveAt a f := by
      intro ⟨j, hj, hbit⟩
      rw [h.page_unique hj hpage, hclear] at hbit
      cases hbit
    refine ⟨⟨(fun hno => nomatch hno), fun hall => absurd (hall hmem) hdead⟩,
      (fun hno => nomatch hno), fun f' hf' => ?_⟩
    cases hf'
    refine ⟨⟨⟨hmem, hdead⟩, fun g hg => ?_⟩, ?_, ?_⟩
    · -- every page before this one is live
      obtain ⟨j, hj⟩ := List.getElem?_of_mem hg.1
      by_contra hlt
      have hji : j < i := by
        by_contra hle
        obtain ⟨hi', rfl⟩ := List.getElem?_eq_some_iff.mp hpage
        obtain ⟨hj', rfl⟩ := List.getElem?_eq_some_iff.mp hj
        have hsorted := pagesOf_ascending h.ascending
        rcases Nat.lt_or_eq_of_le (Nat.le_of_not_lt hle) with hij | rfl
        · exact hlt (Nat.le_of_lt (List.pairwise_iff_getElem.mp hsorted i j hi' hj' hij))
        · exact hlt (Nat.le_refl _)
      exact hg.2 ⟨j, hj, hlow j hji⟩
    · show {g | g ∈ pagesOf a'.regions} = {g | g ∈ pagesOf a.regions}
      rw [hregions]
    · exact Set.ext (fun g => liveAt_set hregions hpage hset g)
  · rw [hval]
    refine ⟨⟨fun _ f hf => ?_, fun _ => rfl⟩, fun _ => sets_congr hregions hbits,
      fun f hf => nomatch hf⟩
    obtain ⟨i, hi⟩ := List.getElem?_of_mem hf
    refine ⟨i, hi, hfull i ?_⟩
    rw [h.count]
    exact (List.getElem?_eq_some_iff.mp hi).1

theorem freeFrameWith_step {σ : Type} (h : AllocInv a) (f : Nat) (prepare : Nat → σ → σ × Bool)
    (s : σ) :
    a.sets.FreeStep f (prepare f s).2 (a.freeFrameWith f prepare s).2.2
      (a.freeFrameWith f prepare s).1.sets := by
  rcases freeFrameWith_spec h f prepare s with ⟨hdead, a', hval, -, hregions, hbits⟩
    | ⟨hlive, hprep, a', hval, -, hregions, hbits⟩ | ⟨i, hpage, hbit, hprep, hval⟩
  · rw [hval]
    exact ⟨⟨fun hno => Bool.noConfusion hno, fun hf => absurd hf.1 hdead⟩,
      fun _ => sets_congr hregions hbits, fun hno => Bool.noConfusion hno⟩
  · rw [hval, hprep]
    exact ⟨⟨fun hno => Bool.noConfusion hno, fun hf => Bool.noConfusion hf.2⟩,
      fun _ => sets_congr hregions hbits, fun hno => Bool.noConfusion hno⟩
  · rw [hval, hprep]
    refine ⟨⟨fun _ => ⟨⟨i, hpage, hbit⟩, rfl⟩, fun _ => rfl⟩, fun hno => Bool.noConfusion hno,
      fun _ => ⟨rfl, Set.ext (fun g => ?_)⟩⟩
    have hregions : (a.retract i).regions = a.regions := rfl
    exact (h.liveAt_clear hregions hpage (h.retract hbit).2 g).trans and_comm

/-! ## §3. The self check. -/

/-- The bounds of the counters. -/
structure Counters (a : FrameAllocator words) : Prop where
  regions : a.regions.length ≤ maxUsableRegions
  high : ∀ i, a.allocated.testBit i = true → i < a.highWater
  highLe : a.highWater ≤ a.frameCount
  peak : a.allocatedFrames ≤ a.peakLive
  peakLe : a.peakLive ≤ a.frameCount

theorem Counters.new : Counters (.new : FrameAllocator words) :=
  ⟨Nat.zero_le _, fun i hi => absurd hi (by rw [AllocInv.new.fresh rfl i]; exact Bool.false_ne_true),
    Nat.le_refl _, Nat.le_refl _, Nat.le_refl _⟩

theorem Counters.addRegion (h : Counters a) (region : MemoryRegion) :
    Counters (a.addRegion region).1 := by
  unfold FrameAllocator.addRegion
  split
  · exact h
  split
  · exact h
  simp only
  split
  · exact h
  split
  · exact h
  split
  · exact h
  rename_i hroom
  simp only [not_or] at hroom
  have hlength := h.regions
  refine ⟨?_, h.high, Nat.le_trans h.highLe (Nat.le_add_right _ _), h.peak,
    Nat.le_trans h.peakLe (Nat.le_add_right _ _)⟩
  show (renumber 0 _).length ≤ maxUsableRegions
  rw [renumber_length, insertRegion_perm.length_eq, List.length_cons]
  omega

/-- What an allocation does to the fields. -/
theorem allocFrame_fields (h : AllocInv a) :
    (∃ f word bit, bit < 64 ∧ a.allocFrame
        = (({ a with nextWord := word } : FrameAllocator words).grant word bit, some f))
      ∨ ∃ word failures, a.allocFrame
        = ({ a with nextWord := word, allocationFailures := failures }, none) := by
  obtain ⟨-, hle, -, hfound⟩ := scanWords_spec a (a.usedWords - a.nextWord) a.nextWord h.full
  have hnext := h.next
  unfold FrameAllocator.allocFrame
  simp only
  split
  · rename_i hlt
    have hlt' : a.scanWords (a.usedWords - a.nextWord) a.nextWord < a.usedWords := hlt
    have hbit := (ctz_freeBits a.allocated (Nat.min_le_right _ _) (hfound (by omega))).1
    cases hregion : regionOf _ _ with
    | none =>
      -- the page number lies in some region, but this is not needed here
      exact .inr ⟨_, a.allocationFailures, rfl⟩
    | some r =>
      exact .inl ⟨_, _, _, Nat.lt_of_lt_of_le hbit (Nat.min_le_right _ _), rfl⟩
  · exact .inr ⟨_, _, rfl⟩

theorem Counters.allocFrame (hc : Counters a) (h : AllocInv a) : Counters a.allocFrame.1 := by
  have h' := h.allocFrame
  rcases allocFrame_fields h with ⟨f, word, bit, hbit, hval⟩ | ⟨word, failures, hval⟩
  · rw [hval] at h' ⊢
    have hset := testBit_setBit a.allocated word hbit
    have hnew : word * 64 + bit < a.frameCount := by
      refine h'.bits (word * 64 + bit) ?_
      show (a.allocated.setBit word bit).testBit _ = true
      rw [hset]
      simp
    refine ⟨hc.regions, fun i hi => ?_, ?_, Nat.le_max_right _ _, ?_⟩
    · have hi' : (a.allocated.setBit word bit).testBit i = true := hi
      rw [hset i, Bool.or_eq_true, decide_eq_true_eq] at hi'
      show i < max a.highWater (word * 64 + bit + 1)
      rcases hi' with hi' | rfl
      · have := hc.high i hi'
        omega
      · omega
    · show max a.highWater (word * 64 + bit + 1) ≤ a.frameCount
      have := hc.highLe
      omega
    · show max a.peakLive (a.allocatedFrames + 1) ≤ a.frameCount
      have hlive : a.allocatedFrames + 1 = liveBelow (a.allocated.setBit word bit) a.frameCount :=
        h'.live
      have := liveBelow_le (a.allocated.setBit word bit) a.frameCount
      have := hc.peakLe
      omega
  · rw [hval]
    exact ⟨hc.regions, hc.high, hc.highLe, hc.peak, hc.peakLe⟩

theorem Counters.freeFrameWith {σ : Type} (hc : Counters a) (h : AllocInv a) (f : Nat)
    (prepare : Nat → σ → σ × Bool) (s : σ) : Counters (a.freeFrameWith f prepare s).1 := by
  unfold FrameAllocator.freeFrameWith
  split
  · exact ⟨hc.regions, hc.high, hc.highLe, hc.peak, hc.peakLe⟩
  rename_i i hlive
  split
  · exact ⟨hc.regions, hc.high, hc.highLe, hc.peak, hc.peakLe⟩
  have hclear := (h.retract ((liveIndex_eq_some_iff h).mp hlive).2).2
  refine ⟨hc.regions, fun j hj => ?_, hc.highLe, ?_, hc.peakLe⟩
  · rw [hclear j, Bool.and_eq_true] at hj
    exact hc.high j hj.1
  · exact Nat.le_trans (Nat.sub_le _ _) hc.peak

/-- Clear bits do not count. -/
theorem liveBelow_extend {w : Words} {k n : Nat} (hkn : k ≤ n)
    (h : ∀ i, k ≤ i → i < n → w.testBit i = false) : liveBelow w n = liveBelow w k := by
  obtain ⟨d, rfl⟩ := Nat.exists_eq_add_of_le hkn
  unfold liveBelow
  rw [List.range_add, List.filter_append]
  have hnone : ((List.range d).map (fun x => k + x)).filter w.testBit = [] := by
    rw [List.filter_eq_nil_iff]
    intro i hi
    obtain ⟨j, hj, rfl⟩ := List.mem_map.mp hi
    rw [h (k + j) (by omega) (by have := List.mem_range.mp hj; omega)]
    exact Bool.false_ne_true
  rw [hnone, List.append_nil]

theorem checkRegions_ascending {regions : List FrameRegion} :
    ∀ {first stop : Nat}, Ascending regions → Numbered first regions →
      (∀ r ∈ regions, stop ≤ r.start) →
      checkRegions first stop regions = some (first + (pagesOf regions).length) := by
  induction regions with
  | nil => exact fun _ _ _ => rfl
  | cons r rest ih =>
    intro first stop h hnum hstop
    have hok := h.ok r List.mem_cons_self
    have hgood : ¬ (r.start < stop ∨ r.stop ≤ r.start ∨ r.first ≠ first ∨ r.start % pageSize ≠ 0
        ∨ r.stop % pageSize ≠ 0) := by
      have h1 := hstop r List.mem_cons_self
      have h2 := hok.nonempty
      have h3 := hnum.1
      have h4 := hok.startAligned
      have h5 := hok.stopAligned
      omega
    rw [checkRegions, if_neg hgood,
      ih h.tail hnum.2 (fun x hx => (List.pairwise_cons.mp h.sorted).1 x hx), pagesOf_cons,
      List.length_append, regionPages_length, Nat.add_assoc]

/-- **The self check holds** whenever the invariants do. -/
theorem isConsistent_of_inv (h : AllocInv a) (hc : Counters a) : a.isConsistent = true := by
  have hused : a.usedWords = (a.frameCount + 63) / 64 := rfl
  have hbeyond : ∀ i, a.frameCount ≤ i → a.allocated.testBit i = false := by
    intro i hi
    by_contra hbit
    exact absurd (h.bits i (Bool.eq_true_of_not_eq_false hbit)) (by omega)
  have hlow : a.allocatedFrames ≤ a.highWater := by
    have hhigh : ∀ i, a.highWater ≤ i → i < a.frameCount → a.allocated.testBit i = false := by
      intro i hi _
      by_contra hbit
      exact absurd (hc.high i (Bool.eq_true_of_not_eq_false hbit)) (by omega)
    rw [h.live, liveBelow_extend hc.highLe hhigh]
    exact liveBelow_le _ _
  have hstarted : ¬ (a.allocatedFrames ≠ 0 ∧ a.started = false) := by
    intro ⟨hne, hfresh⟩
    refine hne ?_
    rw [h.live, liveBelow_extend (Nat.zero_le _) (fun i _ _ => h.fresh hfresh i)]
    rfl
  have hbounds : ¬ (maxUsableRegions < a.regions.length ∨ words * 64 < a.frameCount
      ∨ a.frameCount < a.highWater ∨ a.highWater < a.allocatedFrames
      ∨ a.peakLive < a.allocatedFrames ∨ a.frameCount < a.peakLive
      ∨ (a.allocatedFrames ≠ 0 ∧ a.started = false)) := by
    have h1 := hc.regions
    have h2 := h.capacity
    have h3 := hc.highLe
    have h4 := hc.peak
    have h5 := hc.peakLe
    intro hbad
    rcases hbad with hbad | hbad | hbad | hbad | hbad | hbad | hbad
    all_goals first | omega | exact hstarted hbad
  -- no bit is set behind the last page
  have hwords : ¬ (a.usedWords < a.nextWord ∨ ((List.range words).drop a.usedWords).any
      (fun word => a.allocated word != 0#64) = true) := by
    intro hbad
    rcases hbad with hbad | hbad
    · exact absurd h.next (Nat.not_le_of_lt hbad)
    obtain ⟨word, hword, hne⟩ := List.any_eq_true.mp hbad
    obtain ⟨i, hi⟩ := List.getElem?_of_mem hword
    rw [List.getElem?_drop] at hi
    obtain ⟨hlt, hval⟩ := List.getElem?_eq_some_iff.mp hi
    rw [List.getElem_range] at hval
    have hzero : a.allocated word = 0#64 :=
      eq_zero_of_testBit a.allocated (fun j hj _ => hbeyond j (by omega))
    rw [hzero] at hne
    exact absurd hne (by decide)
  have htail : ¬ (a.frameCount % 64 ≠ 0
      ∧ a.allocated (a.usedWords - 1) >>> (a.frameCount % 64) ≠ 0#64) := by
    intro ⟨hmod, hne⟩
    refine hne (BitVec.eq_of_getLsbD_eq (fun j hj => ?_))
    rw [BitVec.getLsbD_ushiftRight, BitVec.getLsbD_zero]
    by_cases hin : a.frameCount % 64 + j < 64
    · have hbit := hbeyond ((a.usedWords - 1) * 64 + (a.frameCount % 64 + j)) (by omega)
      unfold testBit at hbit
      rw [show ((a.usedWords - 1) * 64 + (a.frameCount % 64 + j)) / 64 = a.usedWords - 1 by omega,
        show ((a.usedWords - 1) * 64 + (a.frameCount % 64 + j)) % 64 = a.frameCount % 64 + j by
          omega] at hbit
      exact hbit
    · exact BitVec.getLsbD_of_ge _ _ (by omega)
  have hregions : checkRegions 0 pageSize a.regions = some a.frameCount := by
    rw [checkRegions_ascending h.ascending h.numbered (fun r hr => (h.ascending.ok r hr).low),
      Nat.zero_add, h.count]
  have hsum : ((List.range a.usedWords).map (fun word => countOnes (a.allocated word))).sum
      = a.allocatedFrames := by
    rw [sum_countOnes, List.countP_eq_length_filter, h.live]
    exact liveBelow_extend (by omega) (fun i hi _ => hbeyond i hi)
  rw [isConsistent, if_neg hbounds, if_neg hwords, if_neg htail, hregions]
  simp only [hsum, beq_self_eq_true, Bool.and_self]

/-! ## §4. Runs. -/

/-- The allocators a sequence of calls can reach. -/
inductive AllocatorReach : FrameAllocator words → Prop
  | new : AllocatorReach .new
  | addRegion {a : FrameAllocator words} (region : MemoryRegion) :
      AllocatorReach a → AllocatorReach (a.addRegion region).1
  | allocFrame {a : FrameAllocator words} : AllocatorReach a → AllocatorReach a.allocFrame.1
  | freeFrameWith {a : FrameAllocator words} {σ : Type} (frame : Nat)
      (prepare : Nat → σ → σ × Bool) (s : σ) :
      AllocatorReach a → AllocatorReach (a.freeFrameWith frame prepare s).1

theorem AllocatorReach.inv (hreach : AllocatorReach a) : AllocInv a ∧ Counters a := by
  induction hreach with
  | new => exact ⟨.new, Counters.new⟩
  | addRegion region _ ih => exact ⟨(addRegion_spec ih.1 region).inv, ih.2.addRegion region⟩
  | allocFrame _ ih => exact ⟨ih.1.allocFrame, ih.2.allocFrame ih.1⟩
  | freeFrameWith frame prepare s _ ih =>
    exact ⟨ih.1.freeFrameWith frame prepare s, ih.2.freeFrameWith ih.1 frame prepare s⟩

/-- **The frame allocator refines a set.**  In every reachable allocator the
self check holds, and each call is the step of the abstract model; a page
that is not live never reaches its preparation. -/
theorem allocator_refines_sets (hreach : AllocatorReach a) :
    a.isConsistent = true
      ∧ (∀ region, a.sets.AddStep region (a.addRegion region).2 (a.addRegion region).1.sets)
      ∧ a.sets.AllocStep a.allocFrame.2 a.allocFrame.1.sets
      ∧ ∀ (σ : Type) (frame : Nat) (prepare : Nat → σ → σ × Bool) (s : σ),
        a.sets.FreeStep frame (prepare frame s).2 (a.freeFrameWith frame prepare s).2.2
          (a.freeFrameWith frame prepare s).1.sets
        ∧ (frame ∉ a.sets.live → (a.freeFrameWith frame prepare s).2.1 = s
          ∧ ∀ prepare', a.freeFrameWith frame prepare' s = a.freeFrameWith frame prepare s) := by
  obtain ⟨h, hc⟩ := hreach.inv
  refine ⟨isConsistent_of_inv h hc, addRegion_step h, allocFrame_step h,
    fun σ frame prepare s => ⟨freeFrameWith_step h frame prepare s, fun hdead => ?_⟩⟩
  have hnone : a.liveIndex frame = none := by
    cases hlive : a.liveIndex frame with
    | none => rfl
    | some i => exact absurd ⟨i, (liveIndex_eq_some_iff h).mp hlive⟩ hdead
  unfold FrameAllocator.freeFrameWith
  rw [hnone]
  exact ⟨rfl, fun _ => rfl⟩

/-- An allocator of 64 bits that manages the pages `0x1000` to `0x3000`. -/
def smallAllocator : FrameAllocator 1 :=
  (FrameAllocator.new.addRegion ⟨0x1000, 0x3000, .usable⟩).1

theorem allocator_refines_sets_small :
    smallAllocator.isConsistent = true
      ∧ smallAllocator.sets.AllocStep (some 0x1000) smallAllocator.allocFrame.1.sets := by
  have hreach : AllocatorReach smallAllocator := .addRegion _ .new
  have hfirst : smallAllocator.allocFrame.2 = some 0x1000 := by decide +kernel
  have hrefines := allocator_refines_sets hreach
  rw [hfirst] at hrefines
  exact ⟨hrefines.1, hrefines.2.2.1⟩

end GenOS.Memory
