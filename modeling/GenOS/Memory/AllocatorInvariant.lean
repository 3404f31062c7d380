/-
  GenOS.Memory.AllocatorInvariant — the allocator is a set of live pages.

  `AllocInv` holds of a new allocator and is kept by every operation.  Under
  it the allocator is described by the pages it manages and the set of live
  ones (`LiveAt`): an allocation adds the lowest page that is not live
  (`allocFrame_spec`), a release removes one (`freeFrameWith_spec`).
-/
import GenOS.Memory.Geometry
import Mathlib.Data.List.Nodup

namespace GenOS.Memory

open GenOS.Lib FrameAllocator

/-! ## §1. The invariant. -/

/-- The number of allocated pages below `n`. -/
def liveBelow (w : Words) (n : Nat) : Nat := ((List.range n).filter w.testBit).length

structure AllocInv {words : Nat} (a : FrameAllocator words) : Prop where
  ascending : Ascending a.regions
  numbered : Numbered 0 a.regions
  count : a.frameCount = (pagesOf a.regions).length
  capacity : a.frameCount ≤ words * 64
  bits : ∀ i, a.allocated.testBit i = true → i < a.frameCount
  live : a.allocatedFrames = liveBelow a.allocated a.frameCount
  -- everything before `next_word` is allocated, so the search may start there
  full : ∀ i, i < a.nextWord * 64 → i < a.frameCount → a.allocated.testBit i = true
  next : a.nextWord ≤ a.usedWords
  fresh : a.started = false → ∀ i, a.allocated.testBit i = false

/-- Page `frame` is managed and allocated. -/
def LiveAt {words : Nat} (a : FrameAllocator words) (frame : Nat) : Prop :=
  ∃ i, (pagesOf a.regions)[i]? = some frame ∧ a.allocated.testBit i = true

variable {i f n : Nat} {a' : FrameAllocator words} {w w' : Words}

section Live

variable {words : Nat} {a : FrameAllocator words}

section

variable (h : AllocInv a)

include h

theorem AllocInv.page_unique {j : Nat} (hi : (pagesOf a.regions)[i]? = some f)
    (hj : (pagesOf a.regions)[j]? = some f) : i = j := by
  obtain ⟨hi', rfl⟩ := List.getElem?_eq_some_iff.mp hi
  obtain ⟨hj', hf⟩ := List.getElem?_eq_some_iff.mp hj
  exact ((List.Nodup.getElem_inj_iff (pagesOf_nodup h.ascending)).mp hf).symm

/-- A managed page is aligned and not the null page. -/
theorem AllocInv.page_aligned (hi : (pagesOf a.regions)[i]? = some f) :
    f % pageSize = 0 ∧ f ≠ 0 ∧ f < 2 ^ 64 := by
  obtain ⟨haligned, r, hr, hlow, hhigh⟩ :=
    (mem_pagesOf h.ascending.ok).mp (List.mem_of_getElem? hi)
  have hok := h.ascending.ok r hr
  have h1 := hok.low
  have h2 := hok.high
  have h3 : 0 < pageSize := by decide
  exact ⟨haligned, by omega, by omega⟩

/-- `live_index` finds the number of a live page. -/
theorem liveIndex_eq_some_iff :
    a.liveIndex f = some i ↔ (pagesOf a.regions)[i]? = some f ∧ a.allocated.testBit i = true := by
  constructor
  · intro hlive
    unfold liveIndex at hlive
    split at hlive
    · cases hlive
    rename_i hgood
    split at hlive
    · cases hlive
    rename_i r hfind
    simp only at hlive
    split at hlive
    · rename_i hbit
      cases hlive
      -- the page is one of the found region, so it has a number
      have hr := List.mem_of_find?_eq_some hfind
      have hrange := List.find?_some hfind
      simp only [Bool.and_eq_true, decide_eq_true_eq] at hrange
      have haligned : f % pageSize = 0 := by
        by_contra hne
        exact hgood (.inr hne)
      have hmem := (mem_pagesOf h.ascending.ok).mpr ⟨haligned, r, hr, hrange⟩
      obtain ⟨i, hi⟩ := List.mem_iff_getElem?.mp hmem
      obtain ⟨r', hfind', hnumber⟩ := find_frame h.numbered h.ascending hi
      rw [hfind] at hfind'
      cases hfind'
      rw [hnumber, Nat.zero_add]
      rw [hnumber, Nat.zero_add] at hbit
      exact ⟨hi, hbit⟩
    · cases hlive
  · rintro ⟨hpage, hbit⟩
    obtain ⟨haligned, hne, -⟩ := h.page_aligned hpage
    obtain ⟨r, hfind, hnumber⟩ := find_frame h.numbered h.ascending hpage
    have hgood : ¬ (f = 0 ∨ f % pageSize ≠ 0) := by
      rintro (h0 | h0)
      · exact hne h0
      · exact h0 haligned
    rw [Nat.zero_add] at hnumber
    unfold liveIndex
    simp only [if_neg hgood, hfind, hnumber, hbit, if_true]

theorem containsLive_iff : a.containsLive f = true ↔ LiveAt a f := by
  unfold containsLive LiveAt
  rw [Option.isSome_iff_exists]
  simp only [liveIndex_eq_some_iff h]

end

/-- One more bit is one more live page. -/
theorem liveAt_set (hregions : a'.regions = a.regions) (hpage : (pagesOf a.regions)[i]? = some f)
    (hset : ∀ j, a'.allocated.testBit j = (a.allocated.testBit j || decide (j = i))) (f' : Nat) :
    LiveAt a' f' ↔ f' = f ∨ LiveAt a f' := by
  unfold LiveAt
  rw [hregions]
  constructor
  · intro ⟨j, hj, hbit⟩
    rw [hset j, Bool.or_eq_true, decide_eq_true_eq] at hbit
    rcases hbit with hbit | rfl
    · exact .inr ⟨j, hj, hbit⟩
    · exact .inl (Option.some.inj (hj.symm.trans hpage))
  · intro hf
    rcases hf with rfl | ⟨j, hj, hbit⟩
    · exact ⟨i, hpage, by rw [hset i]; simp⟩
    · exact ⟨j, hj, by rw [hset j, hbit, Bool.true_or]⟩

/-- One bit less is one live page less. -/
theorem AllocInv.liveAt_clear (h : AllocInv a) (hregions : a'.regions = a.regions)
    (hpage : (pagesOf a.regions)[i]? = some f)
    (hclear : ∀ j, a'.allocated.testBit j = (a.allocated.testBit j && !decide (j = i))) (f' : Nat) : LiveAt a' f' ↔ f' ≠ f ∧ LiveAt a f' := by
  unfold LiveAt
  rw [hregions]
  constructor
  · intro ⟨j, hj, hbit⟩
    rw [hclear j, Bool.and_eq_true, Bool.not_eq_true', decide_eq_false_iff_not] at hbit
    refine ⟨fun hf => ?_, j, hj, hbit.1⟩
    subst hf
    exact hbit.2 (h.page_unique hj hpage)
  · intro ⟨hf, j, hj, hbit⟩
    have hne : j ≠ i := by
      intro hji
      subst hji
      exact hf (Option.some.inj (hj.symm.trans hpage))
    exact ⟨j, hj, by rw [hclear j, hbit]; simp [hne]⟩

theorem liveAt_congr (hregions : a'.regions = a.regions) (hallocated : a'.allocated = a.allocated)
    (f : Nat) : LiveAt a' f ↔ LiveAt a f := by
  unfold LiveAt
  rw [hregions, hallocated]

end Live

/-! ## §2. Counting. -/

theorem liveBelow_congr (h : ∀ i < n, w.testBit i = w'.testBit i) :
    liveBelow w n = liveBelow w' n := by
  unfold liveBelow
  congr 1
  exact List.filter_congr (fun i hi => h i (List.mem_range.mp hi))

/-- The count of live pages is determined by the set of live pages. -/
theorem AllocInv.allocatedFrames_congr {words : Nat} {a a' : FrameAllocator words}
    (h : AllocInv a) (h' : AllocInv a') (hregions : a.regions = a'.regions)
    (hlive : ∀ f, LiveAt a f ↔ LiveAt a' f) : a.allocatedFrames = a'.allocatedFrames := by
  have hcount : a.frameCount = a'.frameCount := by rw [h.count, h'.count, hregions]
  rw [h.live, h'.live, hcount]
  refine liveBelow_congr (fun i hi => ?_)
  -- page `i` is live in one allocator iff it is live in the other
  have hlt : i < (pagesOf a'.regions).length := by
    rw [← h'.count]
    exact hi
  have hpage : (pagesOf a'.regions)[i]? = some (pagesOf a'.regions)[i] :=
    List.getElem?_eq_getElem hlt
  have hiff : ∀ {b : FrameAllocator words}, AllocInv b → b.regions = a'.regions →
      (LiveAt b (pagesOf a'.regions)[i] ↔ b.allocated.testBit i = true) := by
    intro b hb hbr
    have hpage' : (pagesOf b.regions)[i]? = some (pagesOf a'.regions)[i] := by
      rw [hbr]
      exact hpage
    constructor
    · intro ⟨j, hj, hbit⟩
      rw [hb.page_unique hpage' hj]
      exact hbit
    · exact fun hbit => ⟨i, hpage', hbit⟩
  rw [Bool.eq_iff_iff, ← hiff h hregions, ← hiff h' rfl]
  exact hlive _

theorem liveBelow_le (w : Words) (n : Nat) : liveBelow w n ≤ n := by
  have := List.length_filter_le w.testBit (List.range n)
  rw [List.length_range] at this
  exact this

/-- One more bit is one more live page. -/
theorem liveBelow_set {k : Nat} (hk : k < n) (hclear : w.testBit k = false)
    (hset : ∀ i, w'.testBit i = (w.testBit i || decide (i = k))) :
    liveBelow w' n = liveBelow w n + 1 := by
  induction n with
  | zero => omega
  | succ n ih =>
    have hstep : ∀ v : Words, liveBelow v (n + 1)
        = liveBelow v n + if v.testBit n then 1 else 0 := by
      intro v
      unfold liveBelow
      rw [List.range_succ, List.filter_append, List.length_append]
      cases hv : v.testBit n <;> simp [hv]
    rw [hstep w, hstep w']
    by_cases hn : k = n
    · subst hn
      have hsame : liveBelow w' k = liveBelow w k :=
        liveBelow_congr (fun i hi => by rw [hset i]; simp [Nat.ne_of_lt hi])
      rw [hsame, hset k, hclear]
      simp
    · have hne : n ≠ k := fun h => hn h.symm
      rw [ih (by omega), hset n]
      simp only [hne, decide_false, Bool.or_false]
      omega

/-! ## §3. Allocation. -/

section Operations

variable {words : Nat} {a : FrameAllocator words}

/-- The search stops at the first word with a free page. -/
theorem scanWords_spec (a : FrameAllocator words) (remaining : Nat) :
    ∀ word, (∀ i, i < word * 64 → i < a.frameCount → a.allocated.testBit i = true) →
      word ≤ a.scanWords remaining word ∧ a.scanWords remaining word ≤ word + remaining
        ∧ (∀ i, i < a.scanWords remaining word * 64 → i < a.frameCount →
          a.allocated.testBit i = true)
        ∧ (a.scanWords remaining word < word + remaining →
          a.freeIn (a.scanWords remaining word) ≠ 0#64) := by
  induction remaining with
  | zero =>
    intro word hfull
    exact ⟨Nat.le_refl _, Nat.le_refl _, hfull, fun h => absurd h (Nat.lt_irrefl _)⟩
  | succ n ih =>
    intro word hfull
    by_cases hzero : a.freeIn word = 0#64
    · have hstep : a.scanWords (n + 1) word = a.scanWords n (word + 1) := by
        rw [scanWords, if_pos hzero]
      rw [hstep]
      -- the word is full, so the search goes on behind it
      have hfull' : ∀ i, i < (word + 1) * 64 → i < a.frameCount →
          a.allocated.testBit i = true := by
        intro i hi hcount
        by_cases hbefore : i < word * 64
        · exact hfull i hbefore hcount
        have hbit := Words.freeBits_eq_zero a.allocated (Nat.min_le_right _ _) hzero
          (i - word * 64) (by omega)
        rw [show word * 64 + (i - word * 64) = i by omega] at hbit
        exact hbit
      obtain ⟨h1, h2, h3, h4⟩ := ih (word + 1) hfull'
      exact ⟨by omega, by omega, h3, fun h => h4 (by omega)⟩
    · have hstep : a.scanWords (n + 1) word = word := by
        rw [scanWords, if_neg hzero]
      rw [hstep]
      exact ⟨Nat.le_refl _, by omega, hfull, fun _ => hzero⟩

/-- **What an allocation does.**  It returns the lowest managed page that is
not live and makes it live; it fails only when every managed page is live. -/
theorem allocFrame_spec (h : AllocInv a) :
    (∃ a' f i, a.allocFrame = (a', some f) ∧ AllocInv a' ∧ a'.regions = a.regions
        ∧ (pagesOf a.regions)[i]? = some f ∧ a.allocated.testBit i = false
        ∧ (∀ j < i, a.allocated.testBit j = true)
        ∧ ∀ j, a'.allocated.testBit j = (a.allocated.testBit j || decide (j = i)))
      ∨ ∃ a', a.allocFrame = (a', none) ∧ AllocInv a' ∧ a'.regions = a.regions
        ∧ a'.allocated = a.allocated ∧ ∀ i < a.frameCount, a.allocated.testBit i = true := by
  obtain ⟨hge, hle, hfull, hfound⟩ := scanWords_spec a (a.usedWords - a.nextWord) a.nextWord h.full
  have hnext := h.next
  obtain ⟨word, hword⟩ : ∃ w, w = a.scanWords (a.usedWords - a.nextWord) a.nextWord := ⟨_, rfl⟩
  rw [← hword] at hge hle hfull hfound
  have hused : a.usedWords = (a.frameCount + 63) / 64 := rfl
  by_cases hlt : word < a.usedWords
  · -- a free page: its number, its region and the bookkeeping
    obtain ⟨hbit, hclear, hlow⟩ := Words.ctz_freeBits a.allocated
      (Nat.min_le_right (a.frameCount - word * 64) 64) (hfound (by omega))
    obtain ⟨bit, hbitdef⟩ : ∃ b, b = (a.freeIn word).ctz.toNat := ⟨_, rfl⟩
    have hfree : a.freeIn word = a.allocated.freeBits word (min (a.frameCount - word * 64) 64) := rfl
    rw [← hfree, ← hbitdef] at hbit hclear hlow
    have hindex : word * 64 + bit < a.frameCount := by omega
    have hbit64 : bit < 64 := by omega
    have hcount := h.count
    obtain ⟨r, hfind, hpage⟩ := find_index h.numbered (Nat.zero_le (word * 64 + bit)) (by omega)
    have hset := Words.testBit_setBit a.allocated word hbit64
    have hval : a.allocFrame = (({ a with nextWord := word } : FrameAllocator words).grant word bit,
        some (r.start + (word * 64 + bit - r.first) * pageSize)) := by
      have hregion : ({ a with nextWord := word } : FrameAllocator words).regionOf
          (word * 64 + bit) = some r := hfind
      have hlt' : word < ({ a with nextWord := word } : FrameAllocator words).usedWords := hlt
      have hfree' : ({ a with nextWord := word } : FrameAllocator words).freeIn word
          = a.freeIn word := rfl
      unfold allocFrame
      simp only [← hword, if_pos hlt', hfree', ← hbitdef, hregion]
    rw [Nat.sub_zero] at hpage
    refine .inl ⟨_, _, word * 64 + bit, hval, ?_, rfl, hpage, hclear, ?_, hset⟩
    · refine ⟨h.ascending, h.numbered, h.count, h.capacity, ?_, ?_, ?_, ?_, ?_⟩
      · intro i hi
        have hi' : (a.allocated.setBit word bit).testBit i = true := hi
        rw [hset i, Bool.or_eq_true, decide_eq_true_eq] at hi'
        rcases hi' with hi' | rfl
        · exact h.bits i hi'
        · exact hindex
      · show a.allocatedFrames + 1 = _
        rw [h.live]
        exact (liveBelow_set hindex hclear hset).symm
      · intro i hi hcount'
        show (a.allocated.setBit word bit).testBit i = true
        rw [hset i, hfull i hi hcount', Bool.true_or]
      · show word ≤ a.usedWords
        omega
      · intro hstarted
        cases hstarted
    · intro j hj
      by_cases hbefore : j < word * 64
      · exact hfull j hbefore (by omega)
      have := hlow (j - word * 64) (by omega)
      rw [show word * 64 + (j - word * 64) = j by omega] at this
      exact this
  · -- every word is full
    have hval : a.allocFrame = ({ a with
        nextWord := word
        allocationFailures := saturatingSucc a.allocationFailures }, none) := by
      have hlt' : ¬ word < ({ a with nextWord := word } : FrameAllocator words).usedWords := hlt
      unfold allocFrame
      simp only [← hword, if_neg hlt']
    refine .inr ⟨_, hval, ?_, rfl, rfl, fun i hi => hfull i (by omega) hi⟩
    refine ⟨h.ascending, h.numbered, h.count, h.capacity, h.bits, h.live, hfull, ?_, h.fresh⟩
    show word ≤ a.usedWords
    omega

/-- One bit less is one live page less. -/
theorem liveBelow_clear {k : Nat} (hk : k < n) (hset : w.testBit k = true)
    (hclear : ∀ i, w'.testBit i = (w.testBit i && !decide (i = k))) :
    liveBelow w' n = liveBelow w n - 1 := by
  have hback : ∀ i, w.testBit i = (w'.testBit i || decide (i = k)) := by
    intro i
    rw [hclear i]
    by_cases hi : i = k
    · subst hi; simp [hset]
    · simp [hi]
  have hcleared : w'.testBit k = false := by rw [hclear k]; simp
  have := liveBelow_set hk hcleared hback
  omega

variable (h : AllocInv a)

include h

/-- A release of a live page. -/
theorem AllocInv.retract (hi : a.allocated.testBit i = true) :
    AllocInv (a.retract i)
      ∧ ∀ j, (a.retract i).allocated.testBit j = (a.allocated.testBit j && !decide (j = i)) := by
  have hlt := h.bits i hi
  have hclear : ∀ j, (a.retract i).allocated.testBit j
      = (a.allocated.testBit j && !decide (j = i)) := by
    intro j
    have := Words.testBit_clearBit a.allocated (i / 64) (Nat.mod_lt i (by omega)) j
    rw [show i / 64 * 64 + i % 64 = i by omega] at this
    exact this
  refine ⟨⟨h.ascending, h.numbered, h.count, h.capacity, ?_, ?_, ?_, ?_, ?_⟩, hclear⟩
  · intro j hj
    rw [hclear j, Bool.and_eq_true] at hj
    exact h.bits j hj.1
  · show a.allocatedFrames - 1 = _
    rw [h.live]
    exact (liveBelow_clear hlt hi hclear).symm
  · intro j hj hcount
    have hj' : j < min a.nextWord (i / 64) * 64 := hj
    rw [hclear j, h.full j (by omega) hcount]
    have : j ≠ i := by omega
    simp [this]
  · show min a.nextWord (i / 64) ≤ a.usedWords
    have := h.next
    omega
  · intro hstarted
    have := h.fresh hstarted i
    rw [hi] at this
    cases this

/-- **What a release does.**  A page that is not live is refused before it is
prepared; a failed preparation keeps it; otherwise it is not live any more. -/
theorem freeFrameWith_spec {σ : Type} (f : Nat) (prepare : Nat → σ → σ × Bool) (s : σ) :
    (¬ LiveAt a f ∧ ∃ a', a.freeFrameWith f prepare s = (a', s, false) ∧ AllocInv a'
        ∧ a'.regions = a.regions ∧ a'.allocated = a.allocated)
      ∨ (LiveAt a f ∧ (prepare f s).2 = false ∧ ∃ a',
        a.freeFrameWith f prepare s = (a', (prepare f s).1, false) ∧ AllocInv a'
        ∧ a'.regions = a.regions ∧ a'.allocated = a.allocated)
      ∨ ∃ i, (pagesOf a.regions)[i]? = some f ∧ a.allocated.testBit i = true
        ∧ (prepare f s).2 = true
        ∧ a.freeFrameWith f prepare s = (a.retract i, (prepare f s).1, true) := by
  cases hlive : a.liveIndex f with
  | none =>
    refine .inl ⟨?_, { a with invalidReleases := saturatingSucc a.invalidReleases }, by
      simp only [freeFrameWith, hlive], ?_, rfl, rfl⟩
    · rintro ⟨i, hi⟩
      rw [(liveIndex_eq_some_iff h).mpr hi] at hlive
      cases hlive
    · exact ⟨h.ascending, h.numbered, h.count, h.capacity, h.bits, h.live, h.full, h.next,
        h.fresh⟩
  | some i =>
    obtain ⟨hpage, hbit⟩ := (liveIndex_eq_some_iff h).mp hlive
    rcases hprep : prepare f s with ⟨s', ok⟩
    cases ok with
    | false =>
      refine .inr (.inl ⟨⟨i, hpage, hbit⟩, rfl,
        { a with preparationFailures := saturatingSucc a.preparationFailures }, by
          simp only [freeFrameWith, hlive, hprep], ?_, rfl, rfl⟩)
      exact ⟨h.ascending, h.numbered, h.count, h.capacity, h.bits, h.live, h.full, h.next,
        h.fresh⟩
    | true =>
      exact .inr (.inr ⟨i, hpage, hbit, rfl, by
        simp only [freeFrameWith, hlive, hprep]⟩)

theorem AllocInv.allocFrame : AllocInv a.allocFrame.1 := by
  rcases allocFrame_spec h with ⟨a', f, i, hval, h', -⟩ | ⟨a', hval, h', -⟩
  · rw [hval]
    exact h'
  · rw [hval]
    exact h'

theorem AllocInv.freeFrameWith {σ : Type} (f : Nat) (prepare : Nat → σ → σ × Bool) (s : σ) :
    AllocInv (a.freeFrameWith f prepare s).1 := by
  rcases freeFrameWith_spec h f prepare s with ⟨-, a', hval, h', -⟩ | ⟨-, -, a', hval, h', -⟩
    | ⟨i, -, hbit, -, hval⟩
  · rw [hval]
    exact h'
  · rw [hval]
    exact h'
  · rw [hval]
    exact (h.retract hbit).1

end Operations

end GenOS.Memory
