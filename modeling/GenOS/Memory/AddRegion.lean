/-
  GenOS.Memory.AddRegion — building the layout of managed memory.

  A region is added only if it touches no managed region, and then its pages
  are inserted in order (`addRegion_spec`).  So every managed page lies inside
  a usable region that was added (`addRegions_managed`), and the allocator
  that results satisfies the invariant.
-/
import GenOS.Memory.AllocatorInvariant

namespace GenOS.Memory

open GenOS.Lib FrameAllocator List

/-! ## §1. Numbering. -/

section

variable (regions : List FrameRegion)

theorem numbered_renumber : ∀ first, Numbered first (renumber first regions) := by
  induction regions with
  | nil => exact fun _ => trivial
  | cons r rest ih => exact fun first => ⟨rfl, ih _⟩

theorem renumber_length :
    ∀ first, (renumber first regions).length = regions.length := by
  induction regions with
  | nil => exact fun _ => rfl
  | cons r rest ih => exact fun first => congrArg (· + 1) (ih (first + r.frames))

theorem pagesOf_renumber :
    ∀ first, pagesOf (renumber first regions) = pagesOf regions := by
  induction regions with
  | nil => exact fun _ => rfl
  | cons r rest ih =>
    intro first
    rw [renumber, pagesOf_cons, pagesOf_cons, ih]
    rfl

end

theorem mem_renumber {regions : List FrameRegion} {x : FrameRegion} :
    ∀ {first : Nat}, x ∈ renumber first regions →
      ∃ r ∈ regions, x.start = r.start ∧ x.stop = r.stop := by
  induction regions with
  | nil =>
    intro first hx
    exact absurd hx not_mem_nil
  | cons r rest ih =>
    intro first hx
    rw [renumber] at hx
    rcases mem_cons.mp hx with rfl | hx
    · exact ⟨r, mem_cons_self, rfl, rfl⟩
    · obtain ⟨y, hy, h⟩ := ih hx
      exact ⟨y, mem_cons_of_mem _ hy, h⟩

theorem renumber_ascending {regions : List FrameRegion} :
    ∀ {first : Nat}, Ascending regions → Ascending (renumber first regions) := by
  induction regions with
  | nil => exact fun h => h
  | cons r rest ih =>
    intro first h
    have hrest : Ascending (renumber (first + r.frames) rest) := ih h.tail
    have hr := h.ok r mem_cons_self
    constructor
    · intro x hx
      rcases mem_cons.mp hx with rfl | hx
      · exact ⟨hr.startAligned, hr.stopAligned, hr.low, hr.nonempty, hr.high⟩
      · exact hrest.ok x hx
    · refine pairwise_cons.mpr ⟨fun x hx => ?_, hrest.sorted⟩
      obtain ⟨y, hy, hstart, -⟩ := mem_renumber hx
      show r.stop ≤ x.start
      rw [hstart]
      exact (pairwise_cons.mp h.sorted).1 y hy

/-! ## §2. Inserting in order. -/

section Insert

variable {regions : List FrameRegion} {r : FrameRegion}

theorem insertRegion_perm :
    (insertRegion regions r).Perm (r :: regions) := by
  unfold insertRegion
  refine perm_middle.trans (List.Perm.cons r ?_)
  rw [rdropWhile_append_rtakeWhile]

/-- Regions before the insertion point start no later than the new one. -/
theorem start_le_of_mem_rdropWhile (h : Ascending regions) {x : FrameRegion}
    (hx : x ∈ regions.rdropWhile (fun x => decide (r.start < x.start))) : x.start ≤ r.start := by
  obtain ⟨init, hinit⟩ : ∃ l, l = regions.rdropWhile (fun x => decide (r.start < x.start)) :=
    ⟨_, rfl⟩
  have hne : init ≠ [] := by
    rw [hinit]
    exact ne_nil_of_mem hx
  -- the last of them was not shifted
  have hlast : ¬ r.start < (init.getLast hne).start := by
    have := rdropWhile_last_not (fun x => decide (r.start < x.start)) regions
      (by rw [← hinit]; exact hne)
    simpa [hinit] using this
  have hpre : init <+: regions := by rw [hinit]; exact rdropWhile_prefix _ _
  have hsorted : init.Pairwise (fun r r' => r.stop ≤ r'.start) := h.sorted.sublist hpre.sublist
  rw [← hinit] at hx
  rw [← dropLast_concat_getLast hne] at hx hsorted
  rcases mem_append.mp hx with hx | hx
  · have hle := (pairwise_append.mp hsorted).2.2 x hx _ (mem_singleton.mpr rfl)
    have hok := h.ok x (hpre.subset (dropLast_subset _ hx))
    have := hok.nonempty
    omega
  · rw [mem_singleton.mp hx]
    omega

theorem insertRegion_ascending (h : Ascending regions) (hr : RegionOk r)
    (hfree : ∀ x ∈ regions, ¬ (r.start < x.stop ∧ x.start < r.stop)) :
    Ascending (insertRegion regions r) := by
  have hnonempty := hr.nonempty
  constructor
  · intro x hx
    rcases mem_cons.mp (insertRegion_perm.subset hx) with rfl | hx
    · exact hr
    · exact h.ok x hx
  · have hsplit : regions.rdropWhile (fun x => decide (r.start < x.start))
        ++ regions.rtakeWhile (fun x => decide (r.start < x.start)) = regions :=
      rdropWhile_append_rtakeWhile
    have hsorted := h.sorted
    rw [← hsplit, pairwise_append] at hsorted
    have hmem : ∀ x, x ∈ regions.rdropWhile (fun x => decide (r.start < x.start)) ∨
        x ∈ regions.rtakeWhile (fun x => decide (r.start < x.start)) → x ∈ regions := by
      intro x hx
      rw [← hsplit]
      exact mem_append.mpr hx
    unfold insertRegion
    rw [pairwise_append, pairwise_cons]
    refine ⟨hsorted.1, ⟨?_, hsorted.2.1⟩, ?_⟩
    · intro y hy
      have hlt : r.start < y.start := by
        have := mem_rtakeWhile_imp hy
        simpa using this
      have hy' := hmem y (.inr hy)
      have := (h.ok y hy').nonempty
      have := hfree y hy'
      omega
    · intro x hx y hy
      have hle := start_le_of_mem_rdropWhile h hx
      have hx' := hmem x (.inl hx)
      rcases mem_cons.mp hy with rfl | hy
      · have := hfree x hx'
        omega
      · exact hsorted.2.2 x hx y hy

end Insert

/-! ## §3. One region. -/

/-- A whole page inside the region; the null page is never used. -/
def MemoryRegion.Whole (region : MemoryRegion) (f : Nat) : Prop :=
  f % pageSize = 0 ∧ pageSize ≤ f ∧ region.start.toNat ≤ f
    ∧ f + pageSize ≤ region.start.toNat + region.size.toNat

variable {region : MemoryRegion}

/-- Rounding inwards keeps exactly the whole pages.  When rounding up would
pass the end of the address space no page is left. -/
theorem whole_iff (hend : region.start.toNat + region.size.toNat < 2 ^ 64) (f : Nat) :
    region.Whole f ↔ f % pageSize = 0 ∧ alignUp (max region.start.toNat pageSize) ≤ f
      ∧ f < alignDown (region.start.toNat + region.size.toNat) := by
  unfold MemoryRegion.Whole alignUp alignDown pageSize
  omega

theorem regionOk_rounded
    (hend : region.start.toNat + region.size.toNat < 2 ^ 64)
    (hpages : alignUp (max region.start.toNat pageSize)
      < alignDown (region.start.toNat + region.size.toNat)) :
    RegionOk ⟨alignUp (max region.start.toNat pageSize),
      alignDown (region.start.toNat + region.size.toNat), 0⟩ where
  startAligned := Nat.mul_mod_left _ _
  stopAligned := Nat.mul_mod_left _ _
  low := by
    show pageSize ≤ alignUp (max region.start.toNat pageSize)
    unfold alignUp pageSize
    omega
  nonempty := hpages
  high := Nat.lt_of_le_of_lt (Nat.div_mul_le_self _ _) hend

section AddRegion

variable {words : Nat} {a : FrameAllocator words}

theorem AllocInv.new : AllocInv (.new : FrameAllocator words) where
  ascending := ⟨fun _ h => absurd h not_mem_nil, List.Pairwise.nil⟩
  numbered := trivial
  count := rfl
  capacity := Nat.zero_le _
  bits := fun i h => by simp [FrameAllocator.new, Words.testBit] at h
  live := rfl
  full := fun i h => by simp [FrameAllocator.new] at h
  next := Nat.zero_le _
  fresh := fun _ i => by simp [FrameAllocator.new, Words.testBit]

theorem liveBelow_eq_zero {w : Words} (h : ∀ i, w.testBit i = false) (n : Nat) :
    liveBelow w n = 0 := by
  unfold liveBelow
  rw [length_eq_zero_iff, filter_eq_nil_iff]
  intro i _
  rw [h i]
  exact Bool.false_ne_true

/-- Before the first allocation a disjoint region may be inserted. -/
theorem AllocInv.insert (h : AllocInv a) (hstarted : a.started = false) {r : FrameRegion}
    (hr : RegionOk r) (hfree : ∀ x ∈ a.regions, ¬ (r.start < x.stop ∧ x.start < r.stop))
    (hcapacity : a.frameCount + r.frames ≤ words * 64) :
    AllocInv ({ a with
        regions := renumber 0 (insertRegion a.regions r)
        frameCount := a.frameCount + r.frames
        nextWord := 0 } : FrameAllocator words)
      ∧ ∀ f, f ∈ pagesOf (renumber 0 (insertRegion a.regions r))
        ↔ f ∈ pagesOf a.regions ∨ f ∈ regionPages r := by
  have hclear := h.fresh hstarted
  have hpages : (pagesOf (renumber 0
      (insertRegion a.regions r))).Perm (regionPages r ++ pagesOf a.regions) := by
    rw [pagesOf_renumber, ← pagesOf_cons]
    exact insertRegion_perm.flatMap_right regionPages
  constructor
  · constructor
    · exact renumber_ascending (insertRegion_ascending h.ascending hr hfree)
    · exact numbered_renumber _ 0
    · show a.frameCount + r.frames = _
      rw [hpages.length_eq, length_append, regionPages_length, ← h.count, Nat.add_comm]
    · exact hcapacity
    · intro i hi
      rw [hclear i] at hi
      cases hi
    · show a.allocatedFrames = _
      rw [h.live, liveBelow_eq_zero hclear, liveBelow_eq_zero hclear]
    · intro i hi
      simp only [Nat.zero_mul] at hi
      omega
    · exact Nat.zero_le _
    · exact fun _ => hclear
  · intro f
    rw [hpages.mem_iff, mem_append, or_comm]

/-- What adding a region may do: a refused region changes nothing, an accepted
one contributes its whole pages. -/
structure Added (a : FrameAllocator words) (region : MemoryRegion)
    (out : FrameAllocator words × Bool) : Prop where
  inv : AllocInv out.1
  bits : out.1.allocated = a.allocated
  refused : out.2 = false → out.1 = a
  accepted : out.2 = true → ∀ f, f ∈ pagesOf out.1.regions ↔
    f ∈ pagesOf a.regions ∨ (region.kind = .usable ∧ region.Whole f)

theorem Added.refuse (h : AllocInv a) (region : MemoryRegion) : Added a region (a, false) :=
  ⟨h, rfl, fun _ => rfl, fun hok => Bool.noConfusion hok⟩

theorem Added.ignore (h : AllocInv a) (hnone : ∀ f, ¬ (region.kind = .usable ∧ region.Whole f)) : Added a region (a, true) :=
  ⟨h, rfl, fun hno => Bool.noConfusion hno, fun _ f => (or_iff_left (hnone f)).symm⟩

theorem addRegion_spec (h : AllocInv a) (region : MemoryRegion) :
    Added a region (a.addRegion region) := by
  unfold addRegion
  split
  · rename_i hkind
    exact .ignore h (fun f hf => hkind hf.1)
  rename_i hkind
  have hkind : region.kind = .usable := not_not.mp hkind
  split
  · exact .refuse h region
  rename_i hstarted
  simp only
  split
  · exact .refuse h region
  rename_i hend
  have hend := Nat.lt_of_not_le hend
  split
  · rename_i hempty
    refine .ignore h (fun f hf => ?_)
    have := (whole_iff hend f).mp hf.2
    omega
  rename_i hpages
  split
  · exact .refuse h region
  -- the region is disjoint from all others and fits
  rename_i hroom
  have hok := regionOk_rounded hend (Nat.lt_of_not_le hpages)
  simp only [not_or, overlaps, any_eq_true, Bool.and_eq_true,
    decide_eq_true_eq] at hroom
  obtain ⟨hinv, hmem⟩ := h.insert (Bool.eq_false_iff.mpr hstarted) hok
    (fun x hx hxr => hroom.2.2 ⟨x, hx, hxr⟩) (Nat.le_of_not_lt hroom.2.1)
  refine ⟨hinv, rfl, fun hno => Bool.noConfusion hno, fun _ f => ?_⟩
  rw [whole_iff hend f, ← mem_regionPages hok]
  exact (hmem f).trans (or_congr_right (and_iff_right hkind).symm)

/-! ## §4. A memory map. -/

/-- The regions of a map, added one after the other. -/
def addRegions (a : FrameAllocator words) (map : List MemoryRegion) : FrameAllocator words :=
  map.foldl (fun a region => (a.addRegion region).1) a

variable (map : List MemoryRegion)

theorem AllocInv.addRegions :
    ∀ {a : FrameAllocator words}, AllocInv a → AllocInv (addRegions a map) := by
  induction map with
  | nil => exact fun h => h
  | cons region rest ih => exact fun h => ih (addRegion_spec h region).inv

theorem addRegions_allocated :
    ∀ {a : FrameAllocator words}, AllocInv a → (addRegions a map).allocated = a.allocated := by
  induction map with
  | nil => exact fun _ => rfl
  | cons region rest ih =>
    intro a h
    have hadded := addRegion_spec h region
    exact (ih hadded.inv).trans hadded.bits

/-- Every page managed after the map is added lies inside one of its usable
regions, or was managed before. -/
theorem addRegions_managed :
    ∀ {a : FrameAllocator words}, AllocInv a → ∀ f ∈ pagesOf (addRegions a map).regions,
      f ∈ pagesOf a.regions ∨ ∃ region ∈ map, region.kind = .usable ∧ region.Whole f := by
  induction map with
  | nil => exact fun _ f hf => .inl hf
  | cons region rest ih =>
    intro a h f hf
    have hadded := addRegion_spec h region
    rcases ih hadded.inv f hf with hf | ⟨x, hx, hpage⟩
    · cases hok : (a.addRegion region).2 with
      | false =>
        rw [hadded.refused hok] at hf
        exact .inl hf
      | true =>
        rcases (hadded.accepted hok f).mp hf with hf | hf
        · exact .inl hf
        · exact .inr ⟨region, mem_cons_self, hf⟩
    · exact .inr ⟨x, mem_cons_of_mem _ hx, hpage⟩

/-! ## §5. Allocations in a row. -/

/-- The results of `n` calls of `alloc_frame`. -/
def FrameAllocator.allocFrames (a : FrameAllocator words) : Nat → List (Option Nat)
  | 0 => []
  | n + 1 => a.allocFrame.2 :: a.allocFrame.1.allocFrames n

/-- The first `k` pages are allocated, or all. -/
def FilledTo (a : FrameAllocator words) (k : Nat) : Prop :=
  ∀ i, a.allocated.testBit i = true ↔ i < k ∧ i < (pagesOf a.regions).length

variable {k : Nat}

theorem allocFrame_filled (h : AllocInv a) (hk : FilledTo a k) :
    a.allocFrame.2 = (pagesOf a.regions)[k]? ∧ AllocInv a.allocFrame.1
      ∧ a.allocFrame.1.regions = a.regions ∧ FilledTo a.allocFrame.1 (k + 1) := by
  unfold FilledTo at hk ⊢
  have hcount := h.count
  rcases allocFrame_spec h with ⟨a', f, i, hval, h', hregions, hpage, hfree, hlow, hset⟩
    | ⟨a', hval, h', hregions, hsame, hfull⟩
  · -- the lowest free page is page `k`
    have hi := (List.getElem?_eq_some_iff.mp hpage).1
    obtain rfl : i = k := by
      have := hlow k
      grind
    rw [hval, hregions]
    exact ⟨hpage.symm, h', rfl, by grind⟩
  · have hlen : (pagesOf a.regions).length ≤ k := by
      have := hfull k
      grind
    rw [hval, hregions, hsame, List.getElem?_eq_none hlen]
    exact ⟨rfl, h', rfl, by grind⟩

theorem allocFrames_filled (h : AllocInv a) (hk : FilledTo a k) (n : Nat) :
    a.allocFrames n = (List.range n).map fun j => (pagesOf a.regions)[k + j]? := by
  induction n generalizing a k with
  | zero => rfl
  | succ n ih =>
    obtain ⟨hval, h', hregions, hk'⟩ := allocFrame_filled h hk
    rw [range_succ_eq_map, map_cons, map_map, allocFrames, hval, ih h' hk', hregions]
    exact congrArg _ (map_congr_left fun j _ => congrArg _ (Nat.add_right_comm k 1 j))

/-- **From a new allocator the managed pages, all of them usable, come one by one, each once
and upwards, and then nothing.** -/
theorem allocation_order (n : Nat) :
    let a : FrameAllocator words := addRegions .new map
    let pages := pagesOf a.regions
    pages.length = a.frameCount ∧ pages.Pairwise (· < ·)
      ∧ (∀ f ∈ pages, ∃ region ∈ map, region.kind = .usable ∧ region.Whole f)
      ∧ a.allocFrames n = (List.range n).map fun j => pages[j]? := by
  intro a pages
  have h : AllocInv a := AllocInv.new.addRegions map
  have hnew : FilledTo a 0 := by
    intro i
    rw [addRegions_allocated map .new, AllocInv.new.fresh rfl]
    simp
  refine ⟨h.count.symm, pagesOf_ascending h.ascending, fun f hf => ?_, ?_⟩
  · exact (addRegions_managed map .new f hf).resolve_left not_mem_nil
  · simpa only [Nat.zero_add] using allocFrames_filled h hnew n

end AddRegion

end GenOS.Memory
