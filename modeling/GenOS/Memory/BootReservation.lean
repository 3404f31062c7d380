/-
  GenOS.Memory.BootReservation — what the boot checks guarantee.

  An accepted map is a list of page-aligned, disjoint regions
  (`validateRegions_ok_iff`), and an accepted range is covered byte by byte by
  retained regions (`requireRetained_ok_iff`).  The allocator manages whole
  pages of usable regions only, so it never hands out a byte of anything that
  is retained, reserved or shown on the screen.
-/
import GenOS.Memory.BootMemory
import GenOS.Memory.AddRegion
import Mathlib.Data.List.Pairwise

namespace GenOS.Memory

open GenOS.Lib List

/-! ## §1. Ranges. -/

variable {start size b : Nat} {r : MemoryRegion} {regions : List MemoryRegion}

theorem rangeEnd_ok_iff {stop : Nat} :
    rangeEnd start size = .ok stop ↔ size ≠ 0 ∧ start + size < 2 ^ 64 ∧ stop = start + size := by
  unfold rangeEnd
  split
  · rename_i h
    simp [h]
  · rename_i h
    split
    · rename_i hover
      simp only [reduceCtorEq, false_iff]
      omega
    · rename_i hover
      rw [Except.ok.injEq]
      omega

/-- The byte lies in the region. -/
def MemoryRegion.Contains (r : MemoryRegion) (b : Nat) : Prop := r.start.toNat ≤ b ∧ b < r.stop

theorem retains_iff :
    r.retains b = true ↔ r.kind.retained = true ∧ r.Contains b ∧ r.stop < 2 ^ 64 := by
  unfold MemoryRegion.retains MemoryRegion.Contains
  simp only [Bool.and_eq_true, decide_eq_true_eq]
  tauto

/-- The loop accepts exactly when every byte ahead of the cursor is retained. -/
theorem retainedFrom_ok_iff (regions : List MemoryRegion) (stop cursor : Nat) :
    retainedFrom regions stop cursor = .ok ()
      ↔ ∀ b, cursor ≤ b → b < stop → ∃ r ∈ regions, r.retains b = true := by
  fun_induction retainedFrom regions stop cursor with
  | case1 cursor hlt hnone =>
    -- no region retains the byte at the cursor
    simp only [reduceCtorEq, false_iff]
    intro h
    obtain ⟨r, hr, hretains⟩ := h cursor (Nat.le_refl _) hlt
    exact find?_eq_none.mp hnone r hr hretains
  | case2 cursor hlt r hfound ih =>
    have hr := find?_some hfound
    have hmem := mem_of_find?_eq_some hfound
    obtain ⟨hkind, ⟨hlow, hhigh⟩, hbound⟩ := retains_iff.mp hr
    rw [ih]
    constructor
    · intro h b hge hb
      by_cases hin : b < r.stop
      · exact ⟨r, hmem, retains_iff.mpr ⟨hkind, ⟨by omega, hin⟩, hbound⟩⟩
      · exact h b (by omega) hb
    · intro h b hge hb
      exact h b (by omega) hb
  | case3 cursor hge =>
    constructor
    · intro _ b h1 h2
      omega
    · intro _
      rfl

/-- A range is accepted exactly when it is a range and all of it is retained. -/
theorem requireRetained_ok_iff :
    requireRetained regions start size = .ok ()
      ↔ size ≠ 0 ∧ start + size < 2 ^ 64
        ∧ ∀ b, start ≤ b → b < start + size → ∃ r ∈ regions, r.retains b = true := by
  unfold requireRetained
  rw [except_bind_eq_ok]
  constructor
  · intro ⟨stop, hstop, hloop⟩
    obtain ⟨h1, h2, rfl⟩ := rangeEnd_ok_iff.mp hstop
    exact ⟨h1, h2, (retainedFrom_ok_iff _ _ _).mp hloop⟩
  · intro ⟨h1, h2, h3⟩
    exact ⟨start + size, rangeEnd_ok_iff.mpr ⟨h1, h2, rfl⟩, (retainedFrom_ok_iff _ _ _).mpr h3⟩

/-! ## §2. The map. -/

/-- A page-aligned, non-empty region below the end of the address space. -/
structure MemoryRegion.Ok (r : MemoryRegion) : Prop where
  nonempty : r.size.toNat ≠ 0
  bound : r.stop < 2 ^ 64
  startAligned : r.start.toNat % pageSize = 0
  sizeAligned : r.size.toNat % pageSize = 0

/-- No byte lies in both regions. -/
def MemoryRegion.Disjoint (p r : MemoryRegion) : Prop :=
  ¬ (r.start.toNat < p.stop ∧ p.start.toNat < r.stop)

instance : Std.Symm MemoryRegion.Disjoint := ⟨fun _ _ h hover => h ⟨hover.2, hover.1⟩⟩

theorem validateRegions_ok_iff (regions : List MemoryRegion) : ∀ previous : List MemoryRegion,
    validateRegions previous regions = .ok ()
      ↔ (∀ r ∈ regions, r.Ok) ∧ regions.Pairwise MemoryRegion.Disjoint
        ∧ ∀ p ∈ previous, ∀ r ∈ regions, p.Disjoint r := by
  induction regions with
  | nil =>
    intro previous
    simp [validateRegions]
  | cons region rest ih =>
    intro previous
    rw [validateRegions, except_bind_eq_ok]
    constructor
    · intro ⟨stop, hstop, hrest⟩
      obtain ⟨hsize, hbound, rfl⟩ := rangeEnd_ok_iff.mp hstop
      split at hrest
      · cases hrest
      rename_i haligned
      split at hrest
      · cases hrest
      rename_i hfree
      obtain ⟨hok, hpairs, hprevious⟩ := (ih _).mp hrest
      simp only [not_or, ne_eq, not_not] at haligned
      simp only [any_eq_true, Bool.and_eq_true, decide_eq_true_eq, not_exists,
        not_and] at hfree
      refine ⟨?_, pairwise_cons.mpr ⟨?_, hpairs⟩, ?_⟩
      · intro r hr
        rcases mem_cons.mp hr with rfl | hr
        · exact ⟨hsize, hbound, haligned.1, haligned.2⟩
        · exact hok r hr
      · intro r hr
        exact hprevious region (by simp) r hr
      · intro p hp r hr
        rcases mem_cons.mp hr with rfl | hr
        · exact fun hover => hfree p hp hover.1 hover.2
        · exact hprevious p (by simp [hp]) r hr
    · intro ⟨hok, hpairs, hprevious⟩
      have hregion := hok region mem_cons_self
      refine ⟨region.stop, rangeEnd_ok_iff.mpr ⟨hregion.nonempty, hregion.bound, rfl⟩, ?_⟩
      have haligned : ¬ (region.start.toNat % pageSize ≠ 0 ∨ region.size.toNat % pageSize ≠ 0) := by
        simp [hregion.startAligned, hregion.sizeAligned]
      have hfree : ¬ previous.any (fun p => decide (region.start.toNat < p.stop)
          && decide (p.start.toNat < region.stop)) = true := by
        simp only [any_eq_true, Bool.and_eq_true, decide_eq_true_eq, not_exists, not_and]
        exact fun p hp h1 h2 => hprevious p hp region mem_cons_self ⟨h1, h2⟩
      rw [if_neg haligned, if_neg hfree]
      refine (ih _).mpr ⟨fun r hr => hok r (mem_cons_of_mem _ hr),
        (pairwise_cons.mp hpairs).2, ?_⟩
      intro p hp r hr
      rcases mem_append.mp hp with hp | hp
      · exact hprevious p hp r (mem_cons_of_mem _ hr)
      · rw [mem_singleton.mp hp]
        exact (pairwise_cons.mp hpairs).1 r hr

theorem validateMap_ok {map : MemoryMapInfo} (h : validateMap map = .ok regions) : regions = map.entries
      ∧ (∀ r ∈ map.entries, r.Ok) ∧ map.entries.Pairwise MemoryRegion.Disjoint := by
  unfold validateMap at h
  split at h
  · cases h
  split at h
  · cases h
  obtain ⟨_, hregions, hval⟩ := except_bind_eq_ok.mp h
  obtain ⟨hok, hpairs, -⟩ := (validateRegions_ok_iff _ _).mp hregions
  cases hval
  exact ⟨rfl, hok, hpairs⟩

/-- Different regions of an accepted map have no byte in common. -/
theorem contains_unique (h : regions.Pairwise MemoryRegion.Disjoint) {p : MemoryRegion}
    (hp : p ∈ regions) (hr : r ∈ regions) (hpb : p.Contains b) (hrb : r.Contains b) : p = r := by
  by_contra hne
  have hdisjoint := h.forall hp hr hne
  unfold MemoryRegion.Contains at hpb hrb
  exact hdisjoint ⟨by omega, by omega⟩

/-! ## §3. Runs of the allocator. -/

/-- The states reached by any allocations and releases. -/
inductive AllocatorRun {words : Nat} (a₀ : FrameAllocator words) : FrameAllocator words → Prop
  | start : AllocatorRun a₀ a₀
  | alloc {a} : AllocatorRun a₀ a → AllocatorRun a₀ a.allocFrame.1
  | free {a} {σ : Type} (frame : Nat) (prepare : Nat → σ → σ × Bool) (s : σ) :
      AllocatorRun a₀ a → AllocatorRun a₀ (a.freeFrameWith frame prepare s).1

/-- A run keeps the invariant and the layout. -/
theorem AllocatorRun.inv {words : Nat} {a₀ a : FrameAllocator words} (h₀ : AllocInv a₀)
    (hrun : AllocatorRun a₀ a) : AllocInv a ∧ a.regions = a₀.regions := by
  induction hrun with
  | start => exact ⟨h₀, rfl⟩
  | alloc _ ih =>
    obtain ⟨hinv, hregions⟩ := ih
    rcases allocFrame_spec hinv with ⟨a', f, i, hval, hinv', hsame, -⟩ | ⟨a', hval, hinv', hsame, -⟩
    all_goals
      rw [hval]
      exact ⟨hinv', hsame.trans hregions⟩
  | free frame prepare s _ ih =>
    obtain ⟨hinv, hregions⟩ := ih
    rcases freeFrameWith_spec hinv frame prepare s with ⟨-, a', hval, hinv', hsame, -⟩
      | ⟨-, -, a', hval, hinv', hsame, -⟩ | ⟨i, -, hbit, -, hval⟩
    · rw [hval]
      exact ⟨hinv', hsame.trans hregions⟩
    · rw [hval]
      exact ⟨hinv', hsame.trans hregions⟩
    · rw [hval]
      exact ⟨(hinv.retract hbit).1, hregions⟩

/-- After the usable regions of a map were added, every allocated frame is a
whole page of one of them. -/
theorem allocated_usable {words : Nat} {map : List MemoryRegion} {a a' : FrameAllocator words}
    {f : Nat} (hrun : AllocatorRun (addRegions .new map) a) (halloc : a.allocFrame = (a', some f)) :
    ∃ region ∈ map, region.kind = .usable ∧ region.Whole f := by
  have h₀ : AllocInv (addRegions FrameAllocator.new map : FrameAllocator words) :=
    AllocInv.new.addRegions map
  obtain ⟨hinv, hregions⟩ := hrun.inv h₀
  rcases allocFrame_spec hinv with ⟨_, f', i, hval, -, -, hpage, -⟩ | ⟨_, hval, -⟩
  · rw [halloc] at hval
    cases hval
    have hmem := mem_of_getElem? hpage
    rw [hregions] at hmem
    rcases addRegions_managed map AllocInv.new f hmem with hnone | hsome
    · exact absurd hnone not_mem_nil
    · exact hsome
  · rw [halloc] at hval
    cases hval

/-! ## §4. Reservation. -/

/-- The byte lies in the range of `size` bytes at `start`. -/
def InRange (start size b : Nat) : Prop := start ≤ b ∧ b < start + size

/-- Everything the accepted hand-off refers to lies outside usable memory. -/
structure Reserved (info : BootInfo) (infoAddress kernelStart kernelSize : UInt64) (b : Nat) :
    Prop where
  kernel : ¬ InRange kernelStart.toNat kernelSize.toNat b
  bootInfo : ¬ InRange infoAddress.toNat bootInfoSize b
  initrd : ¬ InRange info.initrd.base.toNat info.initrd.size.toNat b
  framebuffer : ¬ InRange info.framebuffer.base.toNat info.framebuffer.size.toNat b
  others : ∀ r ∈ info.memoryMap.entries, r.kind ≠ .usable → ¬ r.Contains b

/-- A retained byte is not usable. -/
theorem requireRetained_not_usable (hpairs : regions.Pairwise MemoryRegion.Disjoint)
    (h : requireRetained regions start size = .ok ()) (hr : r ∈ regions)
    (hkind : r.kind = .usable) (hb : r.Contains b) : ¬ InRange start size b := by
  intro hin
  obtain ⟨-, -, hcover⟩ := requireRetained_ok_iff.mp h
  obtain ⟨p, hp, hretains⟩ := hcover b hin.1 hin.2
  obtain ⟨hretained, hpb, -⟩ := retains_iff.mp hretains
  rw [contains_unique hpairs hp hr hpb hb, hkind] at hretained
  cases hretained

theorem validateInitrd_not_usable {initrd : InitrdInfo}
    (hpairs : regions.Pairwise MemoryRegion.Disjoint) (h : validateInitrd regions initrd = .ok ())
    (hr : r ∈ regions) (hkind : r.kind = .usable) (hb : r.Contains b) :
    ¬ InRange initrd.base.toNat initrd.size.toNat b := by
  unfold validateInitrd at h
  split at h
  · rename_i hsize
    intro hin
    rw [hsize] at hin
    exact absurd (Nat.lt_of_le_of_lt hin.1 hin.2) (Nat.lt_irrefl _)
  · exact requireRetained_not_usable hpairs h hr hkind hb

theorem validateFramebuffer_not_usable {fb : FramebufferInfo}
    (h : validateFramebuffer regions fb = .ok ()) (hr : r ∈ regions) (hkind : r.kind = .usable)
    (hb : r.Contains b) :
    ¬ InRange fb.base.toNat fb.size.toNat b := by
  unfold validateFramebuffer at h
  split at h
  · rename_i hsize
    intro hin
    rw [hsize] at hin
    exact absurd (Nat.lt_of_le_of_lt hin.1 hin.2) (Nat.lt_irrefl _)
  · obtain ⟨stop, hstop, hrest⟩ := except_bind_eq_ok.mp h
    obtain ⟨-, -, rfl⟩ := rangeEnd_ok_iff.mp hstop
    simp only at hrest
    split at hrest
    · cases hrest
    split at hrest
    · cases hrest
    rename_i hfree
    intro hin
    -- the region would be one of the overlapping usable ones
    refine hfree (.inr (.inr (.inr (.inr (any_eq_true.mpr ⟨r, hr, ?_⟩)))))
    unfold InRange at hin
    unfold MemoryRegion.Contains at hb
    simp only [hkind, decide_true, Bool.true_and, Bool.and_eq_true, decide_eq_true_eq]
    omega

/-- **Boot reservation.**  Whatever the loader hands over, if the kernel accepts
it then no frame the allocator ever returns overlaps the kernel image, the
hand-off record, the initrd, the framebuffer or a region that is not usable. -/
theorem boot_reservation {words : Nat} {info : BootInfo}
    {infoAddress kernelStart kernelSize : UInt64}
    (hvalid : validateBootInfo info infoAddress kernelStart kernelSize = .ok ())
    {a a' : FrameAllocator words} {f : Nat}
    (hrun : AllocatorRun
      (addRegions .new (info.memoryMap.entries.filter (fun r => r.kind = .usable))) a)
    (halloc : a.allocFrame = (a', some f)) {b : Nat} (hb : InRange f pageSize b) :
    Reserved info infoAddress kernelStart kernelSize b := by
  obtain ⟨r, hfilter, hkind, hwhole⟩ := allocated_usable hrun halloc
  have hr := (List.mem_filter.mp hfilter).1
  have hcontains : r.Contains b := by
    unfold MemoryRegion.Whole at hwhole
    unfold InRange at hb
    unfold MemoryRegion.Contains MemoryRegion.stop
    omega
  unfold validateBootInfo at hvalid
  split at hvalid
  · cases hvalid
  split at hvalid
  · cases hvalid
  obtain ⟨regions, hmap, hvalid⟩ := except_bind_eq_ok.mp hvalid
  obtain ⟨rfl, -, hpairs⟩ := validateMap_ok hmap
  obtain ⟨_, hinfo, hvalid⟩ := except_bind_eq_ok.mp hvalid
  obtain ⟨_, hkernel, hvalid⟩ := except_bind_eq_ok.mp hvalid
  obtain ⟨_, hinitrd, hfb⟩ := except_bind_eq_ok.mp hvalid
  refine ⟨?_, ?_, ?_, ?_, ?_⟩
  · exact requireRetained_not_usable hpairs hkernel hr hkind hcontains
  · exact requireRetained_not_usable hpairs hinfo hr hkind hcontains
  · exact validateInitrd_not_usable hpairs hinitrd hr hkind hcontains
  · exact validateFramebuffer_not_usable hfb hr hkind hcontains
  intro p hp hother hpb
  rw [contains_unique hpairs hp hr hpb hcontains] at hother
  exact hother hkind

/-- Usable memory from `0x40000` on, the hand-off record and the kernel below it,
and a framebuffer. -/
def smallBootInfo : BootInfo where
  magic := bootInfoMagic
  version := bootInfoVersion
  framebuffer := ⟨0x100000, 0x1000, 16, 16, 16⟩
  memoryMap :=
    { regionCount := 3
      regions := [⟨0x40000, 0x4000, .usable⟩, ⟨0x1000, 0x3000, .bootloader⟩,
        ⟨0x20000, 0x10000, .kernel⟩] ++ List.replicate 253 ⟨0, 0, .reserved⟩
      full := by rw [List.length_append, List.length_replicate]; rfl }
  initrd := ⟨0, 0⟩
  cmdlineLen := 0
  cmdline := List.replicate 128 0
  cmdlineFull := List.length_replicate

theorem boot_reservation_small :
    ∃ a', (addRegions .new (smallBootInfo.memoryMap.entries.filter (fun r => r.kind = .usable))
        : FrameAllocator 1).allocFrame = (a', some 0x40000)
      ∧ Reserved smallBootInfo 0x1000 0x20000 0x10000 0x40fff := by
  have hvalid : validateBootInfo smallBootInfo 0x1000 0x20000 0x10000 = .ok () := by
    decide +kernel
  have hframe : ((addRegions .new (smallBootInfo.memoryMap.entries.filter
      (fun r => r.kind = .usable)) : FrameAllocator 1).allocFrame).2 = some 0x40000 := by
    decide +kernel
  obtain ⟨out, hout⟩ : ∃ out, out = (addRegions .new (smallBootInfo.memoryMap.entries.filter
      (fun r => r.kind = .usable)) : FrameAllocator 1).allocFrame := ⟨_, rfl⟩
  rw [← hout] at hframe ⊢
  have halloc : out = (out.1, some 0x40000) := by rw [← hframe]
  exact ⟨out.1, halloc, boot_reservation hvalid .start (hout.symm.trans halloc)
    ⟨by decide, by decide⟩⟩

end GenOS.Memory
