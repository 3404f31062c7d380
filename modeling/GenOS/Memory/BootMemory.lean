/-
  GenOS.Memory.BootMemory — the checks of the boot hand-off (`boot_memory.rs`).

  The loader hands over a `BootInfo` with the firmware memory map.  The checks
  make the map a list of disjoint page ranges and require that everything the
  kernel keeps using lies in retained memory.

  The `u64` fields of the records are machine words; the arithmetic on them is
  done on natural numbers with explicit overflow checks, as `checked_add` and
  `checked_mul` do.  Fields no check reads (`bootloader_version`,
  `pixel_format`) are left out.
-/
import GenOS.Memory.FrameAllocator
import GenOS.Lib.Ascii
import GenOS.Lib.Fallible

namespace GenOS.Memory

open GenOS.Lib

/-! ## §1. The hand-off record. -/

/-- `MAX_MEMORY_REGIONS`. -/
def maxMemoryRegions : Nat := 256

/-- `MAX_CMDLINE_LEN`. -/
def maxCmdlineLen : Nat := 128

/-- `BOOT_INFO_MAGIC`. -/
def bootInfoMagic : UInt64 := 0x47454e4f535f4249

/-- `BOOT_INFO_VERSION`. -/
def bootInfoVersion : UInt32 := 1

structure FramebufferInfo where
  base : UInt64
  size : UInt64
  width : UInt32
  height : UInt32
  stride : UInt32
  deriving DecidableEq, Repr

structure InitrdInfo where
  base : UInt64
  size : UInt64
  deriving DecidableEq, Repr

structure MemoryMapInfo where
  regionCount : UInt64
  regions : List MemoryRegion
  full : regions.length = maxMemoryRegions

/-- The used part `regions[..region_count]` of the table. -/
def MemoryMapInfo.entries (map : MemoryMapInfo) : List MemoryRegion :=
  map.regions.take map.regionCount.toNat

structure BootInfo where
  magic : UInt64
  version : UInt32
  framebuffer : FramebufferInfo
  memoryMap : MemoryMapInfo
  initrd : InitrdInfo
  cmdlineLen : UInt32
  cmdline : Bytes
  cmdlineFull : cmdline.length = maxCmdlineLen

/-- `size_of::<BootInfo>()`: the header, the framebuffer, the map with 24 bytes
for each region, the initrd, the length and the command line, padded to 8. -/
def bootInfoSize : Nat := (16 + 32 + (8 + maxMemoryRegions * 24) + 16 + 4 + maxCmdlineLen + 7) / 8 * 8

inductive BootMemoryError where
  | header
  | commandLine
  | descriptorVersion
  | descriptorStride
  | descriptorLength
  | capacity
  | empty
  | range
  | alignment
  | overlap
  | unreserved
  | framebuffer
  deriving DecidableEq, Repr

/-! ## §2. Ranges. -/

/-- `range_end`. -/
def rangeEnd (start size : Nat) : Except BootMemoryError Nat :=
  if size = 0 then .error .range
  else if 2 ^ 64 ≤ start + size then .error .range
  else .ok (start + size)

/-- The end of a region whose addition does not overflow. -/
def MemoryRegion.stop (r : MemoryRegion) : Nat := r.start.toNat + r.size.toNat

/-! ## §3. The memory map. -/

/-- The loop of `validate_map`; `previous` are the regions already checked. -/
def validateRegions (previous : List MemoryRegion) :
    List MemoryRegion → Except BootMemoryError Unit
  | [] => .ok ()
  | region :: rest => do
    let stop ← rangeEnd region.start.toNat region.size.toNat
    if region.start.toNat % pageSize ≠ 0 ∨ region.size.toNat % pageSize ≠ 0 then
      .error .alignment
    else if previous.any (fun p => decide (region.start.toNat < p.stop)
        && decide (p.start.toNat < stop)) then .error .overlap
    else validateRegions (previous ++ [region]) rest

/-- `validate_map`. -/
def validateMap (map : MemoryMapInfo) : Except BootMemoryError (List MemoryRegion) :=
  if maxMemoryRegions < map.regionCount.toNat then .error .capacity
  else if map.regionCount = 0 then .error .empty
  else do
    validateRegions [] map.entries
    .ok map.entries

/-! ## §4. Retained memory. -/

/-- Regions of these kinds stay with the loader and the kernel. -/
def MemoryRegionKind.retained : MemoryRegionKind → Bool
  | .bootloader => true
  | .kernel => true
  | _ => false

/-- Does the region retain the byte at `cursor`? -/
def MemoryRegion.retains (r : MemoryRegion) (cursor : Nat) : Bool :=
  r.kind.retained && decide (r.start.toNat ≤ cursor) && decide (r.stop < 2 ^ 64)
    && decide (cursor < r.stop)

/-- The loop of `require_retained`; every round moves the cursor forward. -/
def retainedFrom (regions : List MemoryRegion) (stop cursor : Nat) :
    Except BootMemoryError Unit :=
  if cursor < stop then
    match _h : regions.find? (fun r => r.retains cursor) with
    | none => .error .unreserved
    | some r => retainedFrom regions stop (min r.stop stop)
  else .ok ()
termination_by stop - cursor
decreasing_by
  have hr := List.find?_some _h
  simp only [MemoryRegion.retains, Bool.and_eq_true, decide_eq_true_eq] at hr
  omega

section

variable (regions : List MemoryRegion)

/-- `require_retained`. -/
def requireRetained (start size : Nat) : Except BootMemoryError Unit := do
  let stop ← rangeEnd start size
  retainedFrom regions stop start

/-! ## §5. The whole hand-off. -/

/-- The initrd is absent, at address zero, or retained. -/
def validateInitrd (initrd : InitrdInfo) : Except BootMemoryError Unit :=
  if initrd.size = 0 then
    if initrd.base ≠ 0 then .error .range else .ok ()
  else requireRetained regions initrd.base.toNat initrd.size.toNat

/-- The framebuffer is absent, or large enough and outside usable memory. -/
def validateFramebuffer (fb : FramebufferInfo) : Except BootMemoryError Unit :=
  if fb.size = 0 then
    if fb.base ≠ 0 ∨ fb.width ≠ 0 ∨ fb.height ≠ 0 ∨ fb.stride ≠ 0 then .error .framebuffer
    else .ok ()
  else do
    let stop ← rangeEnd fb.base.toNat fb.size.toNat
    let needed := fb.stride.toNat * fb.height.toNat * 4
    if 2 ^ 64 ≤ needed then .error .framebuffer
    else if fb.width = 0 ∨ fb.height = 0 ∨ fb.stride < fb.width ∨ fb.size.toNat < needed
        ∨ regions.any (fun r => decide (r.kind = .usable) && decide (r.start.toNat < stop)
          && decide (fb.base.toNat < r.stop)) = true then .error .framebuffer
    else .ok ()

end

/-- `validate_boot_info`. -/
def validateBootInfo (info : BootInfo) (infoAddress kernelStart kernelSize : UInt64) :
    Except BootMemoryError Unit :=
  if info.magic ≠ bootInfoMagic ∨ info.version ≠ bootInfoVersion then .error .header
  else if maxCmdlineLen < info.cmdlineLen.toNat
      ∨ fromUtf8 (info.cmdline.take info.cmdlineLen.toNat) = none then .error .commandLine
  else do
    let regions ← validateMap info.memoryMap
    requireRetained regions infoAddress.toNat bootInfoSize
    requireRetained regions kernelStart.toNat kernelSize.toNat
    validateInitrd regions info.initrd
    validateFramebuffer regions info.framebuffer

end GenOS.Memory
