/-
  GenOS.Memory.FrameAllocator — the bitmap frame allocator of `physmem.rs`.

  Managed memory is a sorted list of page ranges.  Its pages are numbered from
  the lowest address on, and bit `i` of the bitmap says whether page `i` is
  allocated.  The bitmap capacity `words` is a parameter, as `WORDS` is in the
  source.

  Addresses are natural numbers below `2 ^ 64`; a firmware region keeps its
  `u64` fields.  `regions` is the used part `regions[..region_count]` of the
  array.  Counters that saturate in the source do so here; the others never
  reach their bound, because they count pages of the bitmap.
-/
import GenOS.Lib.Words
import Mathlib.Data.List.DropRight

namespace GenOS.Memory

open GenOS.Lib

/-! ## §1. Data model. -/

/-- `PAGE_SIZE`. -/
def pageSize : Nat := 4096

/-- `MAX_USABLE_REGIONS`. -/
def maxUsableRegions : Nat := 64

/-- `KERNEL_BITMAP_WORDS`. -/
def kernelBitmapWords : Nat := 32768

inductive MemoryRegionKind where
  | usable
  | bootloader
  | kernel
  | framebuffer
  | acpi
  | mmio
  | reserved
  deriving DecidableEq, Repr

/-- A region of the firmware memory map. -/
structure MemoryRegion where
  start : UInt64
  size : UInt64
  kind : MemoryRegionKind
  deriving DecidableEq, Repr

/-- A range of managed pages; `first` is the number of its first page. -/
structure FrameRegion where
  start : Nat
  stop : Nat
  first : Nat
  deriving DecidableEq, Repr

/-- `FrameRegion::frames`. -/
def FrameRegion.frames (r : FrameRegion) : Nat := (r.stop - r.start) / pageSize

structure FrameAllocator (words : Nat) where
  regions : List FrameRegion
  allocated : Words
  frameCount : Nat
  nextWord : Nat
  highWater : Nat
  allocatedFrames : Nat
  started : Bool
  peakLive : Nat
  allocations : Nat
  releases : Nat
  allocationFailures : Nat
  invalidReleases : Nat
  preparationFailures : Nat

/-- `saturating_add(1)` on `u64`. -/
def saturatingSucc (n : Nat) : Nat := min (n + 1) (2 ^ 64 - 1)

/-- `align_up` to a page. -/
def alignUp (value : Nat) : Nat := min (value + (pageSize - 1)) (2 ^ 64 - 1) / pageSize * pageSize

/-- `align_down` to a page. -/
def alignDown (value : Nat) : Nat := value / pageSize * pageSize

namespace FrameAllocator

variable {words : Nat}

/-- `FrameAllocator::new`. -/
def new : FrameAllocator words := ⟨[], fun _ => 0, 0, 0, 0, 0, false, 0, 0, 0, 0, 0, 0⟩

/-! ## §2. Adding regions. -/

/-- The loop that numbers the regions again. -/
def renumber : Nat → List FrameRegion → List FrameRegion
  | _, [] => []
  | first, r :: rest => { r with first := first } :: renumber (first + r.frames) rest

/-- The shifting loop: the new region goes before all later ones. -/
def insertRegion (regions : List FrameRegion) (r : FrameRegion) : List FrameRegion :=
  regions.rdropWhile (fun x => decide (r.start < x.start)) ++ r
    :: regions.rtakeWhile (fun x => decide (r.start < x.start))

section

variable (a : FrameAllocator words)

/-- Does the range touch a managed region? -/
def overlaps (start stop : Nat) : Bool :=
  a.regions.any (fun r => decide (start < r.stop) && decide (r.start < stop))

/-- `add_region`. -/
def addRegion (region : MemoryRegion) : FrameAllocator words × Bool :=
  if region.kind ≠ .usable then (a, true)
  else if a.started then (a, false)
  else
    let start := alignUp (max region.start.toNat pageSize)
    let rawEnd := region.start.toNat + region.size.toNat
    if 2 ^ 64 ≤ rawEnd then (a, false)
    else
      let stop := alignDown rawEnd
      if stop ≤ start then (a, true)
      else
        let total := a.frameCount + (stop - start) / pageSize
        if a.regions.length = maxUsableRegions ∨ words * 64 < total ∨ a.overlaps start stop = true
        then (a, false)
        else
          ({ a with
              regions := renumber 0 (insertRegion a.regions ⟨start, stop, 0⟩)
              frameCount := total
              nextWord := 0 }, true)

/-! ## §3. Allocating. -/

/-- The number of bitmap words in use: `frame_count.div_ceil(64)`. -/
def usedWords : Nat := (a.frameCount + 63) / 64

/-- The free pages of a word. -/
def freeIn (word : Nat) : BitVec 64 :=
  a.allocated.freeBits word (min (a.frameCount - word * 64) 64)

/-- The search loop: the first word with a free page, or the end. -/
def scanWords (a : FrameAllocator words) : Nat → Nat → Nat
  | 0, word => word
  | remaining + 1, word =>
    if a.freeIn word = 0#64 then scanWords a remaining (word + 1) else word

/-- The region of a page number. -/
def regionOf (index : Nat) : Option FrameRegion :=
  a.regions.find? (fun r => decide (r.first ≤ index) && decide (index - r.first < r.frames))

/-- The bookkeeping of a successful allocation. -/
def grant (word bit : Nat) : FrameAllocator words :=
  { a with
    allocated := a.allocated.setBit word bit
    highWater := max a.highWater (word * 64 + bit + 1)
    allocatedFrames := a.allocatedFrames + 1
    peakLive := max a.peakLive (a.allocatedFrames + 1)
    allocations := saturatingSucc a.allocations
    started := true }

end

/-- `alloc_frame`. -/
def allocFrame (a₀ : FrameAllocator words) : FrameAllocator words × Option Nat :=
  let word := a₀.scanWords (a₀.usedWords - a₀.nextWord) a₀.nextWord
  let a := { a₀ with nextWord := word }
  if word < a.usedWords then
    let bit := (a.freeIn word).ctz.toNat
    let index := word * 64 + bit
    match a.regionOf index with
    | none => (a, none)
    | some r => (a.grant word bit, some (r.start + (index - r.first) * pageSize))
  else ({ a with allocationFailures := saturatingSucc a.allocationFailures }, none)

/-! ## §4. Releasing. -/

variable (a : FrameAllocator words) (frame : Nat)

/-- `live_index`: the page number of an allocated page. -/
def liveIndex : Option Nat :=
  if frame = 0 ∨ frame % pageSize ≠ 0 then none
  else
    match a.regions.find? (fun r => decide (r.start ≤ frame) && decide (frame < r.stop)) with
    | none => none
    | some r =>
      let index := r.first + (frame - r.start) / pageSize
      if a.allocated.testBit index then some index else none

/-- `contains_live`. -/
def containsLive : Bool := (a.liveIndex frame).isSome

/-- The bookkeeping of a successful release. -/
def retract (index : Nat) : FrameAllocator words :=
  { a with
    allocated := a.allocated.clearBit (index / 64) (index % 64)
    allocatedFrames := a.allocatedFrames - 1
    releases := saturatingSucc a.releases
    nextWord := min a.nextWord (index / 64) }

/-- `free_frame_with`: the preparation runs on the outside state `s`. -/
def freeFrameWith {σ : Type} (prepare : Nat → σ → σ × Bool) (s : σ) :
    FrameAllocator words × σ × Bool :=
  match a.liveIndex frame with
  | none => ({ a with invalidReleases := saturatingSucc a.invalidReleases }, s, false)
  | some index =>
    match prepare frame s with
    | (s', false) =>
      ({ a with preparationFailures := saturatingSucc a.preparationFailures }, s', false)
    | (s', true) => (a.retract index, s', true)

/-! ## §5. The self check. -/

/-- The loop over the regions: the number of pages counted, or `none` where a
region is out of place. -/
def checkRegions : Nat → Nat → List FrameRegion → Option Nat
  | first, _, [] => some first
  | first, stop, r :: rest =>
    if r.start < stop ∨ r.stop ≤ r.start ∨ r.first ≠ first ∨ r.start % pageSize ≠ 0
        ∨ r.stop % pageSize ≠ 0 then none
    else checkRegions (first + r.frames) r.stop rest

/-- `is_consistent`. -/
def isConsistent : Bool :=
  if maxUsableRegions < a.regions.length ∨ words * 64 < a.frameCount
      ∨ a.frameCount < a.highWater ∨ a.highWater < a.allocatedFrames
      ∨ a.peakLive < a.allocatedFrames ∨ a.frameCount < a.peakLive
      ∨ (a.allocatedFrames ≠ 0 ∧ a.started = false) then false
  else if a.usedWords < a.nextWord
      ∨ ((List.range words).drop a.usedWords).any (fun word => a.allocated word != 0#64) then false
  else if a.frameCount % 64 ≠ 0
      ∧ a.allocated (a.usedWords - 1) >>> (a.frameCount % 64) ≠ 0#64 then false
  else
    match checkRegions 0 pageSize a.regions with
    | none => false
    | some first =>
      first == a.frameCount
        && ((List.range a.usedWords).map (fun word => Words.countOnes (a.allocated word))).sum
          == a.allocatedFrames

end FrameAllocator

end GenOS.Memory
