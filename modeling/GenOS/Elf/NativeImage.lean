/-
  GenOS.Elf.NativeImage — the page plan of a native program.

  `ElfImage::parse` checks the program header table, `Plan::parse` turns the load
  segments into pages.  The pages of a plan are those of its segments, one after
  the other (`Builder.Built`); each starts with a slice of the file and is zero
  behind it, as the segment says.
-/
import GenOS.Lib.Checked
import Mathlib.Data.List.Nodup
import Mathlib.Data.List.Perm.Subperm
import Mathlib.Data.Nat.Bitwise

namespace GenOS.NativeImage

open GenOS.Lib GenOS.Lib.Checked

/-! ## §1. The ELF file. -/

inductive ElfError where
  | truncated | invalidMagic | unsupported | invalidHeaders | invalidSegment

structure Segment where
  fileOffset : Nat
  virtualAddress : Nat
  memorySize : Nat
  flags : BitVec 32
  align : Nat
  fileData : Bytes

open Segment

structure ElfImage where
  bytes : Bytes
  entry : Nat
  programOffset : Nat
  programCount : Nat

open ElfImage

/-- `read_u16`, `read_u32` and `read_u64`. -/
def readWord (width : Nat) (bytes : Bytes) (offset : Nat) : Checked ElfError Nat := do
  let stop ← add offset width
  require (stop ≤ bytes.length) .truncated
  pure (leNat (range bytes offset stop))

variable (image : ElfImage) (s : Segment) (bytes : Bytes) (index : Nat)

/-- `read_segment`. -/
def readSegment (offset : Nat) : Checked ElfError Segment := do
  let flags ← readWord 4 bytes (offset + 4)
  let fileOffset ← readWord 8 bytes (offset + 8)
  let virtualAddress ← readWord 8 bytes (offset + 16)
  let fileSize ← readWord 8 bytes (offset + 32)
  let memorySize ← readWord 8 bytes (offset + 40)
  let align ← readWord 8 bytes (offset + 48)
  require (¬ (memorySize = 0 ∨ memorySize < fileSize ∨ isPowerOfTwo align = false)) .invalidSegment
  let fileEnd ← checkedAdd fileOffset fileSize .invalidSegment
  require (fileEnd ≤ bytes.length) .truncated
  pure ⟨fileOffset, virtualAddress, memorySize, BitVec.ofNat 32 flags, align,
    range bytes fileOffset fileEnd⟩

/-- What `SegmentIter::next` finds at one program header. -/
def ElfImage.next : Checked ElfError (Option Segment) := do
  let offset ← add image.programOffset (index * 56)
  let kind ← readWord 4 image.bytes offset
  if kind ≠ 1 then pure none
  else do
    let segment ← readSegment image.bytes offset
    pure (some segment)

/-- `ElfImage::parse`. -/
def ElfImage.parse : Checked ElfError ElfImage := do
  require (64 ≤ bytes.length) .truncated
  require (range bytes 0 4 = [0x7f, 0x45, 0x4c, 0x46]) .invalidMagic
  let kind ← readWord 2 bytes 16
  let machine ← readWord 2 bytes 18
  let version ← readWord 4 bytes 20
  require (range bytes 4 7 = [2, 1, 1] ∧ kind = 2 ∧ machine = 62 ∧ version = 1) .unsupported
  let headerSize ← readWord 2 bytes 52
  let entrySize ← readWord 2 bytes 54
  require (headerSize = 64 ∧ entrySize = 56) .invalidHeaders
  let entry ← readWord 8 bytes 24
  let programOffset ← readWord 8 bytes 32
  let programCount ← readWord 2 bytes 56
  require (¬ (entry = 0 ∨ programOffset < 64 ∨ programCount = 0 ∨ 16 < programCount))
    .invalidHeaders
  let tableEnd ← checkedAdd programOffset (programCount * 56) .invalidHeaders
  require (tableEnd ≤ bytes.length) .truncated
  let image : ElfImage := ⟨bytes, entry, programOffset, programCount⟩
  let loadSegments ← (List.range programCount).foldlM (fun count index => do
    let segment ← image.next index
    pure (if segment.isSome then count + 1 else count)) 0
  require (loadSegments ≠ 0) .invalidSegment
  pure image

/-! ## §2. The plan. -/

/-- `USER_BASE`. -/
@[irreducible] def userBase : Nat := 0x400000000000

def userCode : Nat := userBase + 0x1000

def userData : Nat := userBase + 0x2000

def userStackGuard : Nat := userBase + 0xb000

def pageSize : Nat := 4096

/-- `IMAGE_PAGE_CAPACITY`. -/
def imagePageCapacity : Nat := 10

/-- `USER_EXECUTABLE_PAGE_CAPACITY`. -/
def executablePageCapacity : Nat := 8

inductive Error where
  | invalidElf | invalidLayout

structure Page where
  address : Nat
  bytes : Bytes
  writable : Bool
  executable : Bool
  processData : Bool

structure Plan where
  pages : List Page
  entry : Nat
  executableStart : Nat
  executableEnd : Nat
  segmentCount : Nat

/-- The plan under construction, with the local variables of `Plan::parse`. -/
structure Builder extends Plan where
  mappedPages : Nat
  executablePages : Nat
  entryIsExecutable : Bool
  processData : Bool

def Segment.readable : Bool := s.flags &&& 4 != 0

def Segment.writable : Bool := s.flags &&& 2 != 0

def Segment.executable : Bool := s.flags &&& 1 != 0

/-- `memory_size.div_ceil(PAGE_SIZE)`. -/
def Segment.pageCount : Nat := (s.memorySize + (pageSize - 1)) / pageSize

/-- The file bytes of a page. -/
def copySlice (data : Bytes) (offset copyLen : Nat) : Checked Error Bytes :=
  if copyLen = 0 then pure [] else slice data offset (offset + copyLen)

/-- The body of the loop over the pages of a segment. -/
def addPage (b : Builder) (index : Nat) : Checked Error Builder := do
  let address ← add s.virtualAddress (index * pageSize)
  let distance ← sub address userCode
  let imagePage := distance / pageSize
  require (¬ (imagePageCapacity ≤ imagePage ∨ b.mappedPages &&& 1 <<< imagePage ≠ 0)) .invalidLayout
  let offset := index * pageSize
  let copyLen := min (s.fileData.length - offset) pageSize
  let bytes ← copySlice s.fileData offset copyLen
  let isProcessData := decide (address = userData) && s.writable && decide (16 ≤ s.memorySize)
    && decide (16 ≤ s.fileData.length)
  if b.pages.length < imagePageCapacity then
    pure { b with
      pages := b.pages ++ [⟨address, bytes, s.writable, s.executable, isProcessData⟩]
      mappedPages := b.mappedPages ||| 1 <<< imagePage
      processData := b.processData || isProcessData }
  else abort

/-- The permissions and the alignment of a segment. -/
def Segment.layoutOk : Bool :=
  s.readable && s.flags &&& ~~~7 == 0 && !(s.writable && s.executable)
    && decide (pageSize ≤ s.align)
    && s.virtualAddress &&& (s.align - 1) == s.fileOffset &&& (s.align - 1)
    && s.virtualAddress % pageSize == 0

/-- What an executable segment adds before its pages. -/
def Builder.noteExecutable (b : Builder) (s : Segment) (stop : Nat) : Builder :=
  if s.executable then
    { b with
      entryIsExecutable := b.entryIsExecutable
        || (decide (s.virtualAddress ≤ b.entry) && decide (b.entry < stop))
      executableStart := min b.executableStart s.virtualAddress
      executableEnd := max b.executableEnd stop }
  else b

/-- The executable pages are counted before they are added. -/
def countExecutable (b : Builder) : Checked Error Builder :=
  if s.executable then do
    let total ← add b.executablePages s.pageCount
    require (total ≤ executablePageCapacity) .invalidLayout
    pure { b with executablePages := total }
  else pure b

/-- The body of the loop over the segments. -/
def addSegment (b : Builder) (s : Segment) : Checked Error Builder := do
  require (s.layoutOk = true) .invalidLayout
  let stop ← checkedAdd s.virtualAddress s.memorySize .invalidLayout
  require (¬ (s.virtualAddress < userCode ∨ userStackGuard < stop)) .invalidLayout
  require (¬ (s.pageCount = 0 ∨ 16 < s.pageCount)) .invalidLayout
  let b ← countExecutable s (b.noteExecutable s stop)
  let b ← (List.range s.pageCount).foldlM (addPage s) b
  if b.segmentCount + 1 < 256 then pure { b with segmentCount := b.segmentCount + 1 } else abort

/-- `Plan::parse`. -/
def Plan.parse (bytes : Bytes) : Checked Error Plan := do
  let image ← (ElfImage.parse bytes).mapError fun _ => .invalidElf
  require (¬ (image.entry < userCode ∨ userStackGuard ≤ image.entry)) .invalidLayout
  let start : Builder := ⟨⟨[], image.entry, 2 ^ 64 - 1, 0, 0⟩, 0, 0, false, false⟩
  let b ← (List.range image.programCount).foldlM (fun b index => do
    let segment ← (image.next index).mapError fun _ => .invalidElf
    match segment with
    | none => pure b
    | some segment => addSegment b segment) start
  require (b.entryIsExecutable = true ∧ b.processData = true) .invalidLayout
  pure b.toPlan

/-! ## §3. What the file says. -/

/-- The program header at an index. -/
def ElfImage.header : Bytes :=
  image.bytes.drop (image.programOffset + index * 56)

/-- The load segment that a program header describes, if it is one. -/
def segmentAt (bytes header : Bytes) : Option Segment :=
  if leNat (range header 0 4) ≠ 1 then none
  else
    some
      { fileOffset := leNat (range header 8 16)
        virtualAddress := leNat (range header 16 24)
        memorySize := leNat (range header 40 48)
        flags := BitVec.ofNat 32 (leNat (range header 4 8))
        align := leNat (range header 48 56)
        fileData := range bytes (leNat (range header 8 16))
          (leNat (range header 8 16) + leNat (range header 32 40)) }

/-- The image with the fields of the file header. -/
def ElfImage.ofBytes : ElfImage where
  bytes := bytes
  entry := leNat (range bytes 24 32)
  programOffset := leNat (range bytes 32 40)
  programCount := leNat (range bytes 56 58)

/-- The load segments of the program headers with these indices. -/
def ElfImage.segmentsAt (indices : List Nat) : List Segment :=
  indices.filterMap fun index => segmentAt image.bytes (image.header index)

/-- The load segments of a file. -/
def loadSegments : List Segment :=
  (ElfImage.ofBytes bytes).segmentsAt (List.range (ElfImage.ofBytes bytes).programCount)

/-- The table is short and its end is a word. -/
structure ElfImage.Bounded (image : ElfImage) : Prop where
  count : image.programCount ≤ 16
  fits : image.programOffset + image.programCount * 56 < 2 ^ 64

variable {offset : Nat} {b : Builder}

section Elf

variable {bytes : Bytes}

theorem readWord_lands {width : Nat} (hfits : offset + width < 2 ^ 64) :
    Safe (readWord width bytes offset) (· = leNat (range bytes offset (offset + width))) := by
  refine (lands_add hfits).next ?_
  refine .require fun _ => ?_
  exact .pure rfl

/-- A field of the header at `offset`. -/
theorem readField_lands (start stop : Nat) (horder : start ≤ stop)
    (hfits : offset + stop < 2 ^ 64) :
    Safe (readWord (stop - start) bytes (offset + start))
      (· = leNat (range (bytes.drop offset) start stop)) := by
  have hrange : range (bytes.drop offset) start stop
      = range bytes (offset + start) (offset + start + (stop - start)) := by
    simp only [range, List.take_drop, List.drop_drop]
    congr 2
    omega
  rw [hrange]
  exact readWord_lands (by omega)

theorem readSegment_lands (hfits : offset + 56 < 2 ^ 64)
    (hkind : leNat (range (bytes.drop offset) 0 4) = 1) :
    Safe (readSegment bytes offset) fun s => segmentAt bytes (bytes.drop offset) = some s
      ∧ 0 < s.memorySize ∧ s.fileData.length ≤ s.memorySize := by
  refine (readField_lands 4 8 (by decide) (by omega)).next ?_
  refine (readField_lands 8 16 (by decide) (by omega)).next ?_
  refine (readField_lands 16 24 (by decide) (by omega)).next ?_
  refine (readField_lands 32 40 (by decide) (by omega)).next ?_
  refine (readField_lands 40 48 (by decide) (by omega)).next ?_
  refine (readField_lands 48 56 (by decide) (by omega)).next ?_
  refine .require fun hsizes => ?_
  refine .checkedAdd fun _ => ?_
  refine .require fun hfile => ?_
  obtain ⟨hpositive, hsmall, -⟩ := not_or.mp hsizes |>.imp id not_or.mp
  refine .pure ⟨?_, Nat.pos_of_ne_zero hpositive, ?_⟩
  · rw [segmentAt, if_neg (not_not.mpr hkind)]
  · rw [range_length hfile, Nat.add_sub_cancel_left]
    exact Nat.le_of_not_lt hsmall

theorem ElfImage.next_lands {image : ElfImage} (h : image.Bounded) {index : Nat}
    (hindex : index < image.programCount) :
    Safe (image.next index) fun r => r = segmentAt image.bytes (image.header index)
      ∧ ∀ s ∈ r, 0 < s.memorySize ∧ s.fileData.length ≤ s.memorySize := by
  have hfits := h.fits
  have hroom : index * 56 + 56 ≤ image.programCount * 56 := by
    rw [← Nat.succ_mul]
    exact Nat.mul_le_mul_right 56 hindex
  refine (lands_add (by omega)).next ?_
  have hkind : Safe (readWord 4 image.bytes (image.programOffset + index * 56))
      (· = leNat (range (image.header index) 0 4)) := by
    rw [← Nat.add_zero (image.programOffset + index * 56)]
    exact readField_lands 0 4 (by decide) (by omega)
  refine hkind.next ?_
  split
  · rename_i hkind
    refine .pure ⟨?_, nofun⟩
    rw [segmentAt, if_pos hkind]
  · rename_i hkind
    refine (readSegment_lands (by omega) (not_not.mp hkind)).bind fun s hs => ?_
    refine .pure ⟨hs.1.symm, ?_⟩
    rintro s' ⟨⟩
    exact hs.2

theorem ElfImage.parse_lands : Safe (parse bytes) fun image =>
    image = ofBytes bytes ∧ image.Bounded := by
  refine .require fun hlen => ?_
  refine .require fun _ => ?_
  refine (readWord_lands (by decide)).next ?_
  refine (readWord_lands (by decide)).next ?_
  refine (readWord_lands (by decide)).next ?_
  refine .require fun _ => ?_
  refine (readWord_lands (by decide)).next ?_
  refine (readWord_lands (by decide)).next ?_
  refine .require fun _ => ?_
  refine (readWord_lands (by decide)).bind fun entry hentry => ?_
  refine (readWord_lands (by decide)).bind fun programOffset hoffset => ?_
  refine (readWord_lands (by decide)).bind fun programCount hprogram => ?_
  refine .require fun hcount => ?_
  refine (safe_checkedAdd _ _ _).bind fun tableEnd htable => ?_
  refine .require fun hend => ?_
  have hbounded : ElfImage.Bounded ⟨bytes, entry, programOffset, programCount⟩ := by
    refine ⟨?_, ?_⟩ <;> dsimp only <;> omega
  refine (Lands.foldlM (fun _ _ => True) ?_ trivial).bind fun _ _ => ?_
  · intro done index rest count hsplit _
    have hindex : index < programCount := List.mem_range.mp (by rw [hsplit]; simp)
    refine (next_lands hbounded hindex).bind fun _ _ => ?_
    exact Lands.pure trivial
  refine .require fun _ => ?_
  refine Lands.pure ⟨?_, hbounded⟩
  rw [hentry, hoffset, hprogram]
  rfl

end Elf

/-! ## §4. Pages. -/

/-- The page of a segment at an index. -/
def Segment.page : Page where
  address := s.virtualAddress + index * pageSize
  bytes := (s.fileData.drop (index * pageSize)).take pageSize
  writable := s.writable
  executable := s.executable
  processData := decide (s.virtualAddress + index * pageSize = userData) && s.writable
    && decide (16 ≤ s.memorySize) && decide (16 ≤ s.fileData.length)

def Segment.pages : List Page := (List.range s.pageCount).map s.page

/-- The segment has passed the checks. -/
structure Segment.Accepted (s : Segment) : Prop where
  exclusive : ¬ (s.writable = true ∧ s.executable = true)
  aligned : s.virtualAddress % pageSize = 0
  base : userCode ≤ s.virtualAddress
  top : s.virtualAddress + s.memorySize ≤ userStackGuard
  file : s.fileData.length ≤ s.memorySize

/-- The page has one of the places of the image, which is marked. -/
def Page.Marked (mapped : Nat) (p : Page) : Prop :=
  ∃ k < imagePageCapacity, p.address = userCode + k * pageSize ∧ mapped.testBit k = true

/-- The pages have different places, all of them marked. -/
structure Placed (pages : List Page) (mapped : Nat) : Prop where
  marked : ∀ p ∈ pages, p.Marked mapped
  distinct : (pages.map Page.address).Nodup

/-- There are no more pages than places. -/
theorem Placed.length_le {pages : List Page} {mapped : Nat} (h : Placed pages mapped) :
    pages.length ≤ imagePageCapacity := by
  have hsub : pages.map Page.address
      ⊆ (List.range imagePageCapacity).map fun k => userCode + k * pageSize := by
    intro address haddress
    obtain ⟨p, hp, rfl⟩ := List.mem_map.mp haddress
    obtain ⟨k, hk, hplace, -⟩ := h.marked p hp
    exact List.mem_map.mpr ⟨k, List.mem_range.mpr hk, hplace.symm⟩
  have hle := (List.subperm_of_subset h.distinct hsub).length_le
  simpa using hle

theorem Placed.push {pages : List Page} {mapped k : Nat} (h : Placed pages mapped) {p : Page}
    (hk : k < imagePageCapacity) (hplace : p.address = userCode + k * pageSize)
    (hfree : mapped &&& 1 <<< k = 0) : Placed (pages ++ [p]) (mapped ||| 1 <<< k) := by
  have hclear : mapped.testBit k = false := by
    rw [Nat.one_shiftLeft] at hfree
    have hbit := congrArg (fun n => n.testBit k) hfree
    simpa [Nat.testBit_and, Nat.testBit_two_pow_self] using hbit
  constructor
  · intro q hq
    rcases List.mem_append.mp hq with hq | hq
    · obtain ⟨j, hj, haddress, hbit⟩ := h.marked q hq
      exact ⟨j, hj, haddress, by rw [Nat.testBit_or, hbit, Bool.true_or]⟩
    · rw [List.mem_singleton.mp hq]
      exact ⟨k, hk, hplace, by
        rw [Nat.testBit_or, Nat.one_shiftLeft, Nat.testBit_two_pow_self, Bool.or_true]⟩
  · rw [List.map_append, List.nodup_append]
    refine ⟨h.distinct, List.nodup_singleton _, ?_⟩
    intro a ha b hb hab
    obtain rfl := List.mem_singleton.mp hb
    obtain ⟨q, hq, rfl⟩ := List.mem_map.mp ha
    obtain ⟨j, hj, haddress, hbit⟩ := h.marked q hq
    have hsame : j = k := by
      rw [haddress, hplace] at hab
      unfold pageSize at hab
      omega
    rw [hsame, hclear] at hbit
    cases hbit

/-- What the pages of a segment add to the builder. -/
structure Extends (s : Segment) (done : List Nat) (b b' : Builder) : Prop where
  pages : b'.pages = b.pages ++ done.map s.page
  placed : Placed b'.pages b'.mappedPages
  entry : b'.entry = b.entry
  executablePages : b'.executablePages = b.executablePages
  entryIsExecutable : b'.entryIsExecutable = b.entryIsExecutable
  segmentCount : b'.segmentCount = b.segmentCount
  processData : b'.processData = (b.processData || (done.map s.page).any Page.processData)

section Pages

variable {s : Segment}

theorem copySlice_lands (s : Segment) (index : Nat) :
    Safe (copySlice s.fileData (index * pageSize)
      (min (s.fileData.length - index * pageSize) pageSize)) (· = (s.page index).bytes) := by
  have hbytes : (s.page index).bytes = (s.fileData.drop (index * pageSize)).take
      (min (s.fileData.length - index * pageSize) pageSize) := by
    rw [Nat.min_comm, ← List.length_drop, ← List.take_eq_take_min]
    rfl
  rw [hbytes]
  unfold copySlice
  split
  · rename_i hnone
    refine .pure ?_
    rw [hnone, List.take_zero]
  · refine (lands_slice (Nat.le_add_right _ _) (by omega)).mono ?_
    rintro bytes rfl
    rw [range, List.drop_take, Nat.add_sub_cancel_left]

theorem addPage_lands (h : s.Accepted) {index : Nat} (hindex : index < s.pageCount) {b' : Builder}
    {done : List Nat} (hb : Extends s done b b') :
    Safe (addPage s b' index) (Extends s (done ++ [index]) b) := by
  have hbase := h.base
  have htop := h.top
  have haligned := h.aligned
  have hword : userBase < 2 ^ 47 ∧ userBase % 4096 = 0 := by
    unfold userBase
    decide
  unfold pageCount at hindex
  unfold userStackGuard at htop
  unfold userCode at hbase
  unfold pageSize at hindex haligned
  refine (lands_add (by unfold pageSize; omega)).bind fun address haddress => ?_
  unfold pageSize at haddress
  refine (lands_sub (by unfold userCode; omega)).bind fun distance hdistance => ?_
  refine .require fun hfree => ?_
  obtain ⟨hk, hfree⟩ := not_or.mp hfree
  refine (copySlice_lands s index).bind fun bytes hbytes => ?_
  have hpage : Page.mk address bytes s.writable s.executable (decide (address = userData)
      && s.writable && decide (16 ≤ s.memorySize) && decide (16 ≤ s.fileData.length))
        = s.page index := by
    rw [haddress, hbytes]
    rfl
  have hplace : (s.page index).address = userCode + distance / pageSize * pageSize := by
    show s.virtualAddress + index * pageSize = _
    unfold userCode at hdistance ⊢
    unfold pageSize
    omega
  have hplaced := hb.placed.push (Nat.lt_of_not_le hk) hplace (not_not.mp hfree)
  have hroom := hplaced.length_le
  rw [List.length_append] at hroom
  dsimp only
  rw [hpage, if_pos (show b'.pages.length < imagePageCapacity from hroom)]
  refine .pure ⟨?_, hplaced, hb.entry, hb.executablePages, hb.entryIsExecutable,
    hb.segmentCount, ?_⟩
  · show b'.pages ++ [s.page index] = _
    rw [hb.pages, List.map_append, List.append_assoc]
    rfl
  · show (b'.processData || (Page.mk address bytes s.writable s.executable
      (decide (address = userData) && s.writable && decide (16 ≤ s.memorySize)
        && decide (16 ≤ s.fileData.length))).processData) = _
    rw [hpage, hb.processData, List.map_append, List.any_append,
      Bool.or_assoc, List.map_cons, List.map_nil, List.any_cons, List.any_nil, Bool.or_false]

/-- The segments that were taken so far, and what they made of the plan. -/
structure Builder.Built (segments : List Segment) (b : Builder) : Prop where
  pages : b.pages = segments.flatMap Segment.pages
  placed : Placed b.pages b.mappedPages
  accepted : ∀ s ∈ segments, s.Accepted
  executable : b.pages.countP Page.executable = b.executablePages
  bound : b.executablePages ≤ executablePageCapacity
  entered : b.entryIsExecutable = true → ∃ s ∈ segments, s.executable = true
    ∧ s.virtualAddress ≤ b.entry ∧ b.entry < s.virtualAddress + s.memorySize
  processData : b.processData = b.pages.any Page.processData
  count : b.segmentCount = segments.length

/-- All pages of a segment have its permissions. -/
theorem Segment.countP_pages (s : Segment) :
    s.pages.countP Page.executable = if s.executable then s.pageCount else 0 := by
  unfold pages
  rw [List.countP_map]
  cases hx : s.executable
  · rw [if_neg (by decide)]
    exact List.countP_eq_zero.mpr fun index _ => by simp [page, hx]
  · have hall : List.countP (Page.executable ∘ s.page) (List.range s.pageCount)
        = (List.range s.pageCount).length :=
      List.countP_eq_length.mpr fun index _ => by simp [page, hx]
    rw [hall, List.length_range, if_pos rfl]

/-- `noteExecutable` changes what is known about the entry only. -/
theorem Builder.noteExecutable_spec (b : Builder) (s : Segment) (stop : Nat) :
    (b.noteExecutable s stop).pages = b.pages
      ∧ (b.noteExecutable s stop).mappedPages = b.mappedPages
      ∧ (b.noteExecutable s stop).entry = b.entry
      ∧ (b.noteExecutable s stop).executablePages = b.executablePages
      ∧ (b.noteExecutable s stop).processData = b.processData
      ∧ (b.noteExecutable s stop).segmentCount = b.segmentCount
      ∧ ((b.noteExecutable s stop).entryIsExecutable = true → b.entryIsExecutable = true
        ∨ (s.executable = true ∧ s.virtualAddress ≤ b.entry ∧ b.entry < stop)) := by
  unfold noteExecutable
  split
  · rename_i hx
    refine ⟨rfl, rfl, rfl, rfl, rfl, rfl, fun h => ?_⟩
    simpa [hx] using h
  · exact ⟨rfl, rfl, rfl, rfl, rfl, rfl, .inl⟩

theorem countExecutable_lands (hbound : b.executablePages ≤ executablePageCapacity)
    (hpages : s.pageCount ≤ 16) :
    Safe (countExecutable s b) fun b' => b' = { b with executablePages := b'.executablePages }
      ∧ b'.executablePages = b.executablePages + (if s.executable then s.pageCount else 0)
      ∧ b'.executablePages ≤ executablePageCapacity := by
  unfold countExecutable
  unfold executablePageCapacity at hbound
  split
  · refine (lands_add (by omega)).next ?_
    refine .require fun hcapacity => ?_
    exact .pure ⟨rfl, rfl, hcapacity⟩
  · exact .pure ⟨rfl, rfl, hbound⟩

theorem addSegment_lands {segments : List Segment} (hb : b.Built segments)
    (hcount : segments.length < 16) (hfile : s.fileData.length ≤ s.memorySize) :
    Safe (addSegment b s) fun b' => b'.Built (segments ++ [s]) ∧ b'.entry = b.entry := by
  refine .require fun hlayout => ?_
  simp only [layoutOk, Bool.and_eq_true, Bool.not_eq_true', Bool.and_eq_false_iff,
    beq_iff_eq] at hlayout
  obtain ⟨⟨⟨⟨-, hexclusive⟩, -⟩, -⟩, haligned⟩ := hlayout
  refine .checkedAdd fun _ => ?_
  refine .require fun hrange => ?_
  refine .require fun hpages => ?_
  have haccepted : s.Accepted := by
    refine ⟨?_, haligned, by omega, by omega, hfile⟩
    rintro ⟨hw, hx⟩
    rw [hw, hx] at hexclusive
    cases hexclusive <;> contradiction
  obtain ⟨hp, hm, he, hxp, hd, hc, hentered⟩ :=
    b.noteExecutable_spec s (s.virtualAddress + s.memorySize)
  generalize b.noteExecutable s (s.virtualAddress + s.memorySize) = noted at *
  refine (countExecutable_lands (hxp ▸ hb.bound) (by omega)).bind fun counted hcounted => ?_
  obtain ⟨hsame, hpagesAdded, hcapacity⟩ := hcounted
  have hstart : Extends s [] counted counted := by
    refine ⟨(List.append_nil _).symm, ?_, rfl, rfl, rfl, rfl, (Bool.or_false _).symm⟩
    rw [hsame]
    exact hp.symm ▸ hm.symm ▸ hb.placed
  refine (Lands.foldlM (fun done b' => Extends s done counted b') ?_ hstart).bind
    fun built hbuilt => ?_
  · intro done index rest b' hsplit hextends
    refine addPage_lands haccepted (List.mem_range.mp ?_) hextends
    rw [hsplit]
    simp
  have hpages' : built.pages = b.pages ++ s.pages := by
    rw [hbuilt.pages, hsame]
    exact congrArg (· ++ s.pages) hp
  have hcount' : built.segmentCount = segments.length := by
    rw [hbuilt.segmentCount, hsame]
    exact hc.trans hb.count
  have hentry : built.entry = b.entry := by
    rw [hbuilt.entry, hsame]
    exact he
  rw [if_pos (by omega)]
  refine Lands.pure ⟨⟨?_, hbuilt.placed, ?_, ?_, ?_, ?_, ?_, ?_⟩, hentry⟩
  · show built.pages = _
    rw [hpages', hb.pages, List.flatMap_append, List.flatMap_singleton]
  · intro t ht
    rcases List.mem_append.mp ht with ht | ht
    · exact hb.accepted t ht
    · rw [List.mem_singleton.mp ht]
      exact haccepted
  · show built.pages.countP _ = built.executablePages
    rw [hpages', List.countP_append, hb.executable, s.countP_pages, hbuilt.executablePages,
      hpagesAdded, hxp]
  · show built.executablePages ≤ _
    rw [hbuilt.executablePages]
    exact hcapacity
  · show built.entryIsExecutable = true → ∃ t ∈ segments ++ [s], t.executable = true
      ∧ t.virtualAddress ≤ built.entry ∧ built.entry < t.virtualAddress + t.memorySize
    rw [hentry, hbuilt.entryIsExecutable, hsame]
    intro h
    rcases hentered h with h | h
    · obtain ⟨t, ht, hin⟩ := hb.entered h
      exact ⟨t, List.mem_append_left _ ht, hin⟩
    · exact ⟨s, by simp, h⟩
  · show built.processData = built.pages.any _
    rw [hbuilt.processData, hpages', List.any_append, hsame]
    show (noted.processData || s.pages.any _) = _
    rw [hd, hb.processData]
  · show built.segmentCount + 1 = _
    rw [hcount', List.length_append]
    rfl

end Pages

/-! ## §5. Accepted plans. -/

/-- The initial byte of a page at an offset: the file bytes, then zero. -/
def Page.initial (p : Page) (offset : Nat) : UInt8 := p.bytes.getD offset 0

/-- The byte the ELF file gives an address of a load segment. -/
def Segment.meaning (address : Nat) : UInt8 :=
  s.fileData.getD (address - s.virtualAddress) 0

/-- The page covers the address. -/
def Page.Covers (p : Page) (address : Nat) : Prop :=
  p.address ≤ address ∧ address < p.address + pageSize

theorem Segment.page_initial {address : Nat} (hlow : s.virtualAddress ≤ address)
    (hhigh : address < s.virtualAddress + s.memorySize) :
    ∃ p ∈ s.pages, p.Covers address ∧ p.initial (address - p.address) = s.meaning address := by
  let index := (address - s.virtualAddress) / pageSize
  have hindex : index < s.pageCount := by
    unfold index pageCount pageSize
    omega
  refine ⟨s.page index, List.mem_map.mpr ⟨index, List.mem_range.mpr hindex, rfl⟩, ?_, ?_⟩
  · show s.virtualAddress + index * pageSize ≤ address
      ∧ address < s.virtualAddress + index * pageSize + pageSize
    unfold index pageSize
    omega
  · have hoffset : address - (s.page index).address = (address - s.virtualAddress) % pageSize := by
      show address - (s.virtualAddress + index * pageSize) = _
      unfold index pageSize
      omega
    have hsplit : index * pageSize + (address - s.virtualAddress) % pageSize
        = address - s.virtualAddress := by
      rw [Nat.mul_comm]
      exact Nat.div_add_mod _ _
    rw [hoffset]
    show ((s.fileData.drop (index * pageSize)).take pageSize).getD _ 0 = _
    rw [meaning, List.getD_eq_getElem?_getD, List.getD_eq_getElem?_getD, List.getElem?_take,
      if_pos (Nat.mod_lt _ (by decide)), List.getElem?_drop, hsplit]

/-- The loop over the segments builds the plan. -/
theorem Plan.loop_lands {image : ElfImage} (himage : image.Bounded) :
    Safe ((List.range image.programCount).foldlM (fun b index => do
      let segment ← (image.next index).mapError fun _ => Error.invalidElf
      match segment with
      | none => pure b
      | some segment => addSegment b segment)
        ⟨⟨[], image.entry, 2 ^ 64 - 1, 0, 0⟩, 0, 0, false, false⟩) fun b =>
      b.Built (image.segmentsAt (List.range image.programCount)) ∧ b.entry = image.entry := by
  refine Lands.foldlM
    (fun done (b : Builder) => b.Built (image.segmentsAt done) ∧ b.entry = image.entry) ?_ ?_
  · rintro done index rest b hsplit ⟨hbuilt, hentry⟩
    have hindex : index < image.programCount := List.mem_range.mp (by rw [hsplit]; simp)
    have hlength : (image.segmentsAt done).length < 16 := by
      have hcount := congrArg List.length hsplit
      rw [List.length_range, List.length_append, List.length_cons] at hcount
      have hle := List.length_filterMap_le
        (fun index => segmentAt image.bytes (image.header index)) done
      have := himage.count
      unfold segmentsAt
      omega
    have hnext : image.segmentsAt (done ++ [index])
        = image.segmentsAt done ++ (segmentAt image.bytes (image.header index)).toList := by
      unfold segmentsAt
      rw [List.filterMap_append]
      cases h : segmentAt image.bytes (image.header index) <;> simp [h]
    refine ((next_lands himage hindex).mapError _).bind fun segment hsegment => ?_
    obtain ⟨hsegment, hsizes⟩ := hsegment
    rw [hnext, ← hsegment]
    cases segment with
    | none =>
      refine Lands.pure ⟨?_, hentry⟩
      simpa using hbuilt
    | some segment =>
      refine (addSegment_lands hbuilt hlength (hsizes segment rfl).2).mono ?_
      rintro b' ⟨hbuilt', hentry'⟩
      exact ⟨hbuilt', hentry'.trans hentry⟩
  · refine ⟨⟨rfl, ⟨nofun, List.nodup_nil⟩, nofun, rfl, Nat.zero_le _, nofun, rfl, rfl⟩, rfl⟩

/-- **The plan of a native program is exact and safe.** -/
theorem native_plan_exact (bytes : Bytes) :
    Safe (Plan.parse bytes) fun plan =>
      (plan.pages.map Page.address).Nodup
      ∧ (∀ p ∈ plan.pages, p.address % pageSize = 0 ∧ userCode ≤ p.address
        ∧ p.address + pageSize ≤ userStackGuard)
      ∧ plan.pages.length ≤ 10 ∧ plan.pages.countP Page.executable ≤ 8
      ∧ (∀ p ∈ plan.pages, ¬ (p.writable = true ∧ p.executable = true))
      ∧ (∃ p ∈ plan.pages, p.processData = true)
      ∧ (∀ p ∈ plan.pages, p.processData = true → p.address = userData ∧ p.writable = true)
      ∧ (∃ s ∈ loadSegments bytes, s.executable = true ∧ s.virtualAddress ≤ plan.entry
        ∧ plan.entry < s.virtualAddress + s.memorySize)
      ∧ ∀ s ∈ loadSegments bytes, ∀ address, s.virtualAddress ≤ address →
        address < s.virtualAddress + s.memorySize →
        ∃ p ∈ plan.pages, p.Covers address ∧ p.writable = s.writable ∧ p.executable = s.executable
          ∧ p.initial (address - p.address) = s.meaning address := by
  refine (ElfImage.parse_lands.mapError _).bind ?_
  rintro image ⟨rfl, himage⟩
  refine .require fun _ => ?_
  refine (Plan.loop_lands himage).bind fun b hb => ?_
  obtain ⟨hbuilt, hentry⟩ := hb
  refine .require fun hfinal => ?_
  have hpage : ∀ p ∈ b.pages, ∃ s ∈ loadSegments bytes, s.Accepted ∧ ∃ index, p = s.page index := by
    intro p hp
    rw [hbuilt.pages] at hp
    obtain ⟨s, hs, hp⟩ := List.mem_flatMap.mp hp
    obtain ⟨index, -, rfl⟩ := List.mem_map.mp hp
    exact ⟨s, hs, hbuilt.accepted s hs, index, rfl⟩
  refine Lands.pure ⟨hbuilt.placed.distinct, ?_, hbuilt.placed.length_le,
    hbuilt.executable ▸ hbuilt.bound, ?_, ?_, ?_, hbuilt.entered hfinal.1, ?_⟩
  · intro p hp
    obtain ⟨k, hk, hplace, -⟩ := hbuilt.placed.marked p hp
    have haligned : userBase % 4096 = 0 := by
      unfold userBase
      decide
    unfold imagePageCapacity at hk
    unfold userCode at *
    unfold userStackGuard pageSize at *
    omega
  · intro p hp
    obtain ⟨s, -, haccepted, index, rfl⟩ := hpage p hp
    exact haccepted.exclusive
  · have hany := hbuilt.processData.symm.trans hfinal.2
    exact List.any_eq_true.mp hany
  · intro p hp hdata
    obtain ⟨s, -, -, index, rfl⟩ := hpage p hp
    simp only [Segment.page, Bool.and_eq_true, decide_eq_true_eq] at hdata
    exact ⟨hdata.1.1.1, hdata.1.1.2⟩
  · intro s hs address hlow hhigh
    obtain ⟨p, hp, hcovers, hinitial⟩ := s.page_initial hlow hhigh
    refine ⟨p, ?_, hcovers, ?_, ?_, hinitial⟩
    · show p ∈ b.pages
      rw [hbuilt.pages]
      exact List.mem_flatMap.mpr ⟨s, hs, hp⟩
    all_goals
      obtain ⟨index, -, rfl⟩ := List.mem_map.mp hp
      rfl

/-- A file with one executable page and two writable ones. -/
def sampleProgram : Bytes :=
  [0x7f, 0x45, 0x4c, 0x46, 2, 1, 1] ++ List.replicate 9 0 ++ [2, 0, 62, 0, 1, 0, 0, 0]
    ++ leBytes 8 userCode ++ leBytes 8 64 ++ List.replicate 12 0 ++ [64, 0, 56, 0, 2, 0]
    ++ List.replicate 6 0
    ++ ([1, 0, 0, 0, 5, 0, 0, 0] ++ leBytes 8 0 ++ leBytes 8 userCode ++ leBytes 8 0
      ++ leBytes 8 16 ++ leBytes 8 4096 ++ leBytes 8 4096)
    ++ ([1, 0, 0, 0, 6, 0, 0, 0] ++ leBytes 8 0 ++ leBytes 8 userData ++ leBytes 8 0
      ++ leBytes 8 16 ++ leBytes 8 8192 ++ leBytes 8 4096)

/-- The second page of the data segment is writable and not the process-data page. -/
theorem native_plan_second_writable :
    ((Plan.parse sampleProgram).run.map fun r => r.toOption.map fun plan =>
      plan.pages.map fun p => (p.address - userBase, p.writable, p.executable, p.processData))
      = some (some [(0x1000, false, true, false), (0x2000, true, false, true),
        (0x3000, true, false, false)]) := by
  decide +kernel

end GenOS.NativeImage
