/-
  GenOS.Elf.KernelImage — the load plan of the kernel and the copy that it drives.

  `Image::parse` checks the whole program header table before anything is copied;
  `copy_into` then fills a buffer of the image size.  An accepted image places its
  load segments as `WellPlaced` and `Ascending` say, and the buffer holds the file
  bytes at their addresses and zero elsewhere (`Loaded`).
-/
import GenOS.Lib.Checked
import Mathlib.Data.List.Chain

namespace GenOS.KernelElf

open GenOS.Lib GenOS.Lib.Checked

/-! ## §1. The parser. -/

def pageBytes : Nat := 4096

def kernelBase : Nat := 32 * 1024 * 1024

def maxImageBytes : Nat := 64 * 1024 * 1024

def maxProgramHeaders : Nat := 32

def maxLoadSegments : Nat := 16

inductive Error where
  | header | programHeaders | unsupportedSegment | fileRange | memoryRange | alignment
  | permissions | overlap | entry | capacity | sourceCollision | destinationSize
  deriving DecidableEq

structure Segment where
  address : Nat
  memorySize : Nat
  fileStart : Nat
  fileEnd : Nat
  flags : BitVec 32

/-- `memory_end`. -/
def Segment.memoryEnd (s : Segment) : Checked Error Nat := add s.address s.memorySize

/-- `page_end`. -/
def Segment.pageEnd (s : Segment) : Checked Error Nat := do
  let stop ← s.memoryEnd
  let stop ← add stop pageBytes
  let stop ← sub stop 1
  pure (stop / pageBytes * pageBytes)

structure Image where
  bytes : Bytes
  segments : List Segment
  entry : Nat
  imageSize : Nat

/-- `file_range`. -/
def fileRange (bytes header : Bytes) : Checked Error (Nat × Nat) := do
  let start ← wordAt 8 header 8
  let size ← wordAt 8 header 32
  let stop ← checkedAdd start size .fileRange
  require (stop ≤ bytes.length) .fileRange
  pure (start, stop)

/-- `load_segment`. -/
def loadSegment (bytes header : Bytes) : Checked Error Segment := do
  let flags ← wordAt 4 header 4
  let flags := BitVec.ofNat 32 flags
  require (¬ (flags &&& 4 = 0 ∨ flags &&& ~~~7 ≠ 0 ∨ flags &&& 3 = 3)) .permissions
  let (fileStart, fileEnd) ← fileRange bytes header
  let address ← wordAt 8 header 16
  let physical ← wordAt 8 header 24
  let size ← wordAt 8 header 40
  let stop ← checkedAdd address size .memoryRange
  let fileSize ← sub fileEnd fileStart
  require (¬ (address ≠ physical ∨ address < kernelBase ∨ size = 0
    ∨ kernelBase + maxImageBytes < stop ∨ size < fileSize)) .memoryRange
  let alignment ← wordAt 8 header 48
  require (¬ ((1 < alignment ∧ (isPowerOfTwo alignment = false
      ∨ address % alignment ≠ fileStart % alignment))
    ∨ address % pageBytes ≠ fileStart % pageBytes)) .alignment
  pure ⟨address, size, fileStart, fileEnd, flags⟩

/-- What the loop over the program headers carries. -/
structure Progress where
  segments : List Segment
  stackSeen : Bool
  relro : Option Segment

/-- The address at which the next load segment may start. -/
def Progress.limit (p : Progress) : Checked Error Nat :=
  match p.segments.getLast? with
  | none => pure 0
  | some last => last.pageEnd

variable (bytes : Bytes)

/-- The body of the loop. -/
def parseHeader (p : Progress) (header : Bytes) : Checked Error Progress := do
  let kind ← wordAt 4 header 0
  if kind = 0 then pure p
  else if kind = 1 then do
    require (p.segments.length ≠ maxLoadSegments) .capacity
    let segment ← loadSegment bytes header
    let limit ← p.limit
    require (limit ≤ segment.address) .overlap
    pure { p with segments := p.segments ++ [segment] }
  else if kind = 4 then do
    let _ ← fileRange bytes header
    pure p
  else if kind = 0x6474e551 then do
    let flags ← wordAt 4 header 4
    let body ← slice header 8 56
    require (¬ (p.stackSeen = true ∨ flags ≠ 6 ∨ body.any (· != 0) = true)) .unsupportedSegment
    pure { p with stackSeen := true }
  else if kind = 0x6474e552 then do
    require (p.relro.isNone = true) .unsupportedSegment
    let segment ← loadSegment bytes header
    pure { p with relro := some segment }
  else throw .unsupportedSegment

/-- The segment is executable and holds the entry among its file bytes. -/
def Segment.entersAt (entry : Nat) (s : Segment) : Checked Error Bool :=
  if s.flags &&& 1 = 0 ∨ entry < s.address then pure false
  else do
    let size ← sub s.fileEnd s.fileStart
    let stop ← add s.address size
    pure (decide (entry < stop))

/-- The segment contains the range that is made read-only. -/
def Segment.covers (relro s : Segment) : Checked Error Bool :=
  if relro.address < s.address then pure false
  else do
    let relroEnd ← relro.memoryEnd
    let stop ← s.memoryEnd
    if stop < relroEnd ∨ relro.fileStart < s.fileStart ∨ s.fileEnd < relro.fileEnd then pure false
    else do
      let distance ← sub relro.address s.address
      let offset ← sub relro.fileStart s.fileStart
      pure (distance == offset)

/-- The check of `PT_GNU_RELRO`. -/
def checkRelro (segments : List Segment) : Option Segment → Checked Error Unit
  | none => pure ()
  | some relro => do
    require (relro.flags = 4) .unsupportedSegment
    let covered ← segments.anyM relro.covers
    require (covered = true) .unsupportedSegment

/-- The entries of the program header table, `chunks_exact(PROGRAM_HEADER_BYTES)`. -/
def headers (table : Bytes) (count : Nat) : List Bytes :=
  (List.range count).map fun i => range table (56 * i) (56 * i + 56)

/-- The table starts behind the file header and ends inside the file. -/
def programTable : Checked Error (List Bytes) := do
  let count ← wordAt 2 bytes 56
  require (¬ (count = 0 ∨ maxProgramHeaders < count)) .capacity
  let start ← wordAt 8 bytes 32
  let stop ← checkedAdd start (count * 56) .programHeaders
  require (¬ (start < 64 ∨ bytes.length < stop)) .programHeaders
  let table ← slice bytes start stop
  pure (headers table count)

/-- The identification and the fixed fields of the file header. -/
def checkHeader : Checked Error Unit := do
  require (64 ≤ bytes.length) .header
  let kind ← wordAt 2 bytes 16
  let machine ← wordAt 2 bytes 18
  let version ← wordAt 4 bytes 20
  let flags ← wordAt 4 bytes 48
  let headerBytes ← wordAt 2 bytes 52
  let entryBytes ← wordAt 2 bytes 54
  require (range bytes 0 9 = [0x7f, 0x45, 0x4c, 0x46, 2, 1, 1, 0, 0] ∧ kind = 2 ∧ machine = 62
    ∧ version = 1 ∧ flags = 0 ∧ headerBytes = 64 ∧ entryBytes = 56) .header

/-- `Image::parse`. -/
def Image.parse : Checked Error Image := do
  checkHeader bytes
  let table ← programTable bytes
  let entry ← wordAt 8 bytes 24
  let p ← table.foldlM (parseHeader bytes) ⟨[], false, none⟩
  match p.segments with
  | [] => throw .memoryRange
  | first :: rest => do
    require (first.address = kernelBase) .memoryRange
    let entered ← p.segments.anyM (Segment.entersAt entry)
    require (entered = true) .entry
    checkRelro p.segments p.relro
    let stop ← ((first :: rest).getLast (List.cons_ne_nil _ _)).pageEnd
    let size ← sub stop kernelBase
    pure ⟨bytes, p.segments, entry, size⟩

/-- One round of the loop of `copy_into`. -/
def Image.copySegment (image : Image) (destination : Bytes) (s : Segment) :
    Checked Error Bytes := do
  let start ← sub s.address kernelBase
  let file ← slice image.bytes s.fileStart s.fileEnd
  copyAt destination start file

/-- `copy_into`. -/
def Image.copyInto (image : Image) (destination : Bytes) : Checked Error Bytes := do
  require (destination.length = image.imageSize) .destinationSize
  image.segments.foldlM image.copySegment (List.replicate destination.length 0)

/-! ## §2. Segments. -/

/-- The segment that a program header describes. -/
def Segment.ofHeader (header : Bytes) : Segment where
  address := leNat (range header 16 24)
  memorySize := leNat (range header 40 48)
  fileStart := leNat (range header 8 16)
  fileEnd := leNat (range header 8 16) + leNat (range header 32 40)
  flags := BitVec.ofNat 32 (leNat (range header 4 8))

/-- The number of bytes the segment has in the file. -/
def Segment.fileSize (s : Segment) : Nat := s.fileEnd - s.fileStart

/-- The end of the last page of the segment. -/
def Segment.limit (s : Segment) : Nat := (s.address + s.memorySize + 4095) / 4096 * 4096

/-- The segment lies in the image range and its file bytes in the file. -/
structure Segment.WellPlaced (bytes : Bytes) (s : Segment) : Prop where
  base : kernelBase ≤ s.address
  nonempty : 0 < s.memorySize
  top : s.address + s.memorySize ≤ kernelBase + maxImageBytes
  order : s.fileStart ≤ s.fileEnd
  file : s.fileEnd ≤ bytes.length
  fits : s.fileSize ≤ s.memorySize
  exclusive : s.flags &&& 2 = 0 ∨ s.flags &&& 1 = 0

/-- A word that does not contain both of the lowest bits. -/
theorem exclusive_of_ne {flags : BitVec 32} (h : flags &&& 3 ≠ 3) :
    flags &&& 2 = 0 ∨ flags &&& 1 = 0 := by
  have hwrite : flags &&& 2 = if flags.getLsbD 1 then 2 else 0 := BitVec.and_twoPow flags 1
  have hexecute : flags &&& 1 = if flags.getLsbD 0 then 1 else 0 := BitVec.and_twoPow flags 0
  have hsplit : flags &&& 3 = (flags &&& 2) ||| (flags &&& 1) := by
    rw [← BitVec.and_or_distrib_left]
    rfl
  rw [hwrite, hexecute] at hsplit ⊢
  cases hw : flags.getLsbD 1
  · exact .inl (if_neg (by decide))
  cases hx : flags.getLsbD 0
  · exact .inr (if_neg (by decide))
  rw [hw, hx] at hsplit
  exact absurd hsplit h

variable {header : Bytes} {done : List Bytes} {p : Progress} {s : Segment}

section Segment

variable {bytes : Bytes} {s : Segment}

theorem Segment.memoryEnd_lands (h : s.WellPlaced bytes) :
    Safe s.memoryEnd (· = s.address + s.memorySize) := by
  have htop := h.top
  unfold kernelBase maxImageBytes at htop
  exact lands_add (by omega)

theorem Segment.pageEnd_lands (h : s.WellPlaced bytes) : Safe s.pageEnd (· = s.limit) := by
  have htop := h.top
  unfold kernelBase maxImageBytes at htop
  refine (memoryEnd_lands h).next ?_
  refine (lands_add (by unfold pageBytes; omega)).next ?_
  refine (lands_sub (by unfold pageBytes; omega)).next ?_
  exact .pure rfl

theorem fileRange_lands (hheader : header.length = 56) :
    Safe (fileRange bytes header) fun r => r.1 = (Segment.ofHeader header).fileStart
      ∧ r.2 = (Segment.ofHeader header).fileEnd ∧ r.2 ≤ bytes.length := by
  refine (lands_wordAt (by omega)).next ?_
  refine (lands_wordAt (by omega)).next ?_
  refine .checkedAdd fun _ => ?_
  refine .require fun hstop => ?_
  exact .pure ⟨rfl, rfl, hstop⟩

theorem loadSegment_lands (hheader : header.length = 56) :
    Safe (loadSegment bytes header) fun s =>
      s = Segment.ofHeader header ∧ s.WellPlaced bytes := by
  refine (lands_wordAt (by omega)).next ?_
  refine .require fun hflags => ?_
  refine (fileRange_lands hheader).bind ?_
  rintro ⟨fileStart, fileEnd⟩ ⟨hstart : fileStart = _, hend : fileEnd = _, hfile⟩
  refine (lands_wordAt (by omega)).next ?_
  refine (lands_wordAt (by omega)).next ?_
  refine (lands_wordAt (by omega)).next ?_
  refine .checkedAdd fun _ => ?_
  have horder : fileStart ≤ fileEnd := by
    rw [hstart, hend]
    exact Nat.le_add_right _ _
  refine (lands_sub horder).next ?_
  refine .require fun hplace => ?_
  refine (lands_wordAt (by omega)).next ?_
  refine .require fun _ => ?_
  simp only [not_or, not_lt, ne_eq, not_not] at hplace hflags
  obtain ⟨-, hbase, hsize, htop, hfits⟩ := hplace
  refine Lands.pure ⟨?_, hbase, Nat.pos_of_ne_zero hsize, htop, horder, hfile, hfits,
    exclusive_of_ne hflags.2.2⟩
  rw [hstart, hend]
  rfl

end Segment

open Segment

/-! ## §3. What is accepted. -/

/-- The entries of the program header table. -/
def programHeaders : List Bytes :=
  let count := leNat (range bytes 56 58)
  let start := leNat (range bytes 32 40)
  headers (range bytes start (start + count * 56)) count

def isLoad (header : Bytes) : Bool := leNat (range header 0 4) == 1

/-- The load segments of a table, in its order. -/
def loadSegments (table : List Bytes) : List Segment := (table.filter isLoad).map .ofHeader

/-- The first segment ends on a page before the second begins. -/
def Segment.Before (a b : Segment) : Prop := a.limit ≤ b.address

/-- What the loop has established. -/
structure Progress.Reads (bytes : Bytes) (done : List Bytes) (p : Progress) : Prop where
  decoded : p.segments = loadSegments done
  placed : ∀ s ∈ p.segments, s.WellPlaced bytes
  ascending : p.segments.IsChain Segment.Before
  relro : ∀ s, p.relro = some s → s.WellPlaced bytes

theorem Segment.memoryEnd_le_limit (s : Segment) : s.address + s.memorySize ≤ s.limit := by
  unfold limit
  omega

instance : Trans Segment.Before Segment.Before Segment.Before where
  trans {a b c} hab hbc := by
    have hb := b.memoryEnd_le_limit
    unfold Segment.Before at *
    omega

section Parse

variable {bytes : Bytes}

theorem loadSegments_concat (done : List Bytes) (header : Bytes) :
    loadSegments (done ++ [header])
      = loadSegments done ++ if isLoad header then [ofHeader header] else [] := by
  unfold loadSegments
  rw [List.filter_append, List.map_append]
  cases h : isLoad header <;> simp [h]

/-- A header that is no load segment leaves the segments as they are. -/
theorem Progress.Reads.skip (h : p.Reads bytes done) (hkind : isLoad header = false) :
    p.Reads bytes (done ++ [header]) := by
  refine ⟨?_, h.placed, h.ascending, h.relro⟩
  rw [h.decoded, loadSegments_concat, hkind]
  simp

theorem Progress.Reads.push (h : p.Reads bytes done) (hkind : isLoad header = true)
    (hplaced : (ofHeader header).WellPlaced bytes)
    (hlast : ∀ last ∈ p.segments.getLast?, last.Before (.ofHeader header)) :
    Progress.Reads bytes (done ++ [header])
      { p with segments := p.segments ++ [ofHeader header] } := by
  refine ⟨?_, ?_, ?_, h.relro⟩
  · rw [loadSegments_concat, if_pos hkind, h.decoded]
  · intro s hs
    rcases List.mem_append.mp hs with hs | hs
    · exact h.placed s hs
    · rw [List.mem_singleton.mp hs]
      exact hplaced
  · refine List.isChain_append.mpr ⟨h.ascending, List.isChain_singleton _, ?_⟩
    intro last hmem y hy
    obtain rfl : ofHeader header = y := by simpa using hy
    exact hlast last hmem

theorem Progress.limit_lands (h : p.Reads bytes done) :
    Safe p.limit fun limit => ∀ last ∈ p.segments.getLast?, last.limit = limit := by
  unfold limit
  split
  · rename_i hnone
    refine Lands.pure fun last hlast => ?_
    rw [hnone] at hlast
    cases hlast
  · rename_i last hlast
    refine (pageEnd_lands (h.placed last (List.mem_of_getLast? hlast))).mono ?_
    rintro limit rfl last' hlast'
    rw [hlast] at hlast'
    cases hlast'
    rfl

theorem parseHeader_lands (hheader : header.length = 56) (h : p.Reads bytes done) :
    Safe (parseHeader bytes p header) (Progress.Reads bytes (done ++ [header])) := by
  refine (lands_wordAt (by omega)).bind ?_
  rintro kind hkind
  have hskip : kind ≠ 1 → isLoad header = false := by
    rw [hkind]
    exact beq_eq_false_iff_ne.mpr
  split
  · rename_i hnull
    exact .pure (h.skip (hskip (by omega)))
  split
  · rename_i hload
    refine .require fun _ => ?_
    refine (loadSegment_lands hheader).bind ?_
    rintro segment ⟨rfl, hplaced⟩
    refine (p.limit_lands h).bind fun limit hlimit => ?_
    refine .require fun horder => ?_
    refine .pure (h.push (beq_iff_eq.mpr (hkind ▸ hload)) hplaced fun last hlast => ?_)
    exact (hlimit last hlast).trans_le horder
  rename_i hnoload
  have hread := h.skip (hskip hnoload)
  split
  · refine (fileRange_lands hheader).bind fun _ _ => ?_
    exact .pure hread
  split
  · refine (lands_wordAt (by omega)).next ?_
    refine (lands_slice (by decide) (by omega)).next ?_
    refine .require fun _ => ?_
    exact .pure ⟨hread.decoded, hread.placed, hread.ascending, hread.relro⟩
  split
  · refine .require fun _ => ?_
    refine (loadSegment_lands hheader).bind fun segment hsegment => ?_
    refine .pure ⟨hread.decoded, hread.placed, hread.ascending, ?_⟩
    rintro s ⟨⟩
    exact hsegment.2
  · exact Safe.throw _

/-- The segment is executable and the entry lies among its file bytes. -/
structure Segment.Enters (entry : Nat) (s : Segment) : Prop where
  executable : s.flags &&& 1 ≠ 0
  low : s.address ≤ entry
  high : entry < s.address + s.fileSize

theorem Segment.entersAt_lands (h : s.WellPlaced bytes) (entry : Nat) :
    Safe (s.entersAt entry) fun found => found = true → s.Enters entry := by
  have htop := h.top
  have hfits := h.fits
  unfold kernelBase maxImageBytes at htop
  unfold fileSize at hfits
  unfold entersAt
  split
  · exact .pure nofun
  rename_i hguard
  obtain ⟨hexecutable, hlow⟩ := not_or.mp hguard
  refine (lands_sub h.order).next ?_
  refine (lands_add (by omega)).next ?_
  exact .pure fun hfound =>
    ⟨hexecutable, Nat.le_of_not_lt hlow, of_decide_eq_true hfound⟩

theorem Segment.covers_lands {relro : Segment} (hrelro : relro.WellPlaced bytes)
    (h : s.WellPlaced bytes) : Safe (relro.covers s) fun _ => True := by
  unfold covers
  split
  · exact .pure trivial
  rename_i hlow
  refine (memoryEnd_lands hrelro).next ?_
  refine (memoryEnd_lands h).next ?_
  split
  · exact .pure trivial
  rename_i hguard
  refine (lands_sub (Nat.le_of_not_lt hlow)).next ?_
  refine (lands_sub (by omega)).next ?_
  exact .pure trivial

theorem checkRelro_lands {segments : List Segment} (hplaced : ∀ s ∈ segments, s.WellPlaced bytes)
    {relro : Option Segment} (hrelro : ∀ s, relro = some s → s.WellPlaced bytes) :
    Safe (checkRelro segments relro) fun _ => True := by
  cases relro with
  | none => exact .pure trivial
  | some relro =>
    refine .require fun _ => ?_
    refine (Lands.anyM (Q := fun _ => True) fun s hs => ?_).bind fun _ _ => ?_
    · exact (covers_lands (hrelro relro rfl) (hplaced s hs)).mono fun _ _ _ => trivial
    · exact (safe_require _ _).mono fun _ _ => trivial

theorem programTable_lands (hlen : 64 ≤ bytes.length) :
    Safe (programTable bytes) fun table =>
      table = programHeaders bytes ∧ ∀ header ∈ table, header.length = 56 := by
  refine (lands_wordAt (by omega)).next ?_
  refine .require fun _ => ?_
  refine (lands_wordAt (by omega)).next ?_
  refine .checkedAdd fun _ => ?_
  refine .require fun hguard => ?_
  refine (lands_slice (Nat.le_add_right _ _) (by omega)).next ?_
  refine .pure ⟨rfl, fun header hheader => ?_⟩
  obtain ⟨i, hi, rfl⟩ := List.mem_map.mp hheader
  have hcount := List.mem_range.mp hi
  rw [range_length, Nat.add_sub_cancel_left]
  rw [range_length (by omega)]
  omega

theorem checkHeader_lands : Safe (checkHeader bytes) fun _ => 64 ≤ bytes.length := by
  refine .require fun hlen => ?_
  refine (lands_wordAt (by omega)).next ?_
  refine (lands_wordAt (by omega)).next ?_
  refine (lands_wordAt (by omega)).next ?_
  refine (lands_wordAt (by omega)).next ?_
  refine (lands_wordAt (by omega)).next ?_
  refine (lands_wordAt (by omega)).next ?_
  exact (safe_require _ _).mono fun _ _ => hlen

/-- An accepted image: its segments are those of the file, placed in order and
without a common page, and the entry is in one of them. -/
structure Image.Accepted (bytes : Bytes) (image : Image) : Prop where
  source : image.bytes = bytes
  decoded : image.segments = loadSegments (programHeaders bytes)
  placed : ∀ s ∈ image.segments, s.WellPlaced bytes
  ascending : image.segments.Pairwise Segment.Before
  entered : ∃ s ∈ image.segments, s.Enters image.entry
  covered : ∀ s ∈ image.segments, s.limit ≤ kernelBase + image.imageSize
  size : image.imageSize ≤ maxImageBytes

theorem Image.parse_lands : Safe (Image.parse bytes) (Image.Accepted bytes) := by
  refine checkHeader_lands.bind fun _ hlen => ?_
  refine (programTable_lands hlen).bind ?_
  rintro table ⟨htable, hheaders⟩
  refine (lands_wordAt (by omega)).bind fun entry _ => ?_
  have hloop : Safe (table.foldlM (parseHeader bytes) ⟨[], false, none⟩)
      (Progress.Reads bytes table) := by
    refine Lands.foldlM (Progress.Reads bytes) ?_ ⟨rfl, nofun, List.isChain_nil, nofun⟩
    intro done header rest p hsplit hreads
    exact parseHeader_lands (hheaders header (by rw [hsplit]; simp)) hreads
  refine hloop.bind fun p hreads => ?_
  have hpairwise := hreads.ascending.pairwise
  obtain ⟨hdecoded, hplaced, -, hrelro⟩ := hreads
  obtain ⟨segments, stackSeen, relro⟩ := p
  dsimp only at *
  match segments with
  | [] => exact Safe.throw _
  | first :: rest =>
    have hmem := List.getLast_mem (List.cons_ne_nil first rest)
    have hlast := hplaced _ hmem
    refine .require fun hfirst => ?_
    refine (Lands.anyM fun s hs => entersAt_lands (hplaced s hs) entry).bind fun _ hentered => ?_
    refine .require fun hfound => ?_
    refine (checkRelro_lands hplaced hrelro).bind fun _ _ => ?_
    refine (pageEnd_lands hlast).next ?_
    have hbelow : ∀ s ∈ first :: rest,
        s.limit ≤ ((first :: rest).getLast (List.cons_ne_nil _ _)).limit := by
      intro s hs
      obtain ⟨front, hfront⟩ : ∃ front, first :: rest
          = front ++ [(first :: rest).getLast (List.cons_ne_nil _ _)] :=
        ⟨_, (List.dropLast_append_getLast _).symm⟩
      rw [hfront] at hs hpairwise
      rcases List.mem_append.mp hs with hs | hs
      · exact ((List.pairwise_append.mp hpairwise).2.2 s hs _ (List.mem_singleton_self _)).trans
          (Nat.le_trans (Nat.le_add_right _ _) (memoryEnd_le_limit _))
      · exact Nat.le_of_eq (congrArg limit (List.mem_singleton.mp hs))
    have hbase : kernelBase ≤ ((first :: rest).getLast (List.cons_ne_nil _ _)).limit :=
      hlast.base.trans (Nat.le_trans (Nat.le_add_right _ _) (memoryEnd_le_limit _))
    refine (lands_sub hbase).bind ?_
    intro size hsize
    rw [hsize]
    refine Lands.pure ⟨rfl, htable ▸ hdecoded, hplaced, hpairwise, hentered hfound, ?_, ?_⟩
    · intro s hs
      rw [Nat.add_sub_cancel' hbase]
      exact hbelow s hs
    · have htop := hlast.top
      dsimp only
      unfold limit kernelBase maxImageBytes at *
      omega

end Parse

/-! ## §4. The copy. -/

section Copy

variable {bytes : Bytes} {image : Image}

/-- The offset in the image lies among the file bytes of the segment. -/
def Segment.Backs (s : Segment) (i : Nat) : Prop :=
  s.address ≤ kernelBase + i ∧ kernelBase + i < s.address + s.fileSize

/-- The buffer holds the file bytes of these segments, and zero elsewhere. -/
structure Image.Holds (image : Image) (segments : List Segment) (buffer : Bytes) : Prop where
  length : buffer.length = image.imageSize
  file : ∀ s ∈ segments, ∀ i, s.Backs i →
    buffer[i]? = image.bytes[s.fileStart + (kernelBase + i - s.address)]?
  zero : ∀ i < image.imageSize, (∀ s ∈ segments, ¬ s.Backs i) → buffer[i]? = some 0

/-- The same in offsets from the start of the image. -/
theorem Segment.backs_iff {start : Nat} (hstart : s.address = kernelBase + start) (i : Nat) : s.Backs i ↔ start ≤ i ∧ i < start + s.fileSize := by
  unfold Backs
  rw [hstart]
  generalize kernelBase = base
  omega

theorem Image.copySegment_lands (h : image.Accepted bytes) {done rest : List Segment}
    (hsplit : image.segments = done ++ s :: rest) {buffer : Bytes}
    (hholds : image.Holds done buffer) :
    Returns (image.copySegment buffer s) (image.Holds (done ++ [s])) := by
  have hmem : s ∈ image.segments := by rw [hsplit]; simp
  have hplaced := h.placed s hmem
  have hlen : (range image.bytes s.fileStart s.fileEnd).length = s.fileSize :=
    range_length (h.source ▸ hplaced.file)
  refine (lands_sub hplaced.base).bind fun start hsub => ?_
  have hstart : s.address = kernelBase + start := by rw [hsub, Nat.add_sub_cancel' hplaced.base]
  have hroom : start + (range image.bytes s.fileStart s.fileEnd).length ≤ buffer.length := by
    have hcovered := (Nat.add_le_add_left hplaced.fits s.address).trans
      (s.memoryEnd_le_limit.trans (h.covered s hmem))
    rw [hstart, Nat.add_assoc] at hcovered
    rw [hlen, hholds.length]
    exact Nat.le_of_add_le_add_left hcovered
  refine (lands_slice hplaced.order (h.source ▸ hplaced.file)).next ?_
  refine (lands_copyAt hroom).mono ?_
  rintro buffer' rfl
  have hget := getElem?_copied hroom
  rw [hlen] at hget ⊢
  refine ⟨?_, ?_, ?_⟩
  · rw [← hholds.length]
    simp only [List.length_append, List.length_take, List.length_drop]
    omega
  · intro t ht i hi
    rw [hget i]
    rcases List.mem_append.mp ht with ht | ht
    · -- An earlier segment ends below this one.
      have hbefore : t.Before s := by
        have hpairwise := hsplit ▸ h.ascending
        exact (List.pairwise_append.mp hpairwise).2.2 t ht s (List.mem_cons_self ..)
      have hend := (Nat.add_le_add_left (h.placed t (by rw [hsplit]; simp [ht])).fits
        t.address).trans (t.memoryEnd_le_limit.trans hbefore)
      have hlow := hi.2.trans_le hend
      rw [hstart] at hlow
      rw [if_neg fun hin => Nat.not_lt.mpr hin.1 (Nat.lt_of_add_lt_add_left hlow),
        hholds.file t ht i hi]
    · rw [List.mem_singleton.mp ht] at hi ⊢
      obtain ⟨hlow, hhigh⟩ := (backs_iff hstart i).mp hi
      unfold fileSize at hhigh
      rw [if_pos ((backs_iff hstart i).mp hi), hstart, Nat.add_sub_add_left, range,
        List.getElem?_drop, List.getElem?_take, if_pos (by omega)]
  · intro i hi hnone
    rw [hget i, if_neg fun hin => hnone s (by simp) ((backs_iff hstart i).mpr hin)]
    exact hholds.zero i hi fun t ht => hnone t (List.mem_append_left _ ht)

theorem Image.copyInto_lands (h : image.Accepted bytes) {destination : Bytes}
    (hlen : destination.length = image.imageSize) :
    Returns (image.copyInto destination) (image.Holds image.segments) := by
  have hrequire : Returns (require (destination.length = image.imageSize) Error.destinationSize)
      fun _ => True := by
    rw [require, if_pos hlen]
    exact .pure trivial
  refine hrequire.bind fun _ _ => ?_
  refine .foldlM image.Holds ?_ ?_
  · intro done s rest buffer hsplit hholds
    exact image.copySegment_lands h hsplit hholds
  · refine ⟨?_, nofun, ?_⟩
    · rw [List.length_replicate, hlen]
    · intro i hi _
      rw [List.getElem?_replicate, if_pos (hlen ▸ hi)]

end Copy

/-- No page holds an address of both segments, and the first is below the second. -/
def Segment.Apart (a b : Segment) : Prop :=
  ∀ x y, a.address ≤ x → x < a.address + a.memorySize → b.address ≤ y →
    y < b.address + b.memorySize → x / pageBytes < y / pageBytes

theorem Segment.Before.apart {a b : Segment} (h : a.Before b) : a.Apart b := by
  intro x y _ hx hy _
  unfold Segment.Before limit at h
  unfold pageBytes
  omega

/-- **The kernel is loaded as its file says, or refused.** -/
theorem kernel_image_loads (bytes : Bytes) :
    Safe (Image.parse bytes) fun image =>
      image.segments = loadSegments (programHeaders bytes)
      ∧ (∀ s ∈ image.segments, kernelBase ≤ s.address
        ∧ s.address + s.memorySize ≤ kernelBase + maxImageBytes
        ∧ (s.flags &&& 2 = 0 ∨ s.flags &&& 1 = 0))
      ∧ image.segments.Pairwise Segment.Apart
      ∧ (∃ s ∈ image.segments, s.Enters image.entry)
      ∧ ∀ destination, destination.length = image.imageSize →
        Returns (image.copyInto destination) fun buffer =>
          buffer.length = image.imageSize
          ∧ (∀ s ∈ image.segments, ∀ i, s.Backs i →
            buffer[i]? = bytes[s.fileStart + (kernelBase + i - s.address)]?)
          ∧ ∀ i < image.imageSize, (∀ s ∈ image.segments, ¬ s.Backs i) →
            buffer[i]? = some 0 := by
  refine Image.parse_lands.mono fun image h => ?_
  refine ⟨h.decoded, fun s hs => ?_, h.ascending.imp Segment.Before.apart, h.entered,
    fun destination hlen => ?_⟩
  · have hplaced := h.placed s hs
    exact ⟨hplaced.base, hplaced.top, hplaced.exclusive⟩
  · refine (image.copyInto_lands h hlen).mono fun buffer hholds => ⟨hholds.length, ?_, hholds.zero⟩
    intro s hs i hi
    rw [hholds.file s hs i hi, h.source]

/-- A file of one executable segment that holds the headers themselves. -/
def sampleKernel : Bytes :=
  [0x7f, 0x45, 0x4c, 0x46, 2, 1, 1, 0, 0] ++ List.replicate 7 0 ++ [2, 0, 62, 0, 1, 0, 0, 0]
    ++ leBytes 8 (kernelBase + 64) ++ leBytes 8 64 ++ List.replicate 12 0
    ++ [64, 0, 56, 0, 1, 0] ++ List.replicate 6 0 ++ [1, 0, 0, 0, 5, 0, 0, 0] ++ leBytes 8 0
    ++ leBytes 8 kernelBase ++ leBytes 8 kernelBase ++ leBytes 8 120 ++ leBytes 8 4096
    ++ leBytes 8 4096

example : ((Image.parse sampleKernel).run.map fun r =>
    r.toOption.map fun image => (image.segments.length, image.entry, image.imageSize))
      = some (some (1, kernelBase + 64, 4096)) := by
  decide +kernel

end GenOS.KernelElf
