/-
  GenOS.Xtask.Inspector — the host-side image inspector of `xtask`.

  The build tool reads a whole disk image and decodes both slots with a parser
  of its own.  It is written against byte slices of the image and reports
  errors as texts.  An index the source has checked before is a total lookup
  here; a slice never leaves the image (`inspectFilesystemBytes` only slices
  a partition that lies inside it).
-/
import GenOS.Storage.Reading

namespace GenOS.Xtask

open GenOS.Lib GenOS.Vfs GenOS.Storage

/-! ## §1. The partition table. -/

variable (bytes : Bytes) (index : Nat)

/-- The fields of table entry `index`: type, first sector, number of sectors. -/
def tableType : UInt8 := bytes.getD (446 + index * 16 + 4) 0
def tableStart : Nat :=
  leNat ((bytes.drop (446 + index * 16 + 8)).take 4)
def tableSectors : Nat :=
  leNat ((bytes.drop (446 + index * 16 + 12)).take 4)

/-- The test of one table entry in `valid_genos_partition`. -/
def candidatePartition : Option (Nat × Nat) :=
  if tableType bytes index ≠ partitionTypeGenos
      ∧ tableType bytes index ≠ partitionTypeGenosReadOnly then none
  else
    let start := tableStart bytes index
    let sectors := tableSectors bytes index
    -- `usize` holds the sum of two `u32` values, so `checked_add` succeeds
    if 0 < start ∧ slotSectors * 2 < sectors ∧ start + sectors ≤ bytes.length / 512 then
      some (start, sectors)
    else none

/-- `valid_genos_partition`. -/
def validGenosPartition : Except String (Nat × Nat) :=
  if bytes.length < 512 ∨ (bytes.drop 510).take 2 ≠ [0x55, 0xaa] then
    .error "missing MBR signature"
  else
    match (List.range 4).findSome? (candidatePartition bytes) with
    | some partition => .ok partition
    | none => .error "GenOS MBR partition not found or out of bounds"

/-! ## §2. One slot. -/

structure InspectedEntry where
  path : Bytes
  directory : Bool
  data : Bytes
  deriving DecidableEq, Repr

structure InspectedSlot where
  slot : Fin 2
  generation : UInt64
  entries : List InspectedEntry
  deriving DecidableEq, Repr

/-- `snapshot_checksum`. -/
def snapshotChecksum : UInt32 :=
  bytes.zipIdx.foldl (fun checksum item =>
    (checksum ^^^ if 20 ≤ item.2 ∧ item.2 < 20 + 4 then 0 else item.1.toUInt32) * 0x01000193)
    0x811c9dc5

/-- A path component the inspector refuses. -/
def badComponent (component : Bytes) : Bool :=
  component.isEmpty || component == ascii ['.'] || component == ascii ['.', '.']
    || !component.all (fun byte => isAsciiAlphanumeric byte || byte == '.'.toUInt8
        || byte == '_'.toUInt8 || byte == '-'.toUInt8)

/-- The condition under which a path is "invalid or duplicated". -/
def badPath (entries : List InspectedEntry) (path : Bytes) (dataLen : Nat) : Bool :=
  !(ascii ['/', 'U', 'S', 'E', 'R', '/']).isPrefixOf path || decide (64 < path.length)
    || ((path.drop 1).splitOn '/'.toUInt8).any badComponent || decide (512 < dataLen)
    || entries.any (fun entry => eqIgnoreAsciiCase entry.path path)

/-- `path.rsplit_once('/').map(|(parent, _)| parent).unwrap_or("")`. -/
def parentOf (path : Bytes) : Bytes :=
  match rfind '/'.toUInt8 path with
  | some k => path.take k
  | none => []

/-- The checks on the name of an entry whose bytes have been located. -/
def admitEntry (entries : List InspectedEntry) (entry : InspectedEntry) :
    Except String InspectedEntry :=
  match fromUtf8 entry.path with
  | none => .error "filesystem path is not UTF-8"
  | some path =>
    if badPath entries path entry.data.length then
      .error "filesystem path is invalid or duplicated"
    else if parentOf path ≠ ascii ['/', 'U', 'S', 'E', 'R']
        ∧ !entries.any (fun e => e.directory && eqIgnoreAsciiCase e.path (parentOf path)) then
      .error "filesystem parent directory is absent or out of order"
    else .ok { entry with path := path }

/-- The part of the entry loop behind the kind byte. -/
def locateEntry (snapshot : Bytes) (used cursor : Nat) (directory : Bool) :
    Except String (InspectedEntry × Nat) :=
  let pathLen := (snapshot.getD cursor 0).toNat
  let dataLen := leNat ((snapshot.drop (cursor + 2)).take 2)
  if pathLen = 0 ∨ (directory = true ∧ dataLen ≠ 0) then
    .error "invalid GenOS filesystem entry header"
  else
    let pathStart := cursor + 4
    let dataStart := pathStart + pathLen
    let stop := dataStart + dataLen
    if used < stop then .error "filesystem data overflow"
    else
      .ok (⟨(snapshot.drop pathStart).take pathLen, directory,
        (snapshot.drop dataStart).take dataLen⟩, stop)

/-- The header of the entry at `cursor`. -/
def scanEntry (snapshot : Bytes) (used cursor : Nat) : Except String (InspectedEntry × Nat) :=
  if used < cursor + 4 then .error "truncated GenOS filesystem entry"
  else if snapshot.getD (cursor + 1) 0 = 1 then locateEntry snapshot used cursor false
  else if snapshot.getD (cursor + 1) 0 = 2 then locateEntry snapshot used cursor true
  else .error "invalid GenOS filesystem entry kind"

/-- The entry loop of `decode_filesystem_slot`: the final cursor and the entries. -/
def scanEntries (snapshot : Bytes) (used : Nat) :
    Nat → Nat → List InspectedEntry → Except String (Nat × List InspectedEntry)
  | 0, cursor, entries => .ok (cursor, entries)
  | remaining + 1, cursor, entries =>
    match scanEntry snapshot used cursor with
    | .error e => .error e
    | .ok (located, stop) =>
      match admitEntry entries located with
      | .error e => .error e
      | .ok entry => scanEntries snapshot used remaining stop (entries ++ [entry])

/-- `decode_filesystem_slot`. -/
def decodeFilesystemSlot (slot : Fin 2) (snapshot : Bytes) : Except String InspectedSlot :=
  let count := snapshot.getD 6 0
  let used := leNat ((snapshot.drop 16).take 4)
  if snapshot.length ≠ slotBytes ∨ snapshot.take 4 ≠ ascii ['G', 'F', 'S', '2']
      ∨ leNat ((snapshot.drop 4).take 2) ≠ 3 ∨ count = 0 ∨ 30 < count.toNat
      ∨ snapshot.getD 7 0 ≠ 0xa5 then
    .error "invalid GenOS filesystem slot header"
  else if used < 64 ∨ slotBytes < used then .error "invalid GenOS filesystem used length"
  else if (snapshotChecksum snapshot).toNat ≠ leNat ((snapshot.drop 20).take 4) then
    .error "invalid GenOS filesystem slot checksum"
  else
    match scanEntries snapshot used count.toNat 64 [] with
    | .error e => .error e
    | .ok (cursor, entries) =>
      if cursor ≠ used then .error "filesystem entry table does not match used length"
      else .ok ⟨slot, UInt64.ofNat (leNat ((snapshot.drop 8).take 8)), entries⟩

/-! ## §3. The whole image. -/

structure ImageReport where
  validSlots : List InspectedSlot
  invalidSlots : List (Fin 2)
  deriving DecidableEq, Repr

/-- The bytes of a slot: `&bytes[start..start + SLOT_BYTES]`. -/
def slotSlice (partitionStart : Nat) (slot : Fin 2) : Bytes :=
  (bytes.drop ((partitionStart + slotOffsets slot) * 512)).take slotBytes

/-- One round of the slot loop: blank slots are neither valid nor invalid. -/
def inspectSlot (partitionStart : Nat) (report : ImageReport) (slot : Fin 2) : ImageReport :=
  let snapshot := slotSlice bytes partitionStart slot
  if snapshot.all (· == 0) then report
  else
    match decodeFilesystemSlot slot snapshot with
    | .ok valid => { report with validSlots := report.validSlots ++ [valid] }
    | .error _ => { report with invalidSlots := report.invalidSlots ++ [slot] }

/-- `inspect_filesystem_bytes`. -/
def inspectFilesystemBytes : Except String ImageReport :=
  match validGenosPartition bytes with
  | .error e => .error e
  | .ok (partitionStart, _) =>
    .ok ([⟨0, Nat.two_pos⟩, ⟨1, Nat.one_lt_two⟩].foldl (inspectSlot bytes partitionStart) ⟨[], []⟩)

theorem inspectFilesystemBytes_of_partition {start sectors : Nat}
    (h : validGenosPartition bytes = .ok (start, sectors)) :
    inspectFilesystemBytes bytes = .ok ([0, 1].foldl (inspectSlot bytes start) ⟨[], []⟩) := by
  rw [inspectFilesystemBytes, h]
  rfl

/-- The order of the keys `(generation, Reverse(slot))`. -/
def keyLe (left right : InspectedSlot) : Bool :=
  left.generation < right.generation
    || (left.generation == right.generation && decide (right.slot ≤ left.slot))

/-- `valid_slots.iter().max_by_key(..)`: the last of the greatest slots. -/
def selectedSlot (report : ImageReport) : Option InspectedSlot :=
  report.validSlots.foldl (fun best slot =>
    match best with
    | none => some slot
    | some b => if keyLe b slot then some slot else some b) none

end GenOS.Xtask
