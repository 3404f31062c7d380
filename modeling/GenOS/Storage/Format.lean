/-
  GenOS.Storage.Format — the GFS2 snapshot format of `storage_format.rs`.

  A slot is 20480 bytes: a 64-byte header, then the entries, then zeros.

      0  magic `GFS2`     4  version        6  entry count    7  commit byte
      8  generation      16  used bytes    20  checksum      24  zeros

  An entry is a four-byte header (path length, kind, data length) followed by
  the path and the bytes of the file.  Offsets never leave the slot, so the
  `checked_add`s of the source are plain sums here.
-/
import GenOS.Vfs.RamVfs

namespace GenOS.Storage

open GenOS.Lib GenOS.Vfs

/-! ## §1. Layout. -/

def sectorBytes : Nat := 512
def partitionTypeGenos : UInt8 := 0x7f
def partitionTypeGenosReadOnly : UInt8 := 0x7e
def partitionEntryOffset : Nat := 446
def partitionEntryBytes : Nat := 16
def recordMagic : Bytes := ascii ['G', 'F', 'S', '2']
def recordVersion : Nat := 3
def recordCommitted : UInt8 := 0xa5
def recordHeaderBytes : Nat := 64
def recordChecksumOffset : Nat := 20
def entryHeaderBytes : Nat := 4
def slotSectors : Nat := 40
def slotBytes : Nat := slotSectors * sectorBytes

/-- One sector of a block device. -/
abbrev Sector := FixedBytes sectorBytes

/-- The bytes of one slot. -/
abbrev Snapshot := FixedBytes slotBytes

inductive StorageError where
  | device
  | invalidPartition
  | invalidRecord
  | noSpace
  | vfs
  deriving DecidableEq, Repr

structure Partition where
  startLba : Nat
  sectors : Nat
  readOnly : Bool
  deriving DecidableEq, Repr

/-! ## §2. The partition table. -/

/-- The test of one table entry in `parse_partition`. -/
def partitionEntry (mbr : Bytes) (index : Nat) : Option Partition :=
  let offset := partitionEntryOffset + index * partitionEntryBytes
  let partitionType := mbr.getD (offset + 4) 0
  if partitionType ≠ partitionTypeGenos ∧ partitionType ≠ partitionTypeGenosReadOnly then none
  else
    let startLba := leNat ((mbr.drop (offset + 8)).take 4)
    let sectors := leNat ((mbr.drop (offset + 12)).take 4)
    let required := 1 + slotSectors * 2
    -- the last conjunct is `start_lba.checked_add(sectors).is_some()` on `u32`
    if 0 < startLba ∧ required ≤ sectors ∧ startLba + sectors < 2 ^ 32 then
      some ⟨startLba, sectors, partitionType == partitionTypeGenosReadOnly⟩
    else none

/-- `parse_partition`. -/
def parsePartition (mbr : Bytes) : Except StorageError Partition :=
  if mbr.length ≠ sectorBytes then .error .invalidPartition
  else if (mbr.drop 510).take 2 ≠ [0x55, 0xaa] then .error .invalidPartition
  else
    match (List.range 4).findSome? (partitionEntry mbr) with
    | some partition => .ok partition
    | none => .error .invalidPartition

/-! ## §3. Encoding. -/

/-- A stored node. -/
structure Entry where
  path : Bytes
  kind : NodeKind
  data : Bytes
  deriving DecidableEq, Repr

/-- The kind byte of an entry. -/
def kindByte : NodeKind → UInt8
  | .file => 1
  | .directory => 2

/-- The bytes stored for a node: those of a file, none for a directory. -/
def storedData (node : VfsNode) : Bytes :=
  match node.kind with
  | .file => node.data
  | .directory => []

/-- The loop variables of `encode_snapshot`. -/
structure Writer where
  output : Snapshot
  cursor : Nat
  entries : Nat

/-- The stores of one loop iteration of `encode_snapshot`. -/
def writeEntry (output : Snapshot) (cursor : Nat) (path : Bytes) (kind : NodeKind)
    (data : Bytes) : Snapshot :=
  let start := cursor + entryHeaderBytes
  output
    |>.patch cursor [UInt8.ofNat path.length]
    |>.patch (cursor + 1) [kindByte kind]
    |>.patch (cursor + 2) (leBytes 2 data.length)
    |>.patch start path
    -- the spelling of the name is kept, that of the `/USER/` root is not
    |>.patch start userWritablePrefix
    |>.patch (start + path.length) data

/-- One iteration of the loop of `encode_snapshot`. -/
def encodeNode (w : Writer) (node : VfsNode) : Except StorageError Writer :=
  if isUserWritablePath node.path.asStr = false then .ok w
  else
    let path := node.path.asStr
    let data := storedData node
    if slotBytes < w.cursor + (entryHeaderBytes + path.length + data.length) then
      .error .noSpace
    else if w.entries = 255 ∨ path = [] ∨ 255 < path.length then .error .noSpace
    else
      .ok ⟨writeEntry w.output w.cursor path node.kind data,
        w.cursor + entryHeaderBytes + path.length + data.length, min 255 (w.entries + 1)⟩

/-- The loop of `encode_snapshot`. -/
def encodeNodes (w : Writer) : List VfsNode → Except StorageError Writer
  | [] => .ok w
  | node :: nodes =>
    match encodeNode w node with
    | .ok w' => encodeNodes w' nodes
    | .error e => .error e

variable (vfs : RamVfs) (snapshot : Snapshot)

/-- `encode_snapshot`, with the cleared output buffer as its result. -/
def encodeSnapshot (generation : UInt64) : Except StorageError Snapshot :=
  let output : Snapshot := FixedBytes.zero
    |>.patch 0 recordMagic
    |>.patch 4 (leBytes 2 recordVersion)
    |>.patch 7 [0]
    |>.patch 8 (leBytes 8 generation.toNat)
  match encodeNodes ⟨output, recordHeaderBytes, 0⟩ vfs.listRoot with
  | .error e => .error e
  | .ok w =>
    if w.entries = 0 then .error .invalidRecord
    else .ok (w.output.patch 6 [UInt8.ofNat w.entries] |>.patch 16 (leBytes 4 w.cursor))

/-! ## §4. Decoding. -/

/-- One round of the checksum; its own four bytes count as zero. -/
def checksumStep (hash : UInt32) (item : UInt8 × Nat) : UInt32 :=
  let masked := recordChecksumOffset ≤ item.2 ∧ item.2 < recordChecksumOffset + 4
  (hash ^^^ if masked then 0 else item.1.toUInt32) * 0x01000193

/-- `checksum`. -/
def checksum (bytes : Bytes) : UInt32 := bytes.zipIdx.foldl checksumStep 0x811c9dc5

/-- The part of `decode_entry` behind the kind byte. -/
def decodeBody (cursor used : Nat) (kind : NodeKind) : Except StorageError (Entry × Nat) :=
  let pathLen := (snapshot.byte cursor).toNat
  let dataLen := leNat (snapshot.slice (cursor + 2) 2)
  if pathLen = 0 ∨ (kind = .directory ∧ dataLen ≠ 0) then .error .invalidRecord
  else
    let pathStart := cursor + entryHeaderBytes
    let dataStart := pathStart + pathLen
    let stop := dataStart + dataLen
    if used < stop then .error .invalidRecord
    else .ok (⟨snapshot.slice pathStart pathLen, kind, snapshot.slice dataStart dataLen⟩, stop)

/-- `decode_entry`: the entry at `cursor` and the offset behind it. -/
def decodeEntry (cursor used : Nat) : Except StorageError (Entry × Nat) :=
  if slotBytes < used ∨ used < cursor + entryHeaderBytes then .error .invalidRecord
  else if snapshot.byte (cursor + 1) = 1 then decodeBody snapshot cursor used .file
  else if snapshot.byte (cursor + 1) = 2 then decodeBody snapshot cursor used .directory
  else .error .invalidRecord

/-- The checks `validate_snapshot` makes of an entry, given the table of the
entries before it. -/
def acceptsEntry (prior : List (Bytes × NodeKind)) (path : Bytes) (data : Bytes) : Bool :=
  let wellFormed := userWritablePrefix.isPrefixOf path && validAbsolutePath path
    && decide (data.length ≤ maxFileBytes)
    && !prior.any (fun other => eqIgnoreAsciiCase other.1 path)
  wellFormed &&
    match rfind slash path with
    | none => false
    | some k =>
      let parent := path.take k
      parent == userRoot
        || prior.any (fun other => other.2 == .directory && eqIgnoreAsciiCase other.1 parent)

/-- The entry loop of `validate_snapshot`: the final cursor. -/
def validateEntries (snapshot : Snapshot) (used : Nat) :
    Nat → Nat → List (Bytes × NodeKind) → Except StorageError Nat
  | 0, cursor, _ => .ok cursor
  | remaining + 1, cursor, prior =>
    match decodeEntry snapshot cursor used with
    | .error e => .error e
    | .ok (entry, next) =>
      match fromUtf8 entry.path with
      | none => .error .invalidRecord
      | some path =>
        if acceptsEntry prior path entry.data then
          validateEntries snapshot used remaining next (prior ++ [(path, entry.kind)])
        else .error .invalidRecord

/-- The number of entries a header announces. -/
def entryCount : Nat := (snapshot.byte 6).toNat

/-- The number of bytes a header says are in use. -/
def usedBytes : Nat := leNat (snapshot.slice 16 4)

/-- The first tests of `validate_snapshot`: magic, version, count and commit byte. -/
def headerOk : Bool :=
  snapshot.slice 0 4 == recordMagic && leNat (snapshot.slice 4 2) == recordVersion
    && snapshot.byte 6 != 0 && decide (entryCount snapshot ≤ maxNodes - 2)
    && snapshot.byte 7 == recordCommitted

/-- `validate_snapshot`. -/
def validateSnapshot : Except StorageError UInt64 :=
  if headerOk snapshot = false then .error .invalidRecord
  else if usedBytes snapshot < recordHeaderBytes ∨ slotBytes < usedBytes snapshot then
    .error .invalidRecord
  else if (checksum snapshot.val).toNat ≠ leNat (snapshot.slice recordChecksumOffset 4) then
    .error .invalidRecord
  else
    match validateEntries snapshot (usedBytes snapshot) (entryCount snapshot)
        recordHeaderBytes [] with
    | .error e => .error e
    | .ok cursor =>
      if cursor ≠ usedBytes snapshot then .error .invalidRecord
      else .ok (UInt64.ofNat (leNat (snapshot.slice 8 8)))

/-! ## §5. Mounting a snapshot. -/

/-- `write` for a file, `mkdir` for a directory; any `VfsError` becomes `Vfs`. -/
def place (path : Bytes) (kind : NodeKind) (data : Bytes) : Except StorageError RamVfs :=
  let outcome := match kind with
    | .file => vfs.write path data
    | .directory => vfs.mkdir path
  match outcome with
  | (vfs', .ok ()) => .ok vfs'
  | (_, .error _) => .error .vfs

/-- The first loop of `apply_snapshot`: a private copy of the base. -/
def copyNodes (candidate : RamVfs) : List VfsNode → Except StorageError RamVfs
  | [] => .ok candidate
  | node :: nodes =>
    match place candidate node.path.asStr node.kind node.data with
    | .ok candidate' => copyNodes candidate' nodes
    | .error e => .error e

/-- The second loop of `apply_snapshot`: decode and insert the entries. -/
def applyEntries (snapshot : Snapshot) (used : Nat) :
    Nat → Nat → RamVfs → Except StorageError RamVfs
  | 0, _, candidate => .ok candidate
  | remaining + 1, cursor, candidate =>
    match decodeEntry snapshot cursor used with
    | .error e => .error e
    | .ok (entry, next) =>
      match fromUtf8 entry.path with
      | none => .error .invalidRecord
      | some path =>
        if userWritablePrefix.isPrefixOf path = false ∨ (candidate.find path).isSome then
          .error .invalidRecord
        else
          match place candidate path entry.kind entry.data with
          | .error e => .error e
          | .ok candidate' => applyEntries snapshot used remaining next candidate'

/-- The candidate namespace `apply_snapshot` builds. -/
def mountedCandidate : Except StorageError RamVfs :=
  match validateSnapshot snapshot with
  | .error e => .error e
  | .ok _ =>
    let fresh := if (vfs.find rootPath).isSome then RamVfs.initialised else RamVfs.new
    match copyNodes fresh vfs.listRoot with
    | .error e => .error e
    | .ok candidate =>
      applyEntries snapshot (usedBytes snapshot) (entryCount snapshot) recordHeaderBytes
        candidate

/-- `apply_snapshot`: the namespace is replaced at the very end or not at all. -/
def applySnapshot : RamVfs × Except StorageError Unit :=
  match mountedCandidate vfs snapshot with
  | .ok candidate => (candidate, .ok ())
  | .error e => (vfs, .error e)

/-! ## §6. The commit marker. -/

/-- How `commit_with` turns an encoded record into a committed one: the commit
byte, then the checksum over the record with a zero checksum field. -/
def sealSnapshot (buffer : Snapshot) : Snapshot :=
  let marked := buffer.patch 7 [recordCommitted]
    |>.patch recordChecksumOffset (List.replicate 4 0)
  marked.patch recordChecksumOffset (leBytes 4 (checksum marked.val).toNat)

end GenOS.Storage
