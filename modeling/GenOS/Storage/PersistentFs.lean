/-
  GenOS.Storage.PersistentFs — the two-slot store of `storage.rs`.

  A commit writes the slot that is not active: first an uncommitted header,
  then the payload, then the committed header, with a flush after each part.
  A mount reads both slots and takes the newest valid one.

  `commit_with` and `mount_device_with` borrow a slot-sized work buffer; every
  use of it starts by overwriting it, so it is not part of the state here.
  Console messages are left out.
-/
import GenOS.Storage.BlockCache

namespace GenOS.Storage

open GenOS.Lib GenOS.Vfs List

/-! ## §1. State. -/

/-- `SLOT_OFFSETS`. -/
def slotOffsets : Fin 2 → Nat
  | 0 => 1
  | 1 => 1 + slotSectors

/-- `slot ^ 1`. -/
def otherSlot : Fin 2 → Fin 2
  | 0 => 1
  | 1 => 0

inductive CommitFailure where
  | notPublished
  | unknown
  deriving DecidableEq, Repr

inductive CommitOutcome where
  | committed
  | rejected
  | failed (failure : CommitFailure)
  deriving DecidableEq, Repr

inductive PersistentBootState where
  | created
  | restored
  | recovered
  | readOnly
  | unavailable
  deriving DecidableEq, Repr

structure SlotSummary where
  generation : Option UInt64
  blank : Bool
  readable : Bool

structure PersistentFs where
  partition : Option Partition
  cache : BlockCache
  activeSlot : Option (Fin 2)
  generation : UInt64
  readOnly : Bool
  quarantine : Option CommitFailure

namespace PersistentFs

/-- `PersistentFs::unavailable`. -/
def unavailable : PersistentFs := ⟨none, .new, none, 0, true, none⟩

/-- `read_only`. -/
def isReadOnly (fs : PersistentFs) : Bool := fs.readOnly || fs.quarantine.isSome

end PersistentFs

instance : NeZero slotSectors := ⟨by decide⟩

/-- Sector `index` of a slot buffer. -/
def sectorOf (buffer : Snapshot) (index : Fin slotSectors) : Sector :=
  ⟨buffer.slice (index * sectorBytes) sectorBytes, by
    have h := index.isLt
    simp only [FixedBytes.slice, List.length_take, List.length_drop, FixedBytes.length_val]
    simp only [slotBytes, slotSectors, sectorBytes] at *
    omega⟩

theorem flatMap_sectors_length {ι : Type} (f : ι → Sector) (l : List ι) :
    (l.flatMap (fun i => (f i).val)).length = l.length * sectorBytes := by
  induction l with
  | nil => simp
  | cons i l ih =>
    simp only [flatMap_cons, length_append, FixedBytes.length_val, ih,
      length_cons, Nat.succ_mul]
    omega

/-- The slot buffer made of forty sectors. -/
def slotOf (sectors : Fin slotSectors → Sector) : Snapshot :=
  ⟨(List.finRange slotSectors).flatMap (fun i => (sectors i).val), by
    rw [flatMap_sectors_length, List.length_finRange, slotBytes]⟩

/-- The payload sectors `1..SLOT_SECTORS`. -/
def payloadIndices : List (Fin slotSectors) := (List.finRange slotSectors).tail

section Device

variable {σ : Type} [BlockIo σ]

/-! ## §2. Committing. -/

/-- The part of a commit before `publishing = true`: invalidate the target
slot, then store the payload. -/
def prepareSlot (base : Nat) (buffer : Snapshot) : CacheM σ Unit := do
  BlockCache.write base (sectorOf buffer 0)
  BlockCache.flush
  Fallible.forEach (fun index : Fin slotSectors =>
    BlockCache.write (base + index) (sectorOf buffer index)) payloadIndices
  BlockCache.flush

/-- The part of a commit after `publishing = true`: the committed header. -/
def publishHeader (base : Nat) (buffer : Snapshot) : CacheM σ Unit := do
  BlockCache.write base (sectorOf buffer 0)
  BlockCache.flush

namespace PersistentFs

variable (fs : PersistentFs)

/-- The quarantine after a failed write or flush. -/
def quarantined (cache : BlockCache) (failure : CommitFailure) : PersistentFs :=
  { fs with cache := cache.discard, quarantine := some failure }

/-- The device part of `commit_with`. -/
def writeRecord (target : Fin 2) (generation : UInt64) (base : Nat) (buffer : Snapshot) (io : σ) :
    PersistentFs × σ × CommitOutcome :=
  match prepareSlot base buffer (fs.cache, io) with
  | ((cache, io'), .error _) =>
    (fs.quarantined cache .notPublished, io', .failed .notPublished)
  | ((cache, io'), .ok ()) =>
    match publishHeader base (sealSnapshot buffer) (cache, io') with
    | ((cache', io''), .error _) => (fs.quarantined cache' .unknown, io'', .failed .unknown)
    | ((cache', io''), .ok ()) =>
      ({ fs with cache := cache', activeSlot := some target, generation := generation }, io'',
        .committed)

/-- The slot the next commit writes. -/
def targetSlot : Fin 2 := (fs.activeSlot.map otherSlot).getD 0

/-- `commit_with`. -/
def commitWith (vfs : RamVfs) (io : σ) : PersistentFs × σ × CommitOutcome :=
  match fs.partition with
  | none => (fs, io, .rejected)
  | some partition =>
    if fs.isReadOnly then (fs, io, .rejected)
    else if fs.generation.toNat + 1 = 2 ^ 64 then (fs, io, .rejected)
    else
      match encodeSnapshot vfs (fs.generation + 1) with
      | .error _ => (fs, io, .rejected)
      | .ok buffer =>
        let base := partition.startLba + slotOffsets fs.targetSlot
        if 2 ^ 32 ≤ base then (fs, io, .rejected)
        else fs.writeRecord fs.targetSlot (fs.generation + 1) base buffer io

end PersistentFs

/-! ## §3. Reading slots. -/

/-- Read the given sectors one after the other. -/
def readSectors (base : Nat) : List (Fin slotSectors) → CacheM σ (List Sector)
  | [] => pure []
  | index :: rest => do
    let sector ← BlockCache.read (base + index)
    let sectors ← readSectors base rest
    pure (sector :: sectors)

variable (partition : Partition) (fs : PersistentFs) (left right : SlotSummary) (vfs : RamVfs)

/-- `read_slot_with`. -/
def readSlotWith (slot : Fin 2) : CacheM σ Snapshot :=
  let base := partition.startLba + slotOffsets slot
  if 2 ^ 32 ≤ base then Fallible.fail .invalidPartition
  else do
    let sectors ← readSectors base (List.finRange slotSectors)
    pure (slotOf (fun i => sectors.getD i FixedBytes.zero))

/-- `discover_partition`. -/
def discoverPartition : CacheM σ Partition := do
  let mbr ← BlockCache.read 0
  let cached ← BlockCache.read 0
  if cached ≠ mbr then Fallible.fail .device
  else Fallible.ofExcept (parsePartition mbr.val)

/-- The summary of one slot in `mount_device_with`. -/
def summarize (slot : Fin 2) (s : BlockCache × σ) : (BlockCache × σ) × SlotSummary :=
  match readSlotWith partition slot s with
  | (s', .error _) => (s', ⟨none, false, false⟩)
  | (s', .ok buffer) =>
    (s', ⟨(validateSnapshot buffer).toOption, buffer.val.all (· == 0), true⟩)

/-- `newest_valid_slot`. -/
def newestValidSlot : Option (Fin 2) :=
  match left.generation, right.generation with
  | some l, some r => if l < r then some 1 else some 0
  | some _, none => some 0
  | none, some _ => some 1
  | none, none => none

/-! ## §4. Mounting. -/

def statusPath : Bytes := ascii "/STORAGE.STATUS".toList
def persistentPath : Bytes := ascii "/USER/PERSIST.TXT".toList
def keepPath : Bytes := ascii "/USER/KEEP.TXT".toList
def persistentPayload : Bytes := ascii "GenOS persistent storage survived a reboot.".toList
def keepPayload : Bytes := ascii "unrelated file remains intact".toList

/-- `seed_status`. -/
def seedStatus (status : String) : RamVfs × Bool :=
  match vfs.write statusPath (ascii status.toList) with
  | (vfs', .ok ()) => (vfs', true)
  | (vfs', .error _) => (vfs', false)

/-- What `mount_device_with` leaves behind. -/
structure Mounted (σ : Type) where
  state : PersistentBootState
  fs : PersistentFs
  vfs : RamVfs
  io : σ

/-- `unavailable`. -/
def unavailable (vfs : RamVfs) (io : σ) : Mounted σ :=
  ⟨.unavailable, .unavailable, (seedStatus vfs "state=error").1, io⟩

/-- `publish_failure_status`. -/
def publishFailureStatus : RamVfs :=
  match fs.quarantine with
  | some .notPublished =>
    (seedStatus vfs
      "state=readonly\ncommit=not-published\nview=last-acknowledged\nrecovery=remount").1
  | some .unknown =>
    (seedStatus vfs
      "state=readonly\ncommit=unknown\nview=last-acknowledged\nrecovery=remount").1
  | none => vfs

/-- The branch of `mount_device_with` that restores the selected slot. -/
def restoreVolume (summaries : Fin 2 → SlotSummary) (selected : Fin 2) (vfs : RamVfs)
    (s : BlockCache × σ) : Mounted σ :=
  match readSlotWith partition selected s with
  | ((_, io), .error _) => unavailable vfs io
  | ((cache, io), .ok buffer) =>
    match applySnapshot vfs buffer with
    | (vfs', .error _) => unavailable vfs' io
    | (vfs', .ok ()) =>
      let fs : PersistentFs := ⟨some partition, cache, some selected,
        (summaries selected).generation.getD 0, partition.readOnly, none⟩
      if partition.readOnly then
        ⟨.readOnly, fs, (seedStatus vfs' "state=readonly").1, io⟩
      else
        let other := summaries (otherSlot selected)
        if !other.readable || (!other.blank && other.generation.isNone) then
          ⟨.recovered, fs, (seedStatus vfs' "state=recovered").1, io⟩
        else ⟨.restored, fs, (seedStatus vfs' "state=healthy").1, io⟩

/-- The two seed files; the second write only happens after the first one. -/
def writeSeeds : RamVfs × Bool :=
  match vfs.write persistentPath persistentPayload with
  | (vfs', .error _) => (vfs', false)
  | (vfs', .ok ()) =>
    match vfs'.write keepPath keepPayload with
    | (vfs'', .error _) => (vfs'', false)
    | (vfs'', .ok ()) => (vfs'', true)

/-- The end of a failed creation: no seed file stays visible in RAM. -/
def abandonCreation (io : σ) : Mounted σ :=
  let cleaned := ((vfs.remove persistentPath).1.remove keepPath).1
  if fs.quarantine.isSome then ⟨.unavailable, fs, publishFailureStatus fs cleaned, io⟩
  else unavailable cleaned io

/-- The branch of `mount_device_with` that creates a volume on blank slots. -/
def createVolume (io : σ) : Mounted σ :=
  if (vfs.find persistentPath).isSome ∨ (vfs.find keepPath).isSome then unavailable vfs io
  else
    match writeSeeds vfs with
    | (vfs', false) => abandonCreation fs vfs' io
    | (vfs', true) =>
      match fs.commitWith vfs' io with
      | (fs', io', .committed) => ⟨.created, fs', (seedStatus vfs' "state=healthy").1, io'⟩
      | (fs', io', _) => abandonCreation fs' vfs' io'

/-- The array of the two summaries. -/
def summaryOf : Fin 2 → SlotSummary
  | 0 => left
  | 1 => right

/-- The part of `mount_device_with` after both slots were summarized. -/
def mountScanned (s : BlockCache × σ) : Mounted σ :=
  match newestValidSlot left right with
  | some selected => restoreVolume partition (summaryOf left right) selected vfs s
  | none =>
    if !partition.readOnly && left.readable && left.blank && right.readable && right.blank then
      createVolume ⟨some partition, s.1, none, 0, partition.readOnly, none⟩ vfs s.2
    else unavailable vfs s.2

/-- `mount_device_with`. -/
def mountDeviceWith (vfs₀ : RamVfs) (io₀ : σ) : Mounted σ :=
  match seedStatus vfs₀ "state=error" with
  | (vfs, false) => unavailable vfs io₀
  | (vfs, true) =>
    match discoverPartition (BlockCache.new, io₀) with
    | ((_, io), .error _) => unavailable vfs io
    | (s₀, .ok partition) =>
      let (s₁, left) := summarize partition 0 s₀
      let (s₂, right) := summarize partition 1 s₁
      mountScanned partition left right vfs s₂

end Device

/-! ## §5. A slot and its sectors. -/

/-- Cutting a buffer into sectors and joining them again. -/
theorem slotOf_sectorOf (s : Snapshot) : slotOf (sectorOf s) = s := by
  have hjoin : ∀ k, (range k).flatMap (fun i => (s.val.drop (i * sectorBytes)).take sectorBytes)
      = s.val.take (k * sectorBytes) := by
    intro k
    induction k with
    | zero => simp
    | succ k ih => rw [range_succ, flatMap_append, ih, Nat.succ_mul, take_add]; simp
  apply FixedBytes.ext
  have hmap : (finRange slotSectors).flatMap (fun i => (sectorOf s i).val)
      = (range slotSectors).flatMap
          (fun i => (s.val.drop (i * sectorBytes)).take sectorBytes) := by
    rw [← map_coe_finRange_eq_range, flatMap_map]
    rfl
  show (finRange slotSectors).flatMap (fun i => (sectorOf s i).val) = s.val
  rw [hmap, hjoin, take_of_length_le]
  rw [s.length_val]
  exact Nat.le_refl _

theorem flatMap_sector {ι : Type} (f : ι → Sector) (l : List ι) : ∀ {k : Nat} {i : ι},
    l[k]? = some i →
    ((l.flatMap (fun i => (f i).val)).drop (k * sectorBytes)).take sectorBytes = (f i).val := by
  induction l with
  | nil => intro k i h; simp at h
  | cons x l ih =>
    intro k i h
    cases k with
    | zero =>
      rw [getElem?_cons_zero, Option.some.injEq] at h
      subst h
      rw [Nat.zero_mul, drop_zero, flatMap_cons, take_left' (f x).property]
    | succ k =>
      rw [getElem?_cons_succ] at h
      rw [flatMap_cons, Nat.succ_mul, Nat.add_comm, ← drop_drop,
        drop_left' (f x).property]
      exact ih h

theorem sectorOf_slotOf (sectors : Fin slotSectors → Sector) (i : Fin slotSectors) :
    sectorOf (slotOf sectors) i = sectors i := by
  apply FixedBytes.ext
  exact flatMap_sector sectors (finRange slotSectors) (by simp)

/-- A slot is determined by its sectors. -/
theorem slotOf_eq_iff {sectors : Fin slotSectors → Sector} {s : Snapshot} :
    slotOf sectors = s ↔ ∀ i, sectors i = sectorOf s i := by
  constructor
  · rintro rfl i
    rw [sectorOf_slotOf]
  · intro h
    rw [← slotOf_sectorOf s]
    congr 1
    funext i
    exact h i

end GenOS.Storage
