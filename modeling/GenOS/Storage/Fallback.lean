/-
  GenOS.Storage.Fallback — which slot a mount tries, and when that is enough.

  `mount_device_with` picks the valid slot with the newest generation and
  gives up when that one does not mount.  Whether a slot is valid is decided
  without the base namespace, so a slot may be valid and still not mount: the
  validator admits `MAX_NODES - 2` entries, while the status file reserved
  before the import leaves room for fewer.  An older slot that would mount is
  then not tried (`mount_hides_older_slot`).
-/
import GenOS.Storage.Runs

namespace GenOS.Storage

open GenOS.Lib GenOS.Vfs

variable {g : UInt64}

section Fallback

variable {base base₁ : RamVfs} {f : Nat → Sector} {partition : Partition} {o : Oracle}

/-! ## §1. The slot a mount tries. -/

theorem restoreVolume_available (hreads : ∀ n, o.readOk n = true) (hp : SlotsAddressable partition)
    {s : BlockCache × Disk} (hs : Reading f o s) (summaries : Fin 2 → SlotSummary)
    (selected : Fin 2) (v : RamVfs) :
    (restoreVolume partition summaries selected v s).state ≠ .unavailable
      ↔ ∃ w, applySnapshot v (diskSlot f partition selected) = (w, .ok ()) := by
  obtain ⟨s', hread, -⟩ := readSlotWith_readable hreads hp selected hs
  unfold restoreVolume
  simp only [hread]
  cases happly : applySnapshot v (diskSlot f partition selected) with
  | mk w result =>
    cases result with
    | error e => simp [unavailable]
    | ok u =>
      simp only
      split_ifs <;> simp

/-- A valid slot makes the mount select one. -/
theorem newestValidSlot_isSome {slot : Fin 2}
    (h : validateSnapshot (diskSlot f partition slot) = .ok g) :
    ∃ selected, newestValidSlot (diskSummary f partition 0) (diskSummary f partition 1)
      = some selected := by
  have hgen : (diskSummary f partition slot).generation = some g := by
    rw [diskSummary, h]
    rfl
  unfold newestValidSlot
  obtain rfl | rfl : slot = 0 ∨ slot = 1 := by omega
  · rw [hgen]
    cases (diskSummary f partition 1).generation with
    | none => exact ⟨0, rfl⟩
    | some r =>
      by_cases hlt : g < r
      · exact ⟨1, if_pos hlt⟩
      · exact ⟨0, if_neg hlt⟩
  · rw [hgen]
    cases (diskSummary f partition 0).generation with
    | none => exact ⟨1, rfl⟩
    | some l =>
      by_cases hlt : l < g
      · exact ⟨1, if_pos hlt⟩
      · exact ⟨0, if_neg hlt⟩

/-! ## §2. When a usable slot is enough. -/

/-- **A usable slot is mounted when the newest valid slot fits the base.**
One of the two slots mounts on the base.  The mount then succeeds exactly when
the valid slot with the newest generation has none of its paths taken and room
for its entries beside the status file. -/
theorem mount_of_usable_slot (hbase : Reachable base) (hreads : ∀ n, o.readOk n = true)
    (hseed : seedStatus base "state=error" = (base₁, true))
    (hpart : diskPartition f = .ok partition)
    (husable : ∃ slot w, applySnapshot base (diskSlot f partition slot) = (w, .ok ())) :
    (mountDeviceWith base (Disk.boot f o)).state ≠ .unavailable
      ↔ ∃ selected,
          newestValidSlot (diskSummary f partition 0) (diskSummary f partition 1) = some selected
          ∧ (∀ e ∈ snapshotEntries (diskSlot f partition selected), base₁.find e.path = none)
          ∧ base₁.count + entryCount (diskSlot f partition selected) ≤ maxNodes := by
  have hi := reachable_inv hbase
  obtain ⟨slot, w, hw⟩ := husable
  obtain ⟨⟨g, hg⟩, hoffers⟩ := (applySnapshot_mounts_iff hi _).mp ⟨w, hw⟩
  -- the seeded base still has `/USER`
  have hbase₁ : (seedStatus base "state=error").1 = base₁ := by rw [hseed]
  have hi₁ : VfsInv base₁ := hbase₁ ▸ vfsInv_seedStatus hi "state=error"
  have huser₁ : HasUserRoot base₁ := hbase₁ ▸ hoffers.user.seedStatus "state=error"
  obtain ⟨selected, hsel⟩ := newestValidSlot_isSome hg
  obtain ⟨g', hg'⟩ := newestValidSlot_valid hsel
  have hlen := (validateSnapshot_entries hg').1
  obtain ⟨s, hs, hmount⟩ := mountDeviceWith_readable hreads hseed hpart
  have hscan : mountScanned partition (diskSummary f partition 0) (diskSummary f partition 1)
      base₁ s = restoreVolume partition
        (summaryOf (diskSummary f partition 0) (diskSummary f partition 1)) selected base₁ s := by
    simp only [mountScanned, hsel]
  rw [hmount, hscan, restoreVolume_available hreads (parsePartition_addressable hpart) hs,
    applySnapshot_mounts_iff hi₁]
  constructor
  · rintro ⟨-, h⟩
    refine ⟨selected, hsel, h.free, ?_⟩
    rw [← hlen]
    exact h.room
  · rintro ⟨selected', hsel', hfree, hroom⟩
    rw [hsel, Option.some.injEq] at hsel'
    subst hsel'
    rw [← hlen] at hroom
    exact ⟨⟨g', hg'⟩, huser₁, hfree, hroom⟩

end Fallback

/-! ## §3. A full newer slot. -/

theorem diskSlot_withSlot_other {f : Nat → Sector} {partition : Partition} {s t : Fin 2}
    (hst : s ≠ t) (u : Snapshot) :
    diskSlot (withSlot f (partition.startLba + slotOffsets t) u) partition s
      = diskSlot f partition s := by
  have hsame : ∀ i : Fin slotSectors,
      withSlot f (partition.startLba + slotOffsets t) u (partition.startLba + slotOffsets s + i)
        = f (partition.startLba + slotOffsets s + i) :=
    fun i => withSlot_outside _ _ _ (fun j => slot_disjoint hst i j)
  simp only [diskSlot, hsame]

/-- A device that carries out every command. -/
def reliableDevice : Oracle := ⟨fun _ => .ok, fun _ => true⟩

/-- The partition of the blank disk. -/
def blankPartition : Partition := ⟨1, 81, false⟩

variable (left right : Snapshot)

/-- The blank disk with two records stored. -/
def twoSlots : Nat → Sector :=
  withSlot (withSlot blankDisk (blankPartition.startLba + slotOffsets ⟨0, Nat.two_pos⟩) left)
    (blankPartition.startLba + slotOffsets ⟨1, Nat.one_lt_two⟩) right

theorem twoSlots_eq : twoSlots left right
    = withSlot (withSlot blankDisk (blankPartition.startLba + slotOffsets 0) left)
      (blankPartition.startLba + slotOffsets 1) right := rfl

theorem diskPartition_twoSlots : diskPartition (twoSlots left right) = .ok blankPartition := by
  have hstart : blankPartition.startLba = 1 := rfl
  have hzero : twoSlots left right 0 = blankDisk 0 := by
    rw [twoSlots, withSlot_outside _ _ _ (fun i => by omega),
      withSlot_outside _ _ _ (fun i => by omega)]
  rw [diskPartition, hzero]
  decide +kernel

theorem diskSlot_twoSlots :
    diskSlot (twoSlots left right) blankPartition 0 = left
      ∧ diskSlot (twoSlots left right) blankPartition 1 = right := by
  constructor
  · rw [twoSlots_eq, diskSlot_withSlot_other (by decide), diskSlot_withSlot]
  · rw [twoSlots_eq, diskSlot_withSlot]

/-- Thirty empty files below `/USER`. -/
def fillUser : List VfsOp :=
  (List.range 30).map (fun k =>
    .write (userWritablePrefix ++ [UInt8.ofNat (65 + k / 10), UInt8.ofNat (65 + k % 10)]) [])

theorem seedStatus_boot :
    seedStatus bootNamespace "state=error" = ((seedStatus bootNamespace "state=error").1, true) :=
  Prod.ext rfl (by decide +kernel)

/-- The slot of a namespace with one file mounts on the boot namespace, with
or without the status file. -/
theorem oneUserFile_mounts {s : Snapshot} (h : SealedRecord s (restoredNodes oneUserFile) g) :
    (∃ w, applySnapshot bootNamespace s = (w, .ok ()))
      ∧ ∃ w, applySnapshot (seedStatus bootNamespace "state=error").1 s = (w, .ok ()) := by
  constructor
  · obtain ⟨w, hw, -⟩ := h.apply bootNamespace_base (by decide +kernel)
    exact ⟨w, hw⟩
  · obtain ⟨w, hw, -⟩ := h.apply (bootNamespace_base.seedStatus "state=error") (by decide +kernel)
    exact ⟨w, hw⟩

/-- Slot 0 is taken when both slots hold the same record. -/
theorem newestValidSlot_twoSlots {s : Snapshot} (h : validateSnapshot s = .ok g) :
    newestValidSlot (diskSummary (twoSlots s s) blankPartition 0)
      (diskSummary (twoSlots s s) blankPartition 1) = some 0 := by
  obtain ⟨hleft, hright⟩ := diskSlot_twoSlots s s
  simp only [newestValidSlot, diskSummary, hleft, hright, h, Except.toOption]
  exact if_neg (UInt64.lt_irrefl g)

/-- Two copies of one usable slot mount. -/
theorem mount_of_usable_slot_oneUserFile :
    ∃ s, (mountDeviceWith bootNamespace
      (Disk.boot (twoSlots s s) reliableDevice)).state ≠ .unavailable := by
  obtain ⟨u, -, hrec⟩ := encodeSnapshot_sealed (reachable_inv oneUserFile_reachable)
    (by decide +kernel) 1
  obtain ⟨s, hs⟩ : ∃ s, s = sealSnapshot u := ⟨_, rfl⟩
  rw [← hs] at hrec
  obtain ⟨hleft, -⟩ := diskSlot_twoSlots s s
  have hcount := (validateSnapshot_entries hrec.valid).1
  refine ⟨s, (mount_of_usable_slot bootNamespace_reachable (fun _ => rfl) seedStatus_boot
    (diskPartition_twoSlots s s) ⟨0, ?_⟩).mpr ⟨0, newestValidSlot_twoSlots hrec.valid, ?_, ?_⟩⟩
  · rw [hleft]
    exact (oneUserFile_mounts hrec).1
  · rw [hleft, hrec.snapshotEntries_eq]
    decide +kernel
  · rw [hleft, ← hcount, hrec.snapshotEntries_eq]
    decide +kernel

/-- **A full newer slot hides a usable older one.**  Slot 0 mounts on the boot
namespace, with and without its status file; slot 1 holds the thirty entries
the format admits under a newer generation, and the mount gives up. -/
theorem mount_hides_older_slot :
    ∃ left right,
      diskPartition (twoSlots left right) = .ok blankPartition
      ∧ (∃ w, applySnapshot bootNamespace
          (diskSlot (twoSlots left right) blankPartition 0) = (w, .ok ()))
      ∧ (∃ w, applySnapshot (seedStatus bootNamespace "state=error").1
          (diskSlot (twoSlots left right) blankPartition 0) = (w, .ok ()))
      ∧ (seedStatus bootNamespace "state=error").2 = true
      ∧ (mountDeviceWith bootNamespace
          (Disk.boot (twoSlots left right) reliableDevice)).state
        = .unavailable := by
  obtain ⟨u, -, hone⟩ := encodeSnapshot_sealed (reachable_inv oneUserFile_reachable)
    (by decide +kernel) 1
  obtain ⟨u', -, hfull⟩ := encodeSnapshot_sealed
    (reachable_inv (reachable_foldl fillUser bootNamespace_reachable)) (by decide +kernel) 2
  obtain ⟨left, hl⟩ : ∃ s, s = sealSnapshot u := ⟨_, rfl⟩
  obtain ⟨right, hr⟩ : ∃ s, s = sealSnapshot u' := ⟨_, rfl⟩
  rw [← hl] at hone
  rw [← hr] at hfull
  obtain ⟨hleft, hright⟩ := diskSlot_twoSlots left right
  obtain ⟨hmount, hmount'⟩ := oneUserFile_mounts hone
  refine ⟨left, right, diskPartition_twoSlots left right, by rw [hleft]; exact hmount,
    by rw [hleft]; exact hmount', by decide +kernel, ?_⟩
  -- the newer generation is selected
  have hsel : newestValidSlot (diskSummary (twoSlots left right) blankPartition 0)
      (diskSummary (twoSlots left right) blankPartition 1) = some 1 := by
    simp only [newestValidSlot, diskSummary, hleft, hright, hone.valid, hfull.valid,
      Except.toOption]
    rfl
  obtain ⟨s, hs, heq⟩ := mountDeviceWith_readable (o := reliableDevice)
    (fun _ => rfl) seedStatus_boot (diskPartition_twoSlots left right)
  by_contra hne
  rw [heq] at hne
  simp only [mountScanned, hsel] at hne
  have happly := (restoreVolume_available (fun _ => rfl)
    (parsePartition_addressable (diskPartition_twoSlots left right)) hs _ _ _).mp hne
  rw [hright, applySnapshot_mounts_iff (bootNamespace_base.seedStatus "state=error").inv,
    hfull.snapshotEntries_eq] at happly
  -- three nodes and thirty entries are more than thirty-two
  exact absurd happly.2.room (by decide +kernel)

end GenOS.Storage
