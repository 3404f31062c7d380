/-
  GenOS.Storage.Acknowledgement — which accepted mutations are made persistent.

  On a writable volume with generations left, over a device that carries out
  every command, the encoder is the only part of a commit that can still
  refuse.  The bounds of a reachable file system keep every record inside its
  slot (`encodeSnapshot_sealed`); what remains is the record without entries,
  which the format excludes (`commitWith_empty`).
-/
import GenOS.Storage.Fallback
import GenOS.Storage.Rollback

namespace GenOS.Storage

open GenOS.Lib GenOS.Vfs

/-! ## §1. Namespaces without user nodes. -/

/-- Without a user node the commit stops before it reaches the device. -/
theorem commitWith_empty {fs : PersistentFs} {v : RamVfs} (h : userNodes v = []) {σ : Type}
    [BlockIo σ] (io : σ) : fs.commitWith v io = (fs, io, .rejected) := by
  unfold PersistentFs.commitWith
  cases henc : encodeSnapshot v (fs.generation + 1) with
  | ok s => exact absurd h (encodeSnapshot_nonempty henc)
  | error e =>
    split
    · rfl
    · split_ifs <;> rfl

/-! ## §2. Accepted mutations. -/

/-- **An accepted mutation is committed when a user node is left.**  The volume
is mounted and writable and has generations left, and its device carries out
every command.  A mutation below `/USER` that the file system accepts is then
committed, unless nothing below `/USER` is left: that one is rejected. -/
theorem accepted_mutation_committed {s : Session Disk} {mbr : Bytes} {partition : Partition}
    (hpartition : s.fs.partition = some partition) (hparse : parsePartition mbr = .ok partition)
    (hwritable : s.fs.isReadOnly = false) (hgeneration : s.fs.generation.toNat + 1 < 2 ^ 64)
    (hdevice : Reliable s.io.oracle) (hvfs : Reachable s.vfs) {α : Type}
    {operation : RamVfs → Outcome α} (hop : UserMutation operation) {v : RamVfs} {value : α}
    (haccepted : operation s.vfs = (v, .ok value)) :
    ((∃ n ∈ v.nodes, isUserNode n = true) → s.outcome operation = some .committed)
      ∧ ((∀ n ∈ v.nodes, isUserNode n = false) → s.outcome operation = some .rejected) := by
  have hout : s.outcome operation = some (s.fs.commitWith v s.io).2.2 := by
    simp only [Session.outcome, haccepted]
  have hi : VfsInv v := by
    obtain ⟨calls, -, hcalls⟩ := hop s.vfs
    rw [haccepted] at hcalls
    have hv : v = calls.foldl VfsOp.apply s.vfs := hcalls
    rw [hv]
    exact reachable_inv (reachable_foldl calls hvfs)
  rw [hout]
  constructor
  · rintro ⟨n, hn, hu⟩
    have hne : userNodes v ≠ [] := List.ne_nil_of_mem (List.mem_filter.mpr ⟨hn, hu⟩)
    rw [commitWith_reliable hdevice rfl hpartition (parsePartition_addressable hparse) hwritable
      (Nat.ne_of_lt hgeneration) hi hne]
  · intro hnone
    have hempty : userNodes v = [] := by
      refine List.filter_eq_nil_iff.mpr (fun n hn => ?_)
      simp [hnone n hn]
    rw [commitWith_empty hempty]

/-! ## §3. The last file. -/

/-- The file of `oneUserFile` under the spelling it is restored with. -/
def lastFile : Bytes := ascii ['/', 'U', 'S', 'E', 'R', '/', 'a']

/-- A single call below `/USER/` is a mutation. -/
theorem userMutation_of_call {α : Type} {operation : RamVfs → Outcome α} (call : VfsOp)
    (hbelow : BelowUser (pathOf call)) (h : ∀ v, (operation v).1 = call.apply v) :
    UserMutation operation := by
  intro v
  refine ⟨[call], ?_, h v⟩
  intro op hop
  rw [List.mem_singleton.mp hop]
  exact hbelow

/-- Mounting two copies of the slot with one file restores that file. -/
theorem oneUserFile_restored {s : Snapshot} (h : SealedRecord s (restoredNodes oneUserFile) 1) :
    ∃ cache io w,
      mountDeviceWith bootNamespace (Disk.boot (twoSlots s s) reliableDevice)
        = ⟨.restored, ⟨some blankPartition, cache, some 0, 1, false, none⟩,
          (seedStatus w "state=healthy").1, io⟩
      ∧ io.oracle = reliableDevice
      ∧ w.nodes = (seedStatus bootNamespace "state=error").1.nodes ++ restoredNodes oneUserFile
      ∧ Reachable w := by
  have hreads : ∀ n, reliableDevice.readOk n = true := fun _ => rfl
  have hpart := diskPartition_twoSlots s s
  obtain ⟨hleft, hright⟩ := diskSlot_twoSlots s s
  obtain ⟨c, hc, hmount⟩ := mountDeviceWith_readable hreads seedStatus_boot hpart
  obtain ⟨⟨cache, io⟩, hread, hio⟩ :=
    readSlotWith_readable hreads (parsePartition_addressable hpart) 0 hc
  obtain ⟨w, hw, hnodes, -⟩ :=
    h.apply (bootNamespace_base.seedStatus "state=error") (by decide +kernel)
  refine ⟨cache, io, w, ?_, hio.oracle, hnodes, ?_⟩
  · rw [hmount]
    have hother : diskSummary (twoSlots s s) blankPartition 1
        = ⟨some 1, s.val.all (· == 0), true⟩ := by
      rw [diskSummary, hright, h.valid]
      rfl
    have hgen : (diskSummary (twoSlots s s) blankPartition 0).generation = some 1 := by
      rw [diskSummary, hleft, h.valid]
      rfl
    have hro : blankPartition.readOnly = false := rfl
    simp only [mountScanned, newestValidSlot_twoSlots h.valid]
    simp only [restoreVolume, hread, hleft, hw, summaryOf, otherSlot, hother, hgen, hro]
    simp
  · exact applySnapshot_reachable (seedStatus_reachable bootNamespace_reachable _) hw

/-- The namespace after that mount: root, `/USER`, the status file, one file. -/
def restoredView : RamVfs :=
  ⟨(seedStatus bootNamespace "state=healthy").1.nodes ++ restoredNodes oneUserFile,
    by decide +kernel⟩

/-- The session after that mount. -/
structure OneFileSession (s : Session Disk) : Prop where
  mounted : ∃ slot, (mountDeviceWith bootNamespace
      (Disk.boot (twoSlots slot slot) reliableDevice)).state = .restored
    ∧ s = Session.ofMount (mountDeviceWith bootNamespace
      (Disk.boot (twoSlots slot slot) reliableDevice))
  partition : s.fs.partition = some blankPartition
  writable : s.fs.isReadOnly = false
  generation : s.fs.generation = 1
  oracle : s.io.oracle = reliableDevice
  reachable : Reachable s.vfs
  vfs : s.vfs = restoredView

theorem exists_oneFileSession : ∃ s, OneFileSession s := by
  obtain ⟨u, -, hrec⟩ := encodeSnapshot_sealed (reachable_inv oneUserFile_reachable)
    (by decide +kernel) 1
  obtain ⟨slot, hslot⟩ : ∃ slot, slot = sealSnapshot u := ⟨_, rfl⟩
  rw [← hslot] at hrec
  obtain ⟨cache, io, w, hmount, hio, hnodes, hw⟩ := oneUserFile_restored hrec
  refine ⟨_, ⟨slot, by rw [hmount], rfl⟩, ?_, ?_, ?_, ?_, ?_, ?_⟩
  · rw [hmount]; rfl
  · rw [hmount]; rfl
  · rw [hmount]; rfl
  · rw [hmount]; exact hio
  · rw [hmount]; exact seedStatus_reachable hw _
  rw [hmount]
  have hval : w = ⟨(seedStatus bootNamespace "state=error").1.nodes ++ restoredNodes oneUserFile,
      by decide +kernel⟩ := RamVfs.ext hnodes
  rw [hval]
  apply RamVfs.ext
  show (seedStatus _ "state=healthy").1.nodes = restoredView.nodes
  decide +kernel

/-- Writing a second file to that volume is committed. -/
theorem accepted_mutation_committed_oneFile :
    ∃ s, OneFileSession s
      ∧ s.outcome (fun v => v.write (ascii ['/', 'U', 'S', 'E', 'R', '/', 'b']) [1])
        = some .committed := by
  obtain ⟨s, hs⟩ := exists_oneFileSession
  have haccepted : s.vfs.write (ascii ['/', 'U', 'S', 'E', 'R', '/', 'b']) [1]
      = ((restoredView.write (ascii ['/', 'U', 'S', 'E', 'R', '/', 'b']) [1]).1, .ok ()) := by
    rw [hs.vfs]
    exact Prod.ext rfl (by decide +kernel)
  have hparse : parsePartition (blankDisk 0).val = .ok blankPartition := by decide +kernel
  have hgeneration : s.fs.generation.toNat + 1 < 2 ^ 64 := by
    rw [hs.generation]
    decide
  have hdevice : Reliable s.io.oracle := by
    rw [hs.oracle]
    exact ⟨fun _ => rfl, fun _ => rfl⟩
  refine ⟨s, hs, (accepted_mutation_committed hs.partition hparse hs.writable hgeneration hdevice
    hs.reachable (userMutation_of_call (.write _ _) ?_ (fun _ => rfl)) haccepted).1 ?_⟩
  · show foldCase _ = foldCase _
    decide +kernel
  · decide +kernel

/-- **Removing the last file is accepted and not committed.** -/
theorem last_remove_rejected :
    ∃ s, OneFileSession s ∧ UserMutation (fun v : RamVfs => v.remove lastFile)
      ∧ (∃ v, s.vfs.remove lastFile = (v, .ok ()))
      ∧ s.outcome (fun v => v.remove lastFile) = some .rejected := by
  obtain ⟨s, hs⟩ := exists_oneFileSession
  have haccepted : s.vfs.remove lastFile = ((restoredView.remove lastFile).1, .ok ()) := by
    rw [hs.vfs]
    exact Prod.ext rfl (by decide +kernel)
  have hempty : userNodes (restoredView.remove lastFile).1 = [] := by decide +kernel
  refine ⟨s, hs, userMutation_of_call (.remove lastFile) ?_ (fun _ => rfl), ⟨_, haccepted⟩, ?_⟩
  · show foldCase _ = foldCase _
    decide +kernel
  · simp only [Session.outcome, haccepted, commitWith_empty hempty]

end GenOS.Storage
