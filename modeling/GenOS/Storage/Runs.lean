/-
  GenOS.Storage.Runs — crash safety over whole runs of commits.

  A run starts at a healthy mount and makes any number of commits, on a device
  that may fail any command and lose any unflushed write.  It remembers what
  was acknowledged and what ended with an unknown outcome.  The invariant
  (`RunInv`) is that the volume is live and holds the acknowledged tree, or
  that it is quarantined and every crash recovers one of the two.
-/
import GenOS.Storage.Progress

namespace GenOS.Storage

open GenOS.Lib GenOS.Vfs PersistentFs List

/-! ## §1. Runs. -/

/-- A generation and the user nodes mounted with it. -/
abbrev Tree := UInt64 × List VfsNode

/-- A mounted volume with what its commits reported: the last acknowledged
tree, the generations acknowledged before it, and the tree of a commit that
ended with outcome `Unknown`. -/
structure Run where
  fs : PersistentFs
  disk : Disk
  acknowledged : Tree
  earlier : List UInt64
  unsettled : Option Tree

namespace Run

/-- The run right after a mount. -/
def start (m : Mounted Disk) : Run := ⟨m.fs, m.io, (m.fs.generation, userNodes m.vfs), [], none⟩

/-- Take note of how a commit of `v` ended. -/
def record (r : Run) (v : RamVfs) : PersistentFs × Disk × CommitOutcome → Run
  | (fs, disk, .committed) =>
    ⟨fs, disk, (fs.generation, restoredNodes v), r.acknowledged.1 :: r.earlier, none⟩
  | (fs, disk, .failed .unknown) =>
    ⟨fs, disk, r.acknowledged, r.earlier, some (r.fs.generation + 1, restoredNodes v)⟩
  | (fs, disk, .failed .notPublished) => { r with fs := fs, disk := disk }
  | (fs, disk, .rejected) => { r with fs := fs, disk := disk }

/-- The device as it is before a commit, with nothing recorded yet. -/
def device (r : Run) : Disk := { r.disk with history := [] }

/-- One commit; `disk.history` then holds the media states it went through. -/
def commit (r : Run) (v : RamVfs) : Run := r.record v (r.fs.commitWith v r.device)

/-- A remount of `image` yields the acknowledged tree, the one of the commit
with outcome `Unknown` or the one in progress, complete, and no acknowledged
generation is newer. -/
def Recovers (r : Run) (base : RamVfs) (inProgress : Option Tree) (image : Nat → Sector) : Prop :=
  ∃ result, Yields base image result
    ∧ (result = r.acknowledged ∨ some result = r.unsettled ∨ some result = inProgress)
    ∧ ∀ g ∈ r.acknowledged.1 :: r.earlier, g ≤ result.1

end Run

open Run

/-- A file system whose user nodes fit beside the mount's base namespace. -/
structure Committable (base v : RamVfs) : Prop where
  inv : VfsInv v
  room : (seedStatus base "state=error").1.count + (userNodes v).length ≤ maxNodes

/-! ## §2. One commit. -/

/-- The volume accepts commits and its active slot holds the acknowledged tree. -/
structure Live (base₁ : RamVfs) (partition : Partition) (D : Nat → Sector) (a : Fin 2) (r : Run) :
    Prop where
  settled : Settled D (fun _ => True) (r.fs.cache, r.disk)
  volume : Volume base₁ partition D a r.acknowledged.1 r.acknowledged.2
  fs : r.fs = ⟨some partition, r.fs.cache, some a, r.acknowledged.1, false, none⟩
  unsettled : r.unsettled = none

structure RunInv (base base₁ : RamVfs) (r : Run) : Prop where
  earlier : ∀ g ∈ r.earlier, g ≤ r.acknowledged.1
  state : (∃ partition D a, Live base₁ partition D a r)
    ∨ (r.fs.isReadOnly = true ∧ ∀ image, r.disk.media.CrashImage image → r.Recovers base none image)

variable {image : Nat → Sector}

section Commit

variable {base base₁ v : RamVfs} {partition : Partition} {D : Nat → Sector} {a : Fin 2} {r : Run}

theorem Run.recovers_acknowledged {inProgress : Option Tree}
    (hearlier : ∀ g ∈ r.earlier, g ≤ r.acknowledged.1) (h : Yields base image r.acknowledged) :
    r.Recovers base inProgress image := by
  refine ⟨_, h, .inl rfl, ?_⟩
  intro g hg
  rcases mem_cons.mp hg with rfl | hg
  · exact UInt64.le_refl _
  · exact hearlier g hg

theorem UInt64.le_succ {g : UInt64} (hg : g.toNat + 1 ≠ 2 ^ 64) : g ≤ g + 1 := by
  rw [UInt64.le_iff_toNat_le, UInt64.toNat_add]
  have := g.toNat_lt
  have h1 : (1 : UInt64).toNat = 1 := rfl
  omega

theorem Run.le_next (hearlier : ∀ g ∈ r.earlier, g ≤ r.acknowledged.1)
    (hg : r.acknowledged.1.toNat + 1 ≠ 2 ^ 64) :
    ∀ g ∈ r.acknowledged.1 :: r.earlier, g ≤ r.acknowledged.1 + 1 := by
  intro g hmem
  rcases mem_cons.mp hmem with rfl | hmem
  · exact UInt64.le_succ hg
  · exact UInt64.le_trans (hearlier g hmem) (UInt64.le_succ hg)

/-- A crash image that is the old volume or the next one recovers. -/
theorem Run.recovers_of_volume {next : List VfsNode}
    (hseed : seedStatus base "state=error" = (base₁, true))
    (hearlier : ∀ g ∈ r.earlier, g ≤ r.acknowledged.1)
    (hg : r.acknowledged.1.toNat + 1 ≠ 2 ^ 64)
    (h : Volume base₁ partition image a r.acknowledged.1 r.acknowledged.2
      ∨ Volume base₁ partition image (otherSlot a) (r.acknowledged.1 + 1) next) :
    r.Recovers base (some (r.acknowledged.1 + 1, next)) image := by
  rcases h with h | h
  · exact recovers_acknowledged hearlier (h.yields hseed)
  · exact ⟨_, h.yields hseed, .inr (.inr rfl), le_next hearlier hg⟩

/-- A commit is rejected or writes the record of `v`. -/
theorem commitWith_cases {fs : PersistentFs} (hp : fs.partition = some partition)
    (hro : fs.isReadOnly = false) (hi : VfsInv v) (d : Disk) :
    fs.commitWith v d = (fs, d, .rejected)
      ∨ ∃ u, fs.generation.toNat + 1 ≠ 2 ^ 64 ∧ Uncommitted u
        ∧ SealedRecord (sealSnapshot u) (restoredNodes v) (fs.generation + 1)
        ∧ fs.commitWith v d = fs.writeRecord fs.targetSlot (fs.generation + 1)
            (partition.startLba + slotOffsets fs.targetSlot) u d := by
  by_cases hg : fs.generation.toNat + 1 = 2 ^ 64
  · exact .inl (by simp only [commitWith, hp, hro, if_pos hg, ite_self])
  cases henc : encodeSnapshot v (fs.generation + 1) with
  | error e =>
    exact .inl (by simp only [commitWith, hp, henc, ite_self])
  | ok u =>
    by_cases hb : 2 ^ 32 ≤ partition.startLba + slotOffsets fs.targetSlot
    · exact .inl (by simp only [commitWith, hp, henc, if_pos hb, ite_self])
    obtain ⟨hcommit, hsealed⟩ := encodeSnapshot_uncommitted hi henc
    refine .inr ⟨u, hg, hcommit, hsealed, ?_⟩
    simp only [commitWith, hp, hro, henc, if_neg hg, if_neg hb,
      Bool.false_eq_true, if_false]

theorem commitWith_readOnly {fs : PersistentFs} (hro : fs.isReadOnly = true) (d : Disk) :
    fs.commitWith v d = (fs, d, .rejected) := by
  unfold commitWith
  split
  · rfl
  · rw [if_pos hro]

theorem Live.crash (h : Live base₁ partition D a r) (hi : r.disk.media.CrashImage image) :
    Volume base₁ partition image a r.acknowledged.1 r.acknowledged.2 := by
  rw [hi.of_clean h.settled.pending, h.settled.durable]
  exact h.volume

/-- A commit that is rejected leaves the run as it was. -/
theorem Live.rejected (h : Live base₁ partition D a r) :
    Live base₁ partition D a { r with disk := r.device } :=
  ⟨h.settled.forget rfl (fun _ _ => trivial), h.volume, h.fs, h.unsettled⟩

/-- **One commit keeps the invariant**, and a crash at any state it goes
through recovers. -/
theorem RunInv.commit (hb : MountBase base) (hseed : seedStatus base "state=error" = (base₁, true))
    (h : RunInv base base₁ r) (hv : Committable base v) :
    RunInv base base₁ (r.commit v)
      ∧ ∀ m ∈ (r.commit v).disk.history, ∀ image, m.CrashImage image →
          r.Recovers base (some (r.fs.generation + 1, restoredNodes v)) image := by
  obtain ⟨hearlier, ⟨partition, D, a, hlive⟩ | ⟨hro, himages⟩⟩ := h
  · have hfs := hlive.fs
    have hgen : r.fs.generation = r.acknowledged.1 := by rw [hfs]
    have htarget : r.fs.targetSlot = otherSlot a := by rw [hfs]; rfl
    have hpart : r.fs.partition = some partition := by rw [hfs]
    have hwritable : r.fs.isReadOnly = false := by rw [hfs]; rfl
    rcases commitWith_cases hpart hwritable hv.inv r.device with hrej | ⟨u, hg, hu, hsealed, hwrite⟩
    · have hrun : r.commit v = { r with disk := r.device } := by
        rw [Run.commit, hrej, Run.record]
      rw [hrun]
      exact ⟨⟨hearlier, .inl ⟨partition, D, a, hlive.rejected⟩⟩,
        fun m hm => absurd hm not_mem_nil⟩
    · rw [hgen, htarget] at hwrite
      rw [hgen] at hg hsealed ⊢
      have hstores : Stores base₁ (sealSnapshot u) (r.acknowledged.1 + 1) (restoredNodes v) := by
        have hroom := hv.room
        have hb₁ := hb.seedStatus "state=error"
        rw [hseed] at hroom hb₁
        apply hsealed.stores hb₁ _ (restoredNodes_user v)
        rw [restoredNodes, length_map]
        exact hroom
      have hsettled : Settled D (Underway D (partition.startLba + slotOffsets (otherSlot a)) u)
          (r.fs.cache, r.device) :=
        hlive.settled.forget rfl (fun m hm => absurd hm not_mem_nil)
      obtain ⟨c, d', hhist, hend⟩ := writeRecord_cases (fun _ h => h) r.fs (otherSlot a)
        (r.acknowledged.1 + 1) hsettled
      have hcrash : ∀ m ∈ d'.history, ∀ image, m.CrashImage image →
          r.Recovers base (some (r.acknowledged.1 + 1, restoredNodes v)) image := by
        intro m hm image himage
        exact recovers_of_volume hseed hearlier hg
          (hlive.volume.crash_underway hu hg hstores (hhist m hm) himage)
      rcases hend with ⟨hres, hmedia⟩ | ⟨hres, hmedia⟩ | ⟨hres, hdone⟩
      · -- failed before publication
        have hrun : r.commit v = { r with fs := r.fs.quarantined c .notPublished, disk := d' } := by
          rw [Run.commit, hwrite, hres, Run.record]
        rw [hrun]
        refine ⟨⟨hearlier, .inr ⟨by simp [isReadOnly, quarantined],
          fun image himage => ?_⟩⟩, hcrash⟩
        exact recovers_acknowledged hearlier
          ((hlive.volume.crash_notPublished hu hmedia himage).yields hseed)
      · -- failed while publishing
        have hrun : r.commit v = ⟨r.fs.quarantined c .unknown, d', r.acknowledged, r.earlier,
            some (r.acknowledged.1 + 1, restoredNodes v)⟩ := by
          rw [Run.commit, hwrite, hres, Run.record, hgen]
        rw [hrun]
        refine ⟨⟨hearlier, .inr ⟨by simp [isReadOnly, quarantined],
          fun image himage => ?_⟩⟩, hcrash⟩
        rcases hlive.volume.crash_publishing hu hg hstores hmedia himage with hvol | hvol
        · exact recovers_acknowledged hearlier (hvol.yields hseed)
        · exact ⟨_, hvol.yields hseed, .inr (.inl rfl), le_next hearlier hg⟩
      · -- acknowledged
        have hrun : r.commit v = ⟨⟨some partition, c, some (otherSlot a), r.acknowledged.1 + 1,
            false, none⟩, d', (r.acknowledged.1 + 1, restoredNodes v),
            r.acknowledged.1 :: r.earlier, none⟩ := by
          rw [Run.commit, hwrite, hres, Run.record]
          congr 1
          rw [hfs]
        rw [hrun]
        exact ⟨⟨le_next hearlier hg, .inl ⟨partition, _, otherSlot a,
          hdone.forget rfl (fun _ _ => trivial), hlive.volume.committed hg hstores, rfl, rfl⟩⟩,
          hcrash⟩
  · -- a quarantined volume rejects every commit
    have hrun : r.commit v = { r with disk := r.device } := by
      rw [Run.commit, commitWith_readOnly hro, Run.record]
    rw [hrun]
    exact ⟨⟨hearlier, .inr ⟨hro, himages⟩⟩, fun m hm => absurd hm not_mem_nil⟩

end Commit

/-! ## §3. The start of a run. -/

section Start

variable {base base₁ : RamVfs} {f : Nat → Sector} {partition : Partition}

theorem RestoredFrom.live {w : RamVfs} {selected : Fin 2} {m : Mounted Disk}
    (h : RestoredFrom base base₁ w f partition selected m) :
    Live base₁ partition f selected (.start m) := by
  obtain ⟨cache, g, hfs, hval⟩ := h.fs
  have hgen : m.fs.generation = g := by rw [hfs]
  have htree : userNodes m.vfs = userNodes w := by rw [h.vfs, userNodes_seedStatus]
  refine ⟨h.reading.settled (fun _ _ => trivial), ⟨h.partitionOk, h.writable, h.selectedOk, ?_⟩,
    ?_, rfl⟩
  · exact ⟨by rw [Run.start, hgen]; exact hval, w, h.applied, htree.symm⟩
  · show m.fs = ⟨some partition, m.fs.cache, some selected, m.fs.generation, false, none⟩
    rw [hfs]

theorem canonicalNode_of_path {n : VfsNode} {path : Bytes} (hp : n.path.asStr = path)
    (hu : isUserWritablePath path = true) (hc : canonicalUserPath path = path) :
    canonicalNode n = n := by
  have hu' : isUserNode n = true := by rw [isUserNode, hp]; exact hu
  have hpath : (canonicalNode n).path = n.path :=
    FixedText.ext ((canonicalNode_path hu').trans (by rw [hp, hc]; exact hp.symm))
  exact VfsNode.ext hpath rfl rfl

theorem CreatedFrom.live {v : RamVfs} {m : Mounted Disk} (hb₁ : MountBase base₁)
    (h : CreatedFrom base base₁ v f partition m) :
    ∃ D, Live base₁ partition D 0 (.start m) := by
  obtain ⟨cache, io, o, hreading, hcommit⟩ := h.commit
  have hinv := writeSeeds_inv hb₁.inv h.files
  obtain ⟨n, n', hnodes, hn, hn'⟩ := writeSeeds_nodes h.files h.fresh
  have hnu : isUserNode n = true := by rw [isUserNode, hn]; decide +kernel
  have hnu' : isUserNode n' = true := by rw [isUserNode, hn']; decide +kernel
  have huser : userNodes v = [n, n'] := by
    rw [userNodes, hnodes, filter_append,
      filter_eq_nil_iff.mpr (fun x hx => by simp [hb₁.empty x hx])]
    simp [hnu, hnu']
  have hrestored : restoredNodes v = userNodes v := by
    rw [restoredNodes, huser]
    simp [canonicalNode_of_path hn (by decide +kernel) (by decide +kernel),
      canonicalNode_of_path hn' (by decide +kernel) (by decide +kernel)]
  have htree : userNodes m.vfs = restoredNodes v := by
    rw [h.vfs, userNodes_seedStatus, hrestored]
  have hpart : (⟨some partition, cache, none, 0, false, none⟩ : PersistentFs).partition
      = some partition := rfl
  rcases commitWith_cases hpart rfl hinv io with hrej | ⟨u, -, hu, hsealed, hwrite⟩
  · cases congrArg (fun x => x.2.2) (hrej.symm.trans hcommit)
  have hstores : Stores base₁ (sealSnapshot u) 1 (restoredNodes v) := by
    apply hsealed.stores hb₁ _ (restoredNodes_user v)
    have := v.fits
    rw [hnodes, length_append] at this
    rw [hrestored, huser]
    exact this
  have hany : ∀ m, Underway f (partition.startLba + slotOffsets 0) u m → True :=
    fun _ _ => trivial
  obtain ⟨c, d', -, hend⟩ := writeRecord_cases hany
    ⟨some partition, cache, none, 0, false, none⟩ 0 1 (hreading.settled (fun _ _ => trivial))
  rw [hwrite] at hcommit
  rcases hend with ⟨hres, -⟩ | ⟨hres, -⟩ | ⟨hres, hdone⟩
  · cases congrArg (fun x => x.2.2) (hres.symm.trans hcommit)
  · cases congrArg (fun x => x.2.2) (hres.symm.trans hcommit)
  have hend := hcommit.symm.trans hres
  have hfs : m.fs = ⟨some partition, c, some 0, 1, false, none⟩ := congrArg (fun x => x.1) hend
  have hio : m.io = d' := congrArg (fun x => x.2.1) hend
  refine ⟨withSlot f (partition.startLba + slotOffsets 0) (sealSnapshot u), ?_, ?_, ?_, rfl⟩
  · show Settled _ _ (m.fs.cache, m.io)
    rw [hfs, hio]
    exact hdone
  · show Volume base₁ partition _ 0 m.fs.generation (userNodes m.vfs)
    rw [hfs, htree]
    have hp := (parsePartition_addressable h.partitionOk).1
    obtain ⟨hpart, hslot⟩ := content_outside (t := 0) (D := f) hp
      (fun l hl => withSlot_outside f _ (sealSnapshot u) hl)
    refine ⟨hpart.trans h.partitionOk, h.writable, ?_, by rw [diskSlot_withSlot]; exact hstores⟩
    apply newest_of_older (by rw [diskSlot_withSlot]; exact hstores.valid)
    intro g' hg'
    obtain ⟨e, he⟩ := (uncommitted_of_blank (h.blank 1)).invalid
    rw [hslot (otherSlot 0) (by decide)] at hg'
    cases he.symm.trans hg'
  · show m.fs = ⟨some partition, m.fs.cache, some 0, m.fs.generation, false, none⟩
    rw [hfs]

/-- A healthy mount starts a run. -/
theorem RunInv.start (hb : MountBase base) {o : Oracle}
    (h : (mountDeviceWith base (Disk.boot image o)).state = .restored
      ∨ (mountDeviceWith base (Disk.boot image o)).state = .created) :
    ∃ base₁, seedStatus base "state=error" = (base₁, true)
      ∧ RunInv base base₁ (.start (mountDeviceWith base (.boot image o))) := by
  have hnone : ∀ m : Mounted Disk, ∀ g ∈ (Run.start m).earlier, g ≤ (Run.start m).acknowledged.1 :=
    fun m g hg => absurd hg not_mem_nil
  rcases mount_healthy (d := Disk.boot image o) rfl h
    with ⟨base₁, w, partition, selected, hr⟩ | ⟨base₁, v, partition, hc⟩
  · exact ⟨base₁, hr.seeded, hnone _, .inl ⟨partition, _, selected, hr.live⟩⟩
  have hb₁ := hb.seedStatus "state=error"
  rw [hc.seeded] at hb₁
  obtain ⟨D, hlive⟩ := hc.live hb₁
  exact ⟨base₁, hc.seeded, hnone _, .inl ⟨partition, D, 0, hlive⟩⟩

end Start

/-! ## §4. Whole runs. -/

theorem RunInv.commits {base base₁ : RamVfs} (hb : MountBase base)
    (hseed : seedStatus base "state=error" = (base₁, true)) (vs : List RamVfs) :
    ∀ r, RunInv base base₁ r → (∀ v ∈ vs, Committable base v) →
      RunInv base base₁ (vs.foldl Run.commit r) := by
  induction vs with
  | nil => exact fun r h _ => h
  | cons v vs ih =>
    intro r h hvs
    exact ih _ (h.commit hb hseed (hvs v mem_cons_self)).1
      (fun x hx => hvs x (mem_cons_of_mem _ hx))

theorem RunInv.recovers {base base₁ : RamVfs} {r : Run} (h : RunInv base base₁ r)
    (hseed : seedStatus base "state=error" = (base₁, true)) (hi : r.disk.media.CrashImage image) : r.Recovers base none image := by
  obtain ⟨hearlier, ⟨partition, D, a, hlive⟩ | ⟨-, himages⟩⟩ := h
  · exact recovers_acknowledged hearlier ((hlive.crash hi).yields hseed)
  · exact himages image hi

/-- A disk with one blank partition at sector 1. -/
def blankDisk : Nat → Sector := fun l =>
  if l = 0 then
    FixedBytes.zero |>.patch 450 [partitionTypeGenos] |>.patch 454 (leBytes 4 1)
      |>.patch 458 (leBytes 4 81) |>.patch 510 [0x55, 0xaa]
  else FixedBytes.zero

theorem diskSlot_blankDisk (slot : Fin 2) :
    (diskSlot blankDisk ⟨1, 81, false⟩ slot).val.all (· == 0) = true := by
  rw [all_eq_true]
  intro b hb
  obtain ⟨i, -, hi⟩ := mem_flatMap.mp hb
  have hz : blankDisk (1 + slotOffsets slot + i) = FixedBytes.zero := by
    rw [blankDisk, if_neg (by omega)]
  have hi : b ∈ (blankDisk (1 + slotOffsets slot + i)).val := hi
  rw [hz] at hi
  simpa using eq_of_mem_replicate hi

/-- The namespace at boot with one user file. -/
def oneFile : RamVfs :=
  VfsOp.apply bootNamespace (.write (ascii "/USER/A".toList) [7])

theorem bootNamespace_base : MountBase bootNamespace :=
  ⟨reachable_inv bootNamespace_reachable, by decide +kernel, by decide +kernel⟩

/-- On a device without failures the first mount of the blank disk creates a
volume. -/
theorem blankDisk_created :
    (mountDeviceWith bootNamespace (Disk.boot blankDisk ⟨fun _ => .ok, fun _ => true⟩)).state
      = .created := by
  have hb := bootNamespace_base
  have hreliable : Reliable ⟨fun _ => .ok, fun _ => true⟩ := ⟨fun _ => rfl, fun _ => rfl⟩
  have hpart : diskPartition blankDisk = .ok ⟨1, 81, false⟩ := by decide +kernel
  exact mount_blank hreliable (hb.seedStatus "state=error").inv (Prod.ext rfl (by decide +kernel))
    hpart rfl diskSlot_blankDisk (by decide +kernel) (Prod.ext rfl (by decide +kernel))

end GenOS.Storage
