/-
  GenOS.Storage.Reading — what a mount sees of a disk.

  While nothing is on its way to the device, the cache and the disk represent
  the durable content (`Reading`).  Reading a slot then returns its sectors,
  or stops because the device refused a read.  `remount_selected` and
  `mount_restored` are the two directions of the mount: what it yields when
  all reads succeed, and what is known when it reports a healthy volume.
-/
import GenOS.Storage.CacheRefinement
import GenOS.Storage.PersistentFs

namespace GenOS.Storage

open GenOS.Lib GenOS.Vfs

/-! ## §1. Reads without pending writes. -/

/-- Nothing has to be written, and the disk holds `f`. -/
structure Reading (f : Nat → Sector) (o : Oracle) (s : BlockCache × Disk) : Prop where
  synced : Synced f f (fun _ _ => False) (fun _ => True) s
  oracle : s.2.oracle = o

/-- A read was refused; the disk still holds `f`. -/
structure Stopped (f : Nat → Sector) (o : Oracle) (s : BlockCache × Disk) : Prop where
  durable : s.2.media.durable = f
  pending : s.2.media.pending = []
  refused : ¬ ∀ n, o.readOk n = true

variable {partition : Partition} {o : Oracle} {base₁ : RamVfs} {s : BlockCache × Disk}

section Reads

variable {f : Nat → Sector} {o : Oracle} {s : BlockCache × Disk}

theorem Reading.durable (h : Reading f o s) : s.2.media.durable = f := by
  funext l
  rcases h.synced.2.within.durable l with h | h
  · exact h
  · exact h.elim

theorem Reading.pending (h : Reading f o s) : s.2.media.pending = [] :=
  List.eq_nil_iff_forall_not_mem.mpr (fun w hw => h.synced.2.within.pending w hw)

/-- A mount starts with an empty cache over a disk without pending writes. -/
theorem Reading.start {d : Disk} (h : d.media.pending = []) :
    Reading d.media.durable d.oracle (BlockCache.new, d) := by
  have hinvalid : ∀ i, ((BlockCache.new).entry i).valid = false := by
    intro i
    rw [BlockCache.entry_new]
    rfl
  refine ⟨⟨⟨?_, ?_, ?_⟩, ⟨.of_clean rfl h, fun _ _ => trivial⟩, ?_⟩, rfl⟩
  · intro i _ hi
    rw [hinvalid i] at hi
    cases hi
  · intro i hi
    rw [hinvalid i] at hi
    cases hi
  · intro l _
    show applyWrites d.media.durable d.media.pending l = _
    rw [h]
    rfl
  · intro i hi
    rw [hinvalid i] at hi
    cases hi

/-- A read returns the sector, or the device refused it. -/
theorem reading_read (lba : Nat) :
    Fallible.Triple (Reading f o) (BlockCache.read lba : CacheM Disk Sector)
      (fun a s => a = f lba ∧ Reading f o s) (Stopped f o) := by
  rintro ⟨c₀, d⟩ h
  have htriple := read_triple (f := f) (D := f) (W := fun _ _ => False) (H := fun _ => True)
    (fun _ _ => trivial) lba (c₀, d) h.synced
  have hpend := h.pending
  have hdur := h.durable
  have ho := h.oracle
  -- no entry is dirty, so a miss goes straight to the device
  have hmiss : ∀ i, (BlockCache.writeback i : CacheM Disk Unit) (c₀.tick, d)
      = ((c₀.tick, d), .ok ()) := by
    intro i
    have hclean : ((c₀.tick.entry i).valid && (c₀.tick.entry i).dirty) = false := by
      rw [Bool.eq_false_iff]
      intro hd
      obtain ⟨hv, hd⟩ := Bool.and_eq_true_iff.mp hd
      exact h.synced.2.dirty i hv hd
    simp only [BlockCache.writeback, hclean, Bool.false_eq_true, if_false]
  revert htriple
  simp only [BlockCache.read]
  cases hpos : c₀.tick.position lba with
  | some i => exact fun hs => ⟨hs.1, hs.2, ho⟩
  | none =>
    rw [Fallible.bind_ok (hmiss _)]
    have hread : BlockIo.read d lba = d.read lba := rfl
    by_cases hok : d.oracle.readOk d.commands = true
    · simp only [BlockCache.load, hread, Disk.read, if_pos hok]
      exact fun hs => ⟨hs.1, hs.2, ho⟩
    · simp only [BlockCache.load, hread, Disk.read, if_neg hok]
      intro _
      refine ⟨hdur, hpend, fun hall => hok ?_⟩
      have ho' : d.oracle = o := ho
      rw [ho']
      exact hall _

theorem reading_readSectors (base : Nat) (idx : List (Fin slotSectors)) :
    Fallible.Triple (Reading f o) (readSectors base idx : CacheM Disk (List Sector))
      (fun a s => a = idx.map (fun i : Fin slotSectors => f (base + i)) ∧ Reading f o s) (Stopped f o) := by
  induction idx with
  | nil => exact Fallible.Triple.pure (fun s hs => ⟨rfl, hs⟩)
  | cons i idx ih =>
    refine Fallible.Triple.bind (reading_read (base + i)) (fun a => ?_)
    refine Fallible.Triple.bind (Q := fun as s => (a = f (base + i) ∧
      as = idx.map (fun i : Fin slotSectors => f (base + i))) ∧ Reading f o s) ?_ (fun as => ?_)
    · exact .intro (fun s s' b hs hrun => ⟨⟨hs.1, (ih.ok hs.2 hrun).1⟩, (ih.ok hs.2 hrun).2⟩)
        (fun s s' e hs hrun => ih.error hs.2 hrun)
    · refine Fallible.Triple.pure (fun s hs => ⟨?_, hs.2⟩)
      rw [hs.1.1, hs.1.2]
      rfl

/-- The content of a slot on a disk. -/
def diskSlot (f : Nat → Sector) (partition : Partition) (slot : Fin 2) : Snapshot :=
  slotOf (fun i => f (partition.startLba + slotOffsets slot + i))

/-- Both slots of a partition have addresses below `2 ^ 32`. -/
def SlotsAddressable (partition : Partition) : Prop :=
  0 < partition.startLba ∧ partition.startLba + (1 + slotSectors * 2) < 2 ^ 32

theorem SlotsAddressable.base_lt (h : SlotsAddressable partition) (slot : Fin 2) : partition.startLba + slotOffsets slot < 2 ^ 32 := by
  have h2 := h.2
  match slot with
  | 0 => simp only [slotOffsets, slotSectors] at h2 ⊢; omega
  | 1 => simp only [slotOffsets, slotSectors] at h2 ⊢; omega

theorem reading_readSlot (hp : SlotsAddressable partition) (slot : Fin 2) :
    Fallible.Triple (Reading f o) (readSlotWith partition slot : CacheM Disk Snapshot)
      (fun a s => a = diskSlot f partition slot ∧ Reading f o s) (Stopped f o) := by
  have hlt : ¬ 2 ^ 32 ≤ partition.startLba + slotOffsets slot := Nat.not_le.mpr (hp.base_lt slot)
  simp only [readSlotWith, if_neg hlt]
  refine Fallible.Triple.bind (reading_readSectors _ _) (fun sectors => ?_)
  refine Fallible.Triple.pure (fun s hs => ⟨?_, hs.2⟩)
  rw [hs.1, diskSlot]
  congr 1
  funext i
  simp

/-! ## §2. The partition and the summaries. -/

theorem parsePartition_addressable {mbr : Bytes} (h : parsePartition mbr = .ok partition) : SlotsAddressable partition := by
  unfold parsePartition at h
  split at h
  · cases h
  split at h
  · cases h
  split at h
  · rename_i p hp
    cases h
    obtain ⟨index, -, hentry⟩ := List.exists_of_findSome?_eq_some hp
    simp only [partitionEntry] at hentry
    split at hentry
    · cases hentry
    split at hentry
    · rename_i hcond
      cases hentry
      refine ⟨hcond.1, ?_⟩
      have h1 := hcond.2.1
      have h2 := hcond.2.2
      simp only [slotSectors] at h1 ⊢
      omega
    · cases hentry
  · cases h

/-- The partition a disk announces. -/
def diskPartition (f : Nat → Sector) : Except StorageError Partition := parsePartition (f 0).val

theorem reading_discover :
    Fallible.Triple (Reading f o) (discoverPartition : CacheM Disk Partition)
      (fun a s => diskPartition f = .ok a ∧ Reading f o s)
      (fun s => Stopped f o s ∨ ∃ e, diskPartition f = .error e) := by
  refine Fallible.Triple.bind ((reading_read 0).conseq (fun s hs => hs) (fun a s hs => hs)
    (fun s hs => .inl hs)) (fun mbr => ?_)
  refine Fallible.Triple.bind (Q := fun cached s => (cached = f 0 ∧ mbr = f 0) ∧ Reading f o s)
    ?_ (fun cached => ?_)
  · exact .intro
      (fun s s' a hs hrun => ⟨⟨((reading_read 0).ok hs.2 hrun).1, hs.1⟩,
        ((reading_read 0).ok hs.2 hrun).2⟩)
      (fun s s' e hs hrun => .inl ((reading_read 0).error hs.2 hrun))
  · rintro s ⟨⟨rfl, rfl⟩, hs⟩
    simp only [ne_eq, not_true_eq_false, if_false]
    exact Fallible.Triple.ofExcept (fun s a hs h => ⟨h, hs⟩) (fun s e _ h => .inr ⟨e, h⟩) s hs

/-- The summary of a slot when it can be read. -/
def diskSummary (f : Nat → Sector) (partition : Partition) (slot : Fin 2) : SlotSummary :=
  ⟨(validateSnapshot (diskSlot f partition slot)).toOption,
    (diskSlot f partition slot).val.all (· == 0), true⟩

theorem summarize_reading (hp : SlotsAddressable partition) (slot : Fin 2) (hs : Reading f o s) :
    ∃ s', (summarize partition slot s = (s', diskSummary f partition slot) ∧ Reading f o s')
      ∨ (summarize partition slot s = (s', ⟨none, false, false⟩) ∧ Stopped f o s') := by
  have htriple := reading_readSlot (f := f) (o := o) hp slot
  unfold summarize
  rcases hrun : (readSlotWith partition slot : CacheM Disk Snapshot) s with ⟨s', e | buffer⟩
  · exact ⟨s', .inr ⟨rfl, htriple.error hs hrun⟩⟩
  · obtain ⟨hb, hs'⟩ := htriple.ok hs hrun
    exact ⟨s', .inl ⟨by rw [hb]; rfl, hs'⟩⟩

end Reads

/-! ## §3. Mounting. -/

theorem newestValidSlot_valid {f : Nat → Sector} {selected : Fin 2}
    (h : newestValidSlot (diskSummary f partition 0) (diskSummary f partition 1) = some selected) :
    ∃ g, validateSnapshot (diskSlot f partition selected) = .ok g := by
  have hopt : ∀ slot, (diskSummary f partition slot).generation.isSome →
      ∃ g, validateSnapshot (diskSlot f partition slot) = .ok g := by
    intro slot hsome
    cases hv : validateSnapshot (diskSlot f partition slot) with
    | ok g => exact ⟨g, rfl⟩
    | error e => simp [diskSummary, hv, Except.toOption] at hsome
  unfold newestValidSlot at h
  split at h
  · rename_i l r hl hr
    split at h
    · cases h; exact hopt 1 (by rw [hr]; rfl)
    · cases h; exact hopt 0 (by rw [hl]; rfl)
  · rename_i l hl _
    cases h; exact hopt 0 (by rw [hl]; rfl)
  · rename_i r _ hr
    cases h; exact hopt 1 (by rw [hr]; rfl)
  · cases h

theorem summaryOf_disk (f : Nat → Sector) (partition : Partition) (slot : Fin 2) :
    summaryOf (diskSummary f partition 0) (diskSummary f partition 1) slot
      = diskSummary f partition slot := by
  match slot with
  | 0 => rfl
  | 1 => rfl

section Mounts

variable {base : RamVfs} {f : Nat → Sector} {partition : Partition}

section

variable (hreads : ∀ n, o.readOk n = true)

include hreads

/-- A mount whose reads succeed goes by what both slots hold. -/
theorem mountDeviceWith_readable (hseed : seedStatus base "state=error" = (base₁, true))
    (hpart : diskPartition f = .ok partition) :
    ∃ s, Reading f o s ∧ mountDeviceWith base (.boot f o)
      = mountScanned partition (diskSummary f partition 0) (diskSummary f partition 1) base₁ s := by
  have hp := parsePartition_addressable hpart
  have hstart : Reading f o (.new, Disk.boot f o) :=
    Reading.start (d := .boot f o) rfl
  rcases hd : (discoverPartition : CacheM Disk Partition) (.new, Disk.boot f o)
    with ⟨s₀, e | p⟩
  · rcases reading_discover.error hstart hd with h | ⟨e, h⟩
    · exact absurd hreads h.refused
    · rw [hpart] at h
      cases h
  · obtain ⟨hpe, hs₀⟩ := reading_discover.ok hstart hd
    rw [hpart] at hpe
    cases hpe
    obtain ⟨s₁, ⟨hl, hs₁⟩ | ⟨-, h⟩⟩ := summarize_reading hp 0 hs₀
    · obtain ⟨s₂, ⟨hr, hs₂⟩ | ⟨-, h⟩⟩ := summarize_reading hp 1 hs₁
      · refine ⟨s₂, hs₂, ?_⟩
        simp only [mountDeviceWith, hseed, hd, hl, hr]
      · exact absurd hreads h.refused
    · exact absurd hreads h.refused

/-- A slot that can be read is read. -/
theorem readSlotWith_readable (hp : SlotsAddressable partition) (slot : Fin 2)
    (hs : Reading f o s) :
    ∃ s', (readSlotWith partition slot : CacheM Disk Snapshot) s
      = (s', .ok (diskSlot f partition slot)) ∧ Reading f o s' := by
  rcases hread : (readSlotWith partition slot : CacheM Disk Snapshot) s with ⟨s', e | buffer⟩
  · exact absurd hreads ((reading_readSlot hp slot).error hs hread).refused
  · obtain ⟨rfl, hs'⟩ := (reading_readSlot hp slot).ok hs hread
    exact ⟨s', rfl, hs'⟩

/-- **A mount whose reads succeed restores the newest valid slot.** -/
theorem remount_selected {w : RamVfs} (hseed : seedStatus base "state=error" = (base₁, true))
    (hpart : diskPartition f = .ok partition) (hro : partition.readOnly = false) {selected : Fin 2}
    {g : UInt64}
    (hsel : newestValidSlot (diskSummary f partition 0) (diskSummary f partition 1) = some selected)
    (hval : validateSnapshot (diskSlot f partition selected) = .ok g)
    (happly : applySnapshot base₁ (diskSlot f partition selected) = (w, .ok ())) :
    (mountDeviceWith base (Disk.boot f o)).fs.generation = g
      ∧ ∃ status, (mountDeviceWith base (Disk.boot f o)).vfs = (seedStatus w status).1 := by
  obtain ⟨s, hs, hmount⟩ := mountDeviceWith_readable hreads hseed hpart
  obtain ⟨s', hread, -⟩ :=
    readSlotWith_readable hreads (parsePartition_addressable hpart) selected hs
  have hgen : (summaryOf (diskSummary f partition 0) (diskSummary f partition 1)
      selected).generation.getD 0 = g := by
    rw [summaryOf_disk, diskSummary, hval]
    rfl
  simp only [hmount, mountScanned, hsel]
  unfold restoreVolume
  simp only [hread, happly, hro, hgen, Bool.false_eq_true, if_false]
  split
  · exact ⟨rfl, _, rfl⟩
  · exact ⟨rfl, _, rfl⟩

end

/-- What a healthy mount of an existing volume tells. -/
structure RestoredFrom (base base₁ w : RamVfs) (f : Nat → Sector) (partition : Partition)
    (selected : Fin 2) (m : Mounted Disk) : Prop where
  seeded : seedStatus base "state=error" = (base₁, true)
  partitionOk : diskPartition f = .ok partition
  writable : partition.readOnly = false
  selectedOk : newestValidSlot (diskSummary f partition 0) (diskSummary f partition 1)
    = some selected
  applied : applySnapshot base₁ (diskSlot f partition selected) = (w, .ok ())
  vfs : m.vfs = (seedStatus w "state=healthy").1
  fs : ∃ cache g, m.fs = ⟨some partition, cache, some selected, g, false, none⟩
    ∧ validateSnapshot (diskSlot f partition selected) = .ok g
  reading : Reading f m.io.oracle (m.fs.cache, m.io)

/-- What a healthy mount of a blank volume tells. -/
structure CreatedFrom (base base₁ v : RamVfs) (f : Nat → Sector) (partition : Partition)
    (m : Mounted Disk) : Prop where
  seeded : seedStatus base "state=error" = (base₁, true)
  partitionOk : diskPartition f = .ok partition
  writable : partition.readOnly = false
  blank : ∀ slot, (diskSlot f partition slot).val.all (· == 0) = true
  files : writeSeeds base₁ = (v, true)
  fresh : base₁.find persistentPath = none ∧ base₁.find keepPath = none
  vfs : m.vfs = (seedStatus v "state=healthy").1
  commit : ∃ cache io o, Reading f o (cache, io) ∧
    (⟨some partition, cache, none, 0, false, none⟩ : PersistentFs).commitWith v io
      = (m.fs, m.io, .committed)

theorem abandonCreation_state (fs : PersistentFs) (v : RamVfs) (d : Disk) :
    (abandonCreation fs v d).state = .unavailable := by
  unfold abandonCreation
  split <;> rfl

theorem createVolume_state (fs : PersistentFs) (v : RamVfs) (d : Disk) :
    (createVolume fs v d).state = .unavailable
      ∨ ∃ v', (v.find persistentPath = none ∧ v.find keepPath = none) ∧ writeSeeds v = (v', true)
        ∧ (createVolume fs v d).state = .created
        ∧ (createVolume fs v d).vfs = (seedStatus v' "state=healthy").1
        ∧ fs.commitWith v' d
          = ((createVolume fs v d).fs, (createVolume fs v d).io, .committed) := by
  by_cases hused : (v.find persistentPath).isSome ∨ (v.find keepPath).isSome
  · exact .inl (by simp only [createVolume, if_pos hused]; rfl)
  rcases hseeds : writeSeeds v with ⟨v', ok⟩
  cases ok with
  | false =>
    have hval : createVolume fs v d = abandonCreation fs v' d := by
      simp only [createVolume, if_neg hused, hseeds]
    exact .inl (by rw [hval]; exact abandonCreation_state fs v' d)
  | true =>
    rcases hcommit : fs.commitWith v' d with ⟨fs', io', outcome⟩
    have habandon : outcome ≠ .committed → createVolume fs v d = abandonCreation fs' v' io' := by
      intro hne
      cases outcome with
      | committed => exact absurd rfl hne
      | rejected | failed failure => simp only [createVolume, if_neg hused, hseeds, hcommit]
    by_cases hout : outcome = .committed
    · subst hout
      have hval : createVolume fs v d
          = ⟨.created, fs', (seedStatus v' "state=healthy").1, io'⟩ := by
        simp only [createVolume, if_neg hused, hseeds, hcommit]
      rw [hval]
      exact .inr ⟨v', by simpa using hused, rfl, rfl, rfl, hcommit⟩
    · rw [habandon hout]
      exact .inl (abandonCreation_state fs' v' io')

/-- Restoring reports `Restored` only when the other slot could be read. -/
theorem restoreVolume_state (partition : Partition) (v : RamVfs) (s : BlockCache × Disk)
    (summaries : Fin 2 → SlotSummary) (selected : Fin 2) :
    (restoreVolume partition summaries selected v s).state ≠ .created
      ∧ ((restoreVolume partition summaries selected v s).state = .restored →
        (summaries (otherSlot selected)).readable = true
        ∧ ∃ buffer w s', readSlotWith partition selected s = (s', .ok buffer)
          ∧ applySnapshot v buffer = (w, .ok ()) ∧ partition.readOnly = false
          ∧ restoreVolume partition summaries selected v s
            = ⟨.restored, ⟨some partition, s'.1, some selected,
                (summaries selected).generation.getD 0, false, none⟩,
              (seedStatus w "state=healthy").1, s'.2⟩) := by
  rcases hread : (readSlotWith partition selected : CacheM Disk Snapshot) s with ⟨s', e | buffer⟩
  · have hval : restoreVolume partition summaries selected v s = unavailable v s'.2 := by
      simp only [restoreVolume, hread]
    rw [hval]
    exact ⟨by rintro ⟨⟩, by rintro ⟨⟩⟩
  · rcases happly : applySnapshot v buffer with ⟨w, e | u⟩
    · have hval : restoreVolume partition summaries selected v s = unavailable w s'.2 := by
        simp only [restoreVolume, hread, happly]
      rw [hval]
      exact ⟨by rintro ⟨⟩, by rintro ⟨⟩⟩
    · cases hro : partition.readOnly with
      | true =>
        have hval : (restoreVolume partition summaries selected v s).state = .readOnly := by
          simp only [restoreVolume, hread, happly, hro, if_true]
        rw [hval]
        exact ⟨by rintro ⟨⟩, by rintro ⟨⟩⟩
      | false =>
        by_cases hother : (!(summaries (otherSlot selected)).readable
            || (!(summaries (otherSlot selected)).blank
              && (summaries (otherSlot selected)).generation.isNone)) = true
        · have hval : (restoreVolume partition summaries selected v s).state = .recovered := by
            simp only [restoreVolume, hread, happly, hro, Bool.false_eq_true, if_false,
              if_pos hother]
          rw [hval]
          exact ⟨by rintro ⟨⟩, by rintro ⟨⟩⟩
        · have hval : restoreVolume partition summaries selected v s
              = ⟨.restored, ⟨some partition, s'.1, some selected,
                  (summaries selected).generation.getD 0, false, none⟩,
                (seedStatus w "state=healthy").1, s'.2⟩ := by
            simp only [restoreVolume, hread, happly, hro, Bool.false_eq_true, if_false,
              if_neg hother]
          rw [hval]
          refine ⟨by rintro ⟨⟩, fun _ => ⟨?_, buffer, w, s', rfl, happly, rfl, rfl⟩⟩
          simp only [Bool.or_eq_true, Bool.not_eq_true', not_or, Bool.not_eq_false] at hother
          exact hother.1

theorem summarize_unreadable {slot : Fin 2} (h : (summarize partition slot s).2.readable = false) :
    (summarize partition slot s).2.generation = none := by
  unfold summarize at h ⊢
  split
  · rfl
  rename_i hrun
  rw [hrun] at h
  cases h

/-- A healthy mount read both slots. -/
theorem mountScanned_readable {left right : SlotSummary} {v : RamVfs}
    (hlr : left.readable = false ∨ right.readable = false)
    (hl : left.readable = false → left.generation = none)
    (hr : right.readable = false → right.generation = none) :
    ¬ ((mountScanned partition left right v s).state = .restored
      ∨ (mountScanned partition left right v s).state = .created) := by
  unfold mountScanned
  cases hsel : newestValidSlot left right with
  | none =>
    have hno : ¬ ((!partition.readOnly && left.readable && left.blank && right.readable
        && right.blank) = true) := by
      rcases hlr with h | h <;> simp [h]
    simp only [if_neg hno]
    rintro (h | h) <;> cases h
  | some selected =>
    obtain ⟨h1, h2⟩ := restoreVolume_state partition v s (summaryOf left right) selected
    intro h
    have hread := (h2 (h.resolve_right h1)).1
    -- an unreadable slot is never selected, so it is the other one
    match selected with
    | 0 =>
      have hr' : right.readable = true := hread
      have hl' : left.readable = false := hlr.resolve_right (by simp [hr'])
      simp only [newestValidSlot, hl hl'] at hsel
      split at hsel <;> simp_all
    | 1 =>
      have hl' : left.readable = true := hread
      have hr' : right.readable = false := hlr.resolve_left (by simp [hl'])
      simp only [newestValidSlot, hr hr'] at hsel
      split at hsel <;> simp_all

theorem mountScanned_healthy
    (hseed : seedStatus base "state=error" = (base₁, true))
    (hpart : diskPartition f = .ok partition) (hs : Reading f o s)
    {m : Mounted Disk} (hm : m = mountScanned partition (diskSummary f partition 0)
      (diskSummary f partition 1) base₁ s) (h : m.state = .restored ∨ m.state = .created) :
    (∃ base₁' w partition' selected, RestoredFrom base base₁' w f partition' selected m)
      ∨ ∃ base₁' v partition', CreatedFrom base base₁' v f partition' m := by
  subst hm
  have hp := parsePartition_addressable hpart
  unfold mountScanned at h ⊢
  cases hsel : newestValidSlot (diskSummary f partition 0) (diskSummary f partition 1) with
  | some selected =>
    simp only [hsel] at h ⊢
    obtain ⟨h1, h2⟩ := restoreVolume_state partition base₁ s
      (summaryOf (diskSummary f partition 0) (diskSummary f partition 1)) selected
    obtain ⟨-, buffer, w, s', hread, happly, hro, hval⟩ := h2 (h.resolve_right h1)
    obtain ⟨rfl, hs'⟩ := (reading_readSlot hp selected).ok hs hread
    obtain ⟨g, hg⟩ := newestValidSlot_valid hsel
    have hgen : (summaryOf (diskSummary f partition 0) (diskSummary f partition 1)
        selected).generation.getD 0 = g := by
      rw [summaryOf_disk, diskSummary, hg]
      rfl
    rw [hgen] at hval
    refine .inl ⟨base₁, w, partition, selected, hseed, hpart, hro, hsel, happly, ?_, ?_, ?_⟩
    · rw [hval]
    · exact ⟨s'.1, g, by rw [hval], hg⟩
    · rw [hval]
      exact ⟨hs'.synced, rfl⟩
  | none =>
    simp only [hsel] at h ⊢
    split at h
    · rename_i hcond
      rw [if_pos hcond]
      simp only [Bool.and_eq_true, Bool.not_eq_true'] at hcond
      obtain ⟨⟨⟨⟨hro, -⟩, hb0⟩, -⟩, hb1⟩ := hcond
      rw [hro] at h ⊢
      rcases createVolume_state ⟨some partition, s.1, none, 0, false, none⟩ base₁ s.2
        with hun | ⟨v, hfresh, hseeds, -, hvfs, hcommit⟩
      · rw [hun] at h
        rcases h with h | h <;> cases h
      · refine .inr ⟨base₁, v, partition, hseed, hpart, hro, ?_, hseeds, hfresh, hvfs,
          s.1, s.2, o, hs, hcommit⟩
        intro slot
        match slot with
        | 0 => exact hb0
        | 1 => exact hb1
    · rcases h with h | h <;> cases h

/-- A mount that reports `Restored` or `Created` saw both slots. -/
theorem mount_healthy {d : Disk} (hd : d.media.pending = [])
    (h : (mountDeviceWith base d).state = .restored ∨ (mountDeviceWith base d).state = .created) :
    (∃ base₁ w partition selected, RestoredFrom base base₁ w d.media.durable partition selected
        (mountDeviceWith base d))
      ∨ ∃ base₁ v partition, CreatedFrom base base₁ v d.media.durable partition
          (mountDeviceWith base d) := by
  have hstart : Reading d.media.durable d.oracle (.new, d) := .start hd
  have hbad : ∀ m : Mounted Disk, m.state = .unavailable →
      ¬ (m.state = .restored ∨ m.state = .created) := by
    intro m hm
    rw [hm]
    rintro (h | h) <;> cases h
  rcases hseed : seedStatus base "state=error" with ⟨base₁, ok⟩
  cases ok with
  | false =>
    have hval : mountDeviceWith base d = unavailable base₁ d := by
      simp only [mountDeviceWith, hseed]
    exact absurd h (hbad _ (by rw [hval]; rfl))
  | true =>
    rcases hdisc : (discoverPartition : CacheM Disk Partition) (.new, d)
      with ⟨s₀, e | partition⟩
    · have hval : mountDeviceWith base d = unavailable base₁ s₀.2 := by
        simp only [mountDeviceWith, hseed, hdisc]
      exact absurd h (hbad _ (by rw [hval]; rfl))
    · obtain ⟨hpart, hs₀⟩ := reading_discover.ok hstart hdisc
      have hp := parsePartition_addressable hpart
      have hmount : mountDeviceWith base d = mountScanned partition (summarize partition 0 s₀).2
          (summarize partition 1 (summarize partition 0 s₀).1).2 base₁
          (summarize partition 1 (summarize partition 0 s₀).1).1 := by
        simp only [mountDeviceWith, hseed, hdisc]
      rw [hmount] at h ⊢
      obtain ⟨s₁, ⟨hl, hs₁⟩ | ⟨hl, -⟩⟩ := summarize_reading hp 0 hs₀
      · rw [hl] at h ⊢
        obtain ⟨s₂, ⟨hr, hs₂⟩ | ⟨hr, -⟩⟩ := summarize_reading hp 1 hs₁
        · rw [hr] at h ⊢
          exact mountScanned_healthy hseed hpart hs₂ rfl h
        · rw [hr] at h
          exact absurd h (mountScanned_readable (.inr rfl) (fun h => by cases h) (fun _ => rfl))
      · rw [hl] at h
        exact absurd h (mountScanned_readable (.inl rfl) (fun _ => rfl) summarize_unreadable)

end Mounts

end GenOS.Storage
