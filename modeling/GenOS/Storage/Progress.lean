/-
  GenOS.Storage.Progress — on a device that carries out every command, commits
  are acknowledged and a blank volume is created.

  The safety results hold for every device, also for one that refuses
  everything.  Here is the other half: a commit of a file system with user
  nodes succeeds (`commitWith_reliable`), and so does the first mount of a
  blank partition (`mount_blank`).
-/
import GenOS.Storage.CrashSafety

namespace GenOS.Storage

open GenOS.Lib GenOS.Vfs PersistentFs BlockCache

/-! ## §1. No command fails. -/

structure Reliable (o : Oracle) : Prop where
  change : ∀ n, o.change n = .ok
  reads : ∀ n, o.readOk n = true

/-- The operation succeeds on the device `o`. -/
def Succeeds {α : Type} (o : Oracle) (m : CacheM Disk α) : Prop :=
  Fallible.Triple (fun s => s.2.oracle = o) m (fun _ s => s.2.oracle = o) (fun _ => False)

variable {d : Disk} {v : RamVfs}

section Operations

variable {o : Oracle} {α β : Type} {m : CacheM Disk α}

theorem Succeeds.bind {f : α → CacheM Disk β} (hm : Succeeds o m) (hf : ∀ a, Succeeds o (f a)) :
    Succeeds o (m >>= f) := Fallible.Triple.bind hm hf

theorem Succeeds.run (hm : Succeeds o m) {s : BlockCache × Disk} (hs : s.2.oracle = o) :
    ∃ s' a, m s = (s', .ok a) ∧ s'.2.oracle = o := by
  rcases hrun : m s with ⟨s', e | a⟩
  · exact (hm.error hs hrun).elim
  · exact ⟨s', a, rfl, hm.ok hs hrun⟩

theorem Succeeds.of_run
    (h : ∀ s : BlockCache × Disk, s.2.oracle = o → ∃ s' a, m s = (s', .ok a) ∧ s'.2.oracle = o) :
    Succeeds o m := by
  intro s hs
  obtain ⟨s', a, hrun, hs'⟩ := h s hs
  rw [hrun]
  exact hs'

theorem Succeeds.forEach {ι : Type} {f : ι → CacheM Disk Unit} (hf : ∀ i, Succeeds o (f i))
    (l : List ι) : Succeeds o (.forEach f l) :=
  Fallible.Triple.forEach (I := fun _ (s : BlockCache × Disk) => s.2.oracle = o)
    (fun _ i _ _ => hf i)

variable (ho : Reliable o)

include ho

theorem command_reliable (hd : d.oracle = o) (effect : Media Sector) :
    ∃ d', d.command effect = (d', .ok ()) ∧ d'.oracle = o := by
  have hans : d.oracle.change d.commands = .ok := by rw [hd]; exact ho.change d.commands
  refine ⟨{ d with media := effect, commands := d.commands + 1, history := d.history ++ [effect] },
    ?_, hd⟩
  simp only [Disk.command, hans]

theorem writeback_succeeds (i : Nat) : Succeeds o (writeback i) := by
  refine .of_run fun ⟨c, d⟩ hd => ?_
  obtain ⟨d', hcmd, hd'⟩ := command_reliable ho hd
    (d.media.push (c.entry i).lba (c.entry i).data)
  have hwrite : BlockIo.write d (c.entry i).lba (c.entry i).data = (d', .ok ()) := hcmd
  cases hdirty : (c.entry i).valid && (c.entry i).dirty with
  | true =>
    exact ⟨(c.setEntry i { c.entry i with dirty := false }, d'), (), by
      simp only [writeback, hdirty, hwrite, if_true], hd'⟩
  | false =>
    exact ⟨(c, d), (), by simp only [writeback, hdirty, Bool.false_eq_true, if_false],
      hd⟩

theorem flush_succeeds : Succeeds o (flush : CacheM Disk Unit) := by
  refine .bind (.forEach (writeback_succeeds ho) _) (fun _ => .of_run fun ⟨c, d⟩ hd => ?_)
  obtain ⟨d', hcmd, hd'⟩ := command_reliable ho hd d.media.settle
  have hflush : BlockIo.flush d = (d', .ok ()) := hcmd
  exact ⟨(c, d'), (), by simp only [flushDevice, hflush], hd'⟩

theorem write_succeeds (lba : Nat) (data : Sector) : Succeeds o (write lba data) := by
  have hstore : ∀ i, Succeeds o (store lba data i) :=
    fun i => .of_run fun _ hs => ⟨_, (), rfl, hs⟩
  refine .of_run fun ⟨c, d⟩ hd => ?_
  cases hpos : c.tick.position lba with
  | some i =>
    obtain ⟨s', a, hrun, hs'⟩ := (hstore i).run (s := (c.tick, d)) hd
    exact ⟨s', a, by simp only [write, hpos]; exact hrun, hs'⟩
  | none =>
    obtain ⟨s', a, hrun, hs'⟩ := ((writeback_succeeds ho c.tick.replacementIndex).bind
      (fun _ => hstore c.tick.replacementIndex)).run (s := (c.tick, d)) hd
    exact ⟨s', a, by simp only [write, hpos]; exact hrun, hs'⟩

theorem prepareSlot_succeeds (base : Nat) (buffer : Snapshot) :
    Succeeds o (prepareSlot base buffer) :=
  (write_succeeds ho _ _).bind fun _ => (flush_succeeds ho).bind fun _ =>
    (Succeeds.forEach (fun _ => write_succeeds ho _ _) _).bind fun _ => flush_succeeds ho

theorem publishHeader_succeeds (base : Nat) (buffer : Snapshot) :
    Succeeds o (publishHeader base buffer) :=
  (write_succeeds ho _ _).bind fun _ => flush_succeeds ho

end Operations

/-! ## §2. Commits and creation. -/

section Commits

variable {o : Oracle} {partition : Partition}

theorem writeRecord_reliable (ho : Reliable o) (fs : PersistentFs) (target : Fin 2)
    (generation : UInt64) (base : Nat) (buffer : Snapshot) (hd : d.oracle = o) :
    (fs.writeRecord target generation base buffer d).2.2 = .committed := by
  obtain ⟨⟨c, d'⟩, _, hprep, hd'⟩ := (prepareSlot_succeeds ho base buffer).run (s := (fs.cache, d)) hd
  obtain ⟨s'', _, hpub, -⟩ := (publishHeader_succeeds ho base (sealSnapshot buffer)).run
    (s := (c, d')) hd'
  simp only [writeRecord, hprep, hpub]

/-- **A reliable device acknowledges every commit** of a file system with user
nodes, until the generations are used up. -/
theorem commitWith_reliable (ho : Reliable o) {fs : PersistentFs} (hd : d.oracle = o)
    (hp : fs.partition = some partition) (haddr : SlotsAddressable partition)
    (hro : fs.isReadOnly = false) (hg : fs.generation.toNat + 1 ≠ 2 ^ 64) (hi : VfsInv v)
    (hne : userNodes v ≠ []) : (fs.commitWith v d).2.2 = .committed := by
  obtain ⟨u, henc, -⟩ := encodeSnapshot_sealed hi hne (fs.generation + 1)
  have hb : ¬ 2 ^ 32 ≤ partition.startLba + slotOffsets fs.targetSlot := by
    exact Nat.not_le.mpr (haddr.base_lt fs.targetSlot)
  simp only [commitWith, hp, hro, henc, if_neg hg, if_neg hb, Bool.false_eq_true,
    if_false]
  exact writeRecord_reliable ho fs _ _ _ u hd

theorem writeSeeds_user {base₁ : RamVfs} (h : writeSeeds base₁ = (v, true))
    (hfresh : base₁.find persistentPath = none ∧ base₁.find keepPath = none) :
    userNodes v ≠ [] := by
  obtain ⟨n, n', hnodes, hn, -⟩ := writeSeeds_nodes h hfresh
  refine List.ne_nil_of_mem (a := n) (List.mem_filter.mpr ⟨by rw [hnodes]; simp, ?_⟩)
  rw [isUserNode, hn]
  decide +kernel

/-- **The first mount of a blank partition creates the volume** on a reliable
device, if the base namespace has room for the seed files. -/
theorem mount_blank (ho : Reliable o) {base base₁ : RamVfs} {f : Nat → Sector} (hi : VfsInv base₁)
    (hseed : seedStatus base "state=error" = (base₁, true))
    (hpart : diskPartition f = .ok partition) (hro : partition.readOnly = false)
    (hblank : ∀ slot, (diskSlot f partition slot).val.all (· == 0) = true)
    (hfresh : base₁.find persistentPath = none ∧ base₁.find keepPath = none)
    (hseeds : writeSeeds base₁ = (v, true)) :
    (mountDeviceWith base (Disk.boot f o)).state = .created := by
  have hp := parsePartition_addressable hpart
  obtain ⟨s, hs, hmount⟩ := mountDeviceWith_readable ho.reads hseed hpart
  -- two blank slots hold no record
  have hnone : ∀ slot, (diskSummary f partition slot).generation = none := by
    intro slot
    obtain ⟨e, he⟩ := (uncommitted_of_blank (hblank slot)).invalid
    simp only [diskSummary, he, Except.toOption]
  have hsel : newestValidSlot (diskSummary f partition 0) (diskSummary f partition 1) = none := by
    simp only [newestValidSlot, hnone]
  have hcond : (!partition.readOnly && (diskSummary f partition 0).readable
      && (diskSummary f partition 0).blank && (diskSummary f partition 1).readable
      && (diskSummary f partition 1).blank) = true := by
    simp only [diskSummary, hblank, hro]
    rfl
  have hfs : (⟨some partition, s.1, none, 0, partition.readOnly, none⟩ :
      PersistentFs).partition = some partition := rfl
  have hcommit := commitWith_reliable ho hs.oracle hfs hp
    (by simp [isReadOnly, hro]) (by simp) (writeSeeds_inv hi hseeds)
    (writeSeeds_user hseeds hfresh)
  rcases hres : commitWith
      ⟨some partition, s.1, none, 0, partition.readOnly, none⟩ v s.2 with ⟨fs', io', out⟩
  rw [hres] at hcommit
  cases hcommit
  have hunused : ¬ ((base₁.find persistentPath).isSome ∨ (base₁.find keepPath).isSome) := by
    simp [hfresh.1, hfresh.2]
  simp only [hmount, mountScanned, hsel, hcond, if_true, createVolume, if_neg hunused, hseeds,
    hres]

end Commits

end GenOS.Storage
