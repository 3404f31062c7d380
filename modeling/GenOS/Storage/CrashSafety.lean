/-
  GenOS.Storage.CrashSafety — a crash never loses an acknowledged commit and
  never mixes two of them.

  The invariant of a healthy volume is about the durable content alone: the
  active slot is the newest valid one and mounting it yields the acknowledged
  tree (`Volume`).  A crash during a commit leaves that slot untouched; the
  target slot is as before, invalid, or the complete new record
  (`crash_target`).  From this follow the step lemma for one commit
  (`Run.commit_inv`) and, by induction, the result for whole runs.
-/
import GenOS.Storage.Commit

namespace GenOS.Storage

open GenOS.Lib GenOS.Vfs List RamVfs

/-! ## §1. User nodes are not touched by the status file. -/

variable {m : Media Sector} {path : Bytes} {base v : RamVfs} {s u : Snapshot} {t : Fin 2}
  {image : Nat → Sector} {next : List VfsNode}

theorem isUserNode_of_fold {m : VfsNode} (h : foldCase m.path.asStr = foldCase path)
    (hp : foldCase (path.take 6) ≠ foldCase userWritablePrefix) : isUserNode m = false := by
  rw [Bool.eq_false_iff]
  intro hu
  have := ((isUserWritablePath_iff _).mp hu).2.2
  rw [foldCase_take, h, ← foldCase_take] at this
  exact hp this

/-- What a write to a path outside `/USER/` can do to the node list. -/
theorem write_outside (v : RamVfs) (data : Bytes)
    (hp : foldCase (path.take 6) ≠ foldCase userWritablePrefix) :
    (v.write path data).1 = v
      ∨ (∃ pre n n' post, v.nodes = pre ++ n :: post ∧ (v.write path data).1.nodes
          = pre ++ n' :: post ∧ isUserNode n = false ∧ isUserNode n' = false
          ∧ n.kind ≠ .directory)
      ∨ ∃ n, (v.write path data).1.nodes = v.nodes ++ [n] ∧ isUserNode n = false := by
  unfold RamVfs.write
  split
  · exact .inl rfl
  rename_i hlen
  split
  · rename_i i hi
    split
    · exact .inl rfl
    rename_i hfile
    obtain ⟨pre, n, post, hv, rfl, hf⟩ := findIndex_some hi
    have hd : data.length ≤ maxFileBytes := by omega
    have h0 : ([] : Bytes).length ≤ maxFileBytes := Nat.zero_le _
    have hempty := setData_of_split hv h0
    rw [isDirectoryAt_of_split hv] at hfile
    simp only [writeData, dif_pos hd]
    have hu := isUserNode_of_fold hf hp
    exact .inr (.inl ⟨pre, n, _, post, hv, setData_of_split hempty hd, hu, hu,
      by simpa using hfile⟩)
  · rcases v.insert_error_or_ok path .file data with ⟨e, he⟩ | h
    · exact .inl (by rw [he])
    · refine .inr (.inr ⟨_, by rw [insert_of_ok h]; rfl, ?_⟩)
      exact isUserNode_of_fold (by rw [inserted_path h.valid]) hp

theorem statusPath_outside : foldCase (statusPath.take 6) ≠ foldCase userWritablePrefix := by
  decide +kernel

theorem seedStatus_vfs (v : RamVfs) (status : String) :
    (seedStatus v status).1 = (v.write statusPath (ascii status.toList)).1 := by
  unfold seedStatus
  split <;> rename_i h <;> rw [h]

theorem userNodes_seedStatus (v : RamVfs) (status : String) :
    userNodes (seedStatus v status).1 = userNodes v := by
  rw [seedStatus_vfs]
  rcases write_outside v (ascii status.toList) statusPath_outside
    with h | ⟨pre, n, n', post, hv, hw, hn, hn', -⟩ | ⟨n, hw, hn⟩
  · rw [h]
  · simp [userNodes, hv, hw, hn, hn']
  · simp [userNodes, hw, hn]

/-- Seeding the status file keeps the directory `/USER`. -/
theorem HasUserRoot.seedStatus (hb : HasUserRoot base) (status : String) :
    HasUserRoot (seedStatus base status).1 := by
  rw [seedStatus_vfs]
  obtain ⟨d, hd, hk, hf⟩ := hb
  rcases write_outside base (ascii status.toList) statusPath_outside
    with h | ⟨pre, n, n', post, hv, hw, -, -, hfile⟩ | ⟨n, hw, -⟩
  · exact ⟨d, by rw [h]; exact hd, hk, hf⟩
  · refine ⟨d, ?_, hk, hf⟩
    rw [hv] at hd
    rw [hw]
    rcases mem_append.mp hd with hd | hd
    · exact mem_append_left _ hd
    rcases mem_cons.mp hd with rfl | hd
    · exact absurd hk hfile
    · exact mem_append_right _ (mem_cons_of_mem _ hd)
  · exact ⟨d, by rw [hw]; exact mem_append_left _ hd, hk, hf⟩

theorem seedStatus_reachable (h : Reachable base) (status : String) :
    Reachable (seedStatus base status).1 := by
  rw [seedStatus_vfs]
  exact .step (.write statusPath (ascii status.toList)) h

theorem vfsInv_seedStatus (hi : VfsInv base) (status : String) :
    VfsInv (seedStatus base status).1 := by
  rw [seedStatus_vfs]
  exact hi.changes (write_changes base _ _).changes

/-- Seeding the status file keeps a mount base. -/
theorem MountBase.seedStatus (hb : MountBase base) (status : String) :
    MountBase (seedStatus base status).1 := by
  have hkeep := userNodes_seedStatus base status
  refine ⟨vfsInv_seedStatus hb.inv status, HasUserRoot.seedStatus hb.user status, ?_⟩
  intro n hn
  by_contra hu
  have hu' : isUserNode n = true := by simpa using hu
  have hmem : n ∈ userNodes base := by
    rw [← hkeep]
    exact mem_filter.mpr ⟨hn, hu'⟩
  have := hb.empty n (mem_filter.mp hmem).1
  rw [this] at hu'
  cases hu'

/-! ## §2. The seed files of a new volume. -/

/-- A write to a new path appends one file. -/
theorem write_fresh {w : RamVfs} {data : Bytes} (hfresh : v.find path = none)
    (h : v.write path data = (w, .ok ())) :
    ∃ n, w.nodes = v.nodes ++ [n] ∧ n.path.asStr = path := by
  have hindex : v.findIndex path = none := (v.findIndex_eq_none_iff path).mpr hfresh
  unfold RamVfs.write at h
  split at h
  · cases h
  simp only [hindex] at h
  rcases v.insert_error_or_ok path .file data with ⟨e, he⟩ | hok
  · rw [he] at h
    cases h
  · rw [insert_of_ok hok] at h
    cases h
    exact ⟨_, rfl, inserted_path hok.valid _ _ _⟩

theorem writeSeeds_ok {base₁ : RamVfs} (h : writeSeeds base₁ = (v, true)) :
    ∃ v', base₁.write persistentPath persistentPayload = (v', .ok ())
      ∧ v'.write keepPath keepPayload = (v, .ok ()) := by
  unfold writeSeeds at h
  split at h
  · cases h
  rename_i v' h1
  split at h
  · cases h
  rename_i v'' h2
  cases h
  exact ⟨v', h1, h2⟩

/-- The seed files are the user nodes of a new volume. -/
theorem writeSeeds_nodes {base₁ : RamVfs} (h : writeSeeds base₁ = (v, true))
    (hfresh : base₁.find persistentPath = none ∧ base₁.find keepPath = none) :
    ∃ n n', v.nodes = base₁.nodes ++ [n, n'] ∧ n.path.asStr = persistentPath
      ∧ n'.path.asStr = keepPath := by
  obtain ⟨v', h1, h2⟩ := writeSeeds_ok h
  obtain ⟨n, hn, hp⟩ := write_fresh hfresh.1 h1
  have hkeep : v'.find keepPath = none := by
    rw [find_eq_none_iff] at *
    intro m hm
    rw [hn] at hm
    rcases mem_append.mp hm with hm | hm
    · exact (base₁.find_eq_none_iff keepPath).mp hfresh.2 m hm
    · rw [mem_singleton.mp hm, hp]
      decide +kernel
  obtain ⟨n', hn', hp'⟩ := write_fresh hkeep h2
  exact ⟨n, n', by rw [hn', hn]; simp, hp, hp'⟩

theorem writeSeeds_inv {base₁ : RamVfs} (hi : VfsInv base₁) (h : writeSeeds base₁ = (v, true)) :
    VfsInv v := by
  obtain ⟨v', h1, h2⟩ := writeSeeds_ok h
  have hv' := hi.changes (write_changes base₁ persistentPath persistentPayload).changes
  rw [h1] at hv'
  have hv := hv'.changes (write_changes v' keepPath keepPayload).changes
  rwa [h2] at hv

/-! ## §3. What a mount yields. -/

/-- The slot `s` mounts on `base₁` as the user tree `tree`. -/
structure Stores (base₁ : RamVfs) (s : Snapshot) (g : UInt64) (tree : List VfsNode) : Prop where
  valid : validateSnapshot s = .ok g
  applied : ∃ w, applySnapshot base₁ s = (w, .ok ()) ∧ userNodes w = tree

/-- Every mount of `image` whose reads succeed has this generation and tree. -/
def Yields (base : RamVfs) (image : Nat → Sector) (result : UInt64 × List VfsNode) : Prop :=
  ∀ o : Oracle, (∀ n, o.readOk n = true) →
    ((mountDeviceWith base (Disk.boot image o)).fs.generation,
      userNodes (mountDeviceWith base (Disk.boot image o)).vfs) = result

/-- The durable content of a healthy volume with active slot `a`. -/
structure Volume (base₁ : RamVfs) (partition : Partition) (D : Nat → Sector) (a : Fin 2)
    (g : UInt64) (tree : List VfsNode) : Prop where
  partitionOk : diskPartition D = .ok partition
  writable : partition.readOnly = false
  newest : newestValidSlot (diskSummary D partition 0) (diskSummary D partition 1) = some a
  stores : Stores base₁ (diskSlot D partition a) g tree

section Volumes

variable {base base₁ : RamVfs} {partition : Partition} {D : Nat → Sector} {a : Fin 2} {g : UInt64}
  {tree : List VfsNode}

theorem Volume.yields (h : Volume base₁ partition D a g tree)
    (hseed : seedStatus base "state=error" = (base₁, true)) : Yields base D (g, tree) := by
  intro o ho
  obtain ⟨w, happly, htree⟩ := h.stores.applied
  obtain ⟨hg, status, hvfs⟩ := remount_selected ho hseed h.partitionOk h.writable h.newest
    h.stores.valid happly
  rw [hg, hvfs, userNodes_seedStatus, htree]

/-- A sealed record of user nodes mounts as these nodes. -/
theorem SealedRecord.stores {ns : List VfsNode} (hs : SealedRecord s ns g) (hb : MountBase base₁)
    (hroom : base₁.nodes.length + ns.length ≤ maxNodes) (hu : ∀ n ∈ ns, isUserNode n = true) : Stores base₁ s g ns := by
  obtain ⟨w, hw, hnodes, -⟩ := hs.apply hb hroom
  refine ⟨hs.valid, w, hw, ?_⟩
  rw [userNodes, hnodes, filter_append, filter_eq_self.mpr hu,
    filter_eq_nil_iff.mpr (fun n hn => by simp [hb.empty n hn]), nil_append]

theorem restoredNodes_user (v : RamVfs) : ∀ n ∈ restoredNodes v, isUserNode n = true := by
  intro n hn
  obtain ⟨m, hm, rfl⟩ := mem_map.mp hn
  have hu : isUserNode m = true := (mem_filter.mp hm).2
  rw [isUserNode, canonicalNode_path hu]
  exact canonicalUserPath_writable hu

/-! ## §4. Slots and crash images. -/

theorem otherSlot_ne (a : Fin 2) : otherSlot a ≠ a := by
  match a with
  | 0 => decide
  | 1 => decide

/-- The two slots and the partition table do not overlap. -/
theorem slot_disjoint {s : Fin 2} (hst : s ≠ t) (i j : Fin slotSectors) :
    partition.startLba + slotOffsets s + i ≠ partition.startLba + slotOffsets t + j := by
  have hi := i.isLt
  have hj := j.isLt
  match s, t with
  | 0, 0 => exact absurd rfl hst
  | 0, 1 => simp only [slotOffsets, slotSectors] at *; omega
  | 1, 0 => simp only [slotOffsets, slotSectors] at *; omega
  | 1, 1 => exact absurd rfl hst

/-- The sectors outside slot `t` are as before. -/
def SameOutside (D image : Nat → Sector) (partition : Partition) (t : Fin 2) : Prop :=
  ∀ l, (∀ i : Fin slotSectors, l ≠ partition.startLba + slotOffsets t + i) → image l = D l

/-- A change confined to one slot leaves the table and the other slot alone. -/
theorem content_outside (hp : 0 < partition.startLba) (h : SameOutside D image partition t) :
    diskPartition image = diskPartition D
      ∧ ∀ s, s ≠ t → diskSlot image partition s = diskSlot D partition s := by
  constructor
  · rw [diskPartition, diskPartition, h 0 (fun i => by omega)]
  intro s hs
  rw [diskSlot, diskSlot]
  congr 1
  funext i
  exact h _ (fun j => slot_disjoint hs i j)

/-- A record whose commit byte is not set. -/
def Uncommitted (s : Snapshot) : Prop := s.byte 7 = 0

theorem sectorOf_byte (s : Snapshot) {k : Nat} (hk : k < sectorBytes) :
    (sectorOf s 0).byte k = s.byte k := by
  have h0 : ((0 : Fin slotSectors) : Nat) = 0 := rfl
  simp only [FixedBytes.byte, sectorOf, FixedBytes.slice, getD_eq_getElem?_getD,
    getElem?_take_of_lt hk, getElem?_drop, h0, Nat.zero_mul, Nat.zero_add]

theorem Uncommitted.invalid (h : Uncommitted s) :
    ∃ e, validateSnapshot s = .error e := by
  have hhead : headerOk s = false := by
    have : (s.byte 7 == recordCommitted) = false := by rw [h]; decide
    simp [headerOk, this]
  exact ⟨.invalidRecord, by rw [validateSnapshot, if_pos hhead]⟩

theorem uncommitted_of_blank (h : s.val.all (· == 0) = true) : Uncommitted s := by
  have hlt : 7 < s.val.length := by rw [s.length_val]; decide
  have hmem := getElem_mem hlt
  have := all_eq_true.mp h _ hmem
  rw [Uncommitted, FixedBytes.byte, getD_eq_getElem?_getD, getElem?_eq_getElem hlt]
  simpa using this

/-- A slot that starts with the header of an uncommitted record is invalid. -/
theorem invalid_of_header (hu : Uncommitted u) (h : sectorOf s 0 = sectorOf u 0) : ∃ e, validateSnapshot s = .error e := by
  apply Uncommitted.invalid
  rw [Uncommitted, ← sectorOf_byte s (by decide), h, sectorOf_byte u (by decide)]
  exact hu

/-- What is encoded is not yet committed, and sealing commits it. -/
theorem encodeSnapshot_uncommitted (hi : VfsInv v) (h : encodeSnapshot v g = .ok u) :
    Uncommitted u ∧ SealedRecord (sealSnapshot u) (restoredNodes v) g := by
  have hne := encodeSnapshot_nonempty h
  obtain ⟨s, k, henc, hs⟩ := encodeSnapshot_shape hi hne g
  obtain ⟨s', henc', hsealed⟩ := encodeSnapshot_sealed hi hne g
  rw [h] at henc henc'
  cases henc
  cases henc'
  exact ⟨(recordHead_fields (by simp) (hs.trans (append_assoc _ _ _))).2.2.2.1, hsealed⟩

theorem sectorOf_diskSlot (image : Nat → Sector) (t : Fin 2) (i : Fin slotSectors) :
    sectorOf (diskSlot image partition t) i = image (partition.startLba + slotOffsets t + i) := by
  rw [diskSlot, sectorOf_slotOf]

theorem diskSlot_withSlot (t : Fin 2) (u : Snapshot) :
    diskSlot (withSlot D (partition.startLba + slotOffsets t) u) partition t = u := by
  rw [diskSlot, slotOf_eq_iff]
  exact fun i => withSlot_inside _ _ _ i

theorem start_add_ne (b : Nat) {i : Fin slotSectors} (hi : i ≠ 0) : b + i ≠ b := by
  have : (i : Nat) ≠ 0 := fun h => hi (Fin.ext h)
  omega

/-- Writes of the header change the first sector alone. -/
theorem headerWrites_outside {b : Nat} {E : Nat → Sector}
    (h : ∀ l, image l = E l ∨ headerWrites b u l (image l)) (l : Nat) (hl : l ≠ b) :
    image l = E l := by
  rcases h l with h | h
  · exact h
  · exact absurd h.1 hl

theorem image_invalidating (hu : Uncommitted u)
    (h : ∀ l, image l = D l ∨ headerWrites (partition.startLba + slotOffsets t) u l (image l)) :
    SameOutside D image partition t
      ∧ (diskSlot image partition t = diskSlot D partition t
        ∨ ∃ e, validateSnapshot (diskSlot image partition t) = .error e) := by
  have hout := headerWrites_outside h
  refine ⟨fun l hl => hout l (fun h0 => hl 0 h0), ?_⟩
  rcases h (partition.startLba + slotOffsets t) with hb | hb
  · left
    rw [diskSlot, diskSlot]
    congr 1
    funext i
    by_cases hi : i = 0
    · subst hi; exact hb
    · exact hout _ (start_add_ne _ hi)
  · right
    apply invalid_of_header hu
    rw [sectorOf_diskSlot]
    exact hb.2

theorem image_storing (hu : Uncommitted u)
    (h : ∀ l, image l = Function.update D (partition.startLba + slotOffsets t) (sectorOf u 0) l
      ∨ payloadWrites (partition.startLba + slotOffsets t) u l (image l)) :
    SameOutside D image partition t
      ∧ ∃ e, validateSnapshot (diskSlot image partition t) = .error e := by
  constructor
  · intro l hl
    rcases h l with h | ⟨i, -, h, -⟩
    · have hne : l ≠ partition.startLba + slotOffsets t := fun h0 => hl 0 h0
      rw [h, Function.update_of_ne hne]
    · exact absurd h (hl i)
  · apply invalid_of_header hu
    rw [sectorOf_diskSlot]
    show image (partition.startLba + slotOffsets t) = _
    rcases h (partition.startLba + slotOffsets t) with h | ⟨i, hi, h, -⟩
    · rw [h, Function.update_self]
    · exact absurd h.symm (start_add_ne _ hi)

theorem image_publishing (hu : Uncommitted u)
    (h : ∀ l, image l = withSlot D (partition.startLba + slotOffsets t) u l
      ∨ headerWrites (partition.startLba + slotOffsets t) (sealSnapshot u) l (image l)) :
    SameOutside D image partition t
      ∧ ((∃ e, validateSnapshot (diskSlot image partition t) = .error e)
        ∨ diskSlot image partition t = sealSnapshot u) := by
  have hrest := headerWrites_outside h
  constructor
  · intro l hl
    rw [hrest l (fun h0 => hl 0 h0), withSlot_outside _ _ _ hl]
  · rcases h (partition.startLba + slotOffsets t) with hb | hb
    · left
      apply invalid_of_header hu
      rw [sectorOf_diskSlot]
      exact hb.trans (withSlot_inside D (partition.startLba + slotOffsets t) u 0)
    · right
      rw [diskSlot, slotOf_eq_iff]
      intro i
      by_cases hi : i = 0
      · subst hi; exact hb.2
      · rw [hrest _ (start_add_ne _ hi), withSlot_inside, sectorOf_seal _ hi]

/-! ## §5. What a crash leaves of a volume. -/

theorem otherSlot_otherSlot (a : Fin 2) : otherSlot (otherSlot a) = a := by
  match a with
  | 0 => rfl
  | 1 => rfl

/-- The newest slot is the valid one beside an invalid or older one. -/
theorem newest_of_older (ha : validateSnapshot (diskSlot D partition a) = .ok g)
    (ht : ∀ g', validateSnapshot (diskSlot D partition (otherSlot a)) = .ok g' → g' < g) :
    newestValidSlot (diskSummary D partition 0) (diskSummary D partition 1) = some a := by
  match a with
  | 0 =>
    cases hv : validateSnapshot (diskSlot D partition 1) with
    | error e => simp only [newestValidSlot, diskSummary, ha, hv, Except.toOption]
    | ok g' =>
      have hlt : ¬ g < g' := UInt64.lt_asymm (ht g' hv)
      simp only [newestValidSlot, diskSummary, ha, hv, Except.toOption, if_neg hlt]
  | 1 =>
    cases hv : validateSnapshot (diskSlot D partition 0) with
    | error e => simp only [newestValidSlot, diskSummary, ha, hv, Except.toOption]
    | ok g' => simp only [newestValidSlot, diskSummary, ha, hv, Except.toOption, if_pos (ht g' hv)]

variable (h : Volume base₁ partition D a g tree)

include h

/-- A volume whose other slot is as before or invalid is the same volume. -/
theorem Volume.keep (hout : SameOutside D image partition (otherSlot a))
    (ht : diskSlot image partition (otherSlot a) = diskSlot D partition (otherSlot a)
      ∨ ∃ e, validateSnapshot (diskSlot image partition (otherSlot a)) = .error e)
    : Volume base₁ partition image a g tree := by
  have hp := (parsePartition_addressable h.partitionOk).1
  obtain ⟨hpart, hslot⟩ := content_outside hp hout
  have ha := hslot a (otherSlot_ne a).symm
  refine ⟨hpart.trans h.partitionOk, h.writable, ?_, by rw [ha]; exact h.stores⟩
  rcases ht with ht | ⟨e, ht⟩
  · have hall : ∀ s, diskSlot image partition s = diskSlot D partition s := by
      intro s
      by_cases hs : s = otherSlot a
      · rw [hs, ht]
      · exact hslot s hs
    have := h.newest
    rw [diskSummary, diskSummary, ← hall 0, ← hall 1] at this
    exact this
  · apply newest_of_older (by rw [ha]; exact h.stores.valid)
    intro g' hg'
    rw [ht] at hg'
    cases hg'

/-- A volume whose other slot holds the next generation has moved on to it. -/
theorem Volume.publish (hg : g.toNat + 1 ≠ 2 ^ 64)
    (hout : SameOutside D image partition (otherSlot a))
    (ht : Stores base₁ (diskSlot image partition (otherSlot a)) (g + 1) next) :
    Volume base₁ partition image (otherSlot a) (g + 1) next := by
  have hp := (parsePartition_addressable h.partitionOk).1
  obtain ⟨hpart, hslot⟩ := content_outside hp hout
  refine ⟨hpart.trans h.partitionOk, h.writable, newest_of_older ht.valid ?_, ht⟩
  intro g' hg'
  rw [otherSlot_otherSlot, hslot a (otherSlot_ne a).symm, h.stores.valid] at hg'
  cases hg'
  rw [UInt64.lt_iff_toNat_lt, UInt64.toNat_add]
  have := g.toNat_lt
  have h1 : (1 : UInt64).toNat = 1 := rfl
  omega

/-- **Before publication a crash keeps the volume.** -/
theorem Volume.crash_notPublished (hu : Uncommitted u)
    (hm : NotPublished D (partition.startLba + slotOffsets (otherSlot a)) u m)
    (hi : m.CrashImage image) : Volume base₁ partition image a g tree := by
  rcases hm with hm | hm
  · obtain ⟨hout, ht⟩ := image_invalidating hu (hm.crashImage hi)
    exact h.keep hout ht
  · obtain ⟨hout, ht⟩ := image_storing hu (hm.crashImage hi)
    exact h.keep hout (.inr ht)

/-- **During publication a crash keeps the volume or completes the commit.** -/
theorem Volume.crash_publishing (hu : Uncommitted u) (hg : g.toNat + 1 ≠ 2 ^ 64)
    (hnext : Stores base₁ (sealSnapshot u) (g + 1) next)
    (hm : Within (withSlot D (partition.startLba + slotOffsets (otherSlot a)) u)
      (headerWrites (partition.startLba + slotOffsets (otherSlot a)) (sealSnapshot u)) m)
    (hi : m.CrashImage image) :
    Volume base₁ partition image a g tree
      ∨ Volume base₁ partition image (otherSlot a) (g + 1) next := by
  obtain ⟨hout, ht | ht⟩ := image_publishing hu (hm.crashImage hi)
  · exact .inl (h.keep hout (.inr ht))
  · exact .inr (h.publish hg hout (by rw [ht]; exact hnext))

theorem Volume.crash_underway (hu : Uncommitted u) (hg : g.toNat + 1 ≠ 2 ^ 64)
    (hnext : Stores base₁ (sealSnapshot u) (g + 1) next)
    (hm : Underway D (partition.startLba + slotOffsets (otherSlot a)) u m)
    (hi : m.CrashImage image) :
    Volume base₁ partition image a g tree
      ∨ Volume base₁ partition image (otherSlot a) (g + 1) next := by
  cases hm with
  | invalidating hm => exact .inl (h.crash_notPublished hu (.inl hm) hi)
  | storing hm => exact .inl (h.crash_notPublished hu (.inr hm) hi)
  | publishing hm => exact h.crash_publishing hu hg hnext hm hi

/-- The content after an acknowledged commit. -/
theorem Volume.committed (hg : g.toNat + 1 ≠ 2 ^ 64)
    (hnext : Stores base₁ (sealSnapshot u) (g + 1) next) :
    Volume base₁ partition
      (withSlot D (partition.startLba + slotOffsets (otherSlot a)) (sealSnapshot u))
      (otherSlot a) (g + 1) next := by
  refine h.publish hg (fun l hl => withSlot_outside _ _ _ hl) ?_
  rw [diskSlot_withSlot]
  exact hnext

end Volumes

end GenOS.Storage
