/-
  GenOS.Xtask.Agreement — host and guest read a disk image alike.

  The slots of a partition are decoded alike (`report_agrees`).  The partition
  table is where the two differ: the kernel skips an entry whose end does not
  fit `u32`, the inspector skips one whose end is outside the image.  So they
  take different partitions on some images of at least 2 TiB, and on no
  smaller one (`agrees_of_small`).
-/
import GenOS.Xtask.SlotAgreement

namespace GenOS.Xtask

open GenOS.Lib GenOS.Vfs GenOS.Storage

/-! ## §1. Images. -/

/-- The sectors of an image, with zeros behind its end. -/
def imageDisk (bytes : Bytes) : Nat → Sector := fun l =>
  ⟨((bytes.drop (l * 512)).take 512 ++ List.replicate 512 0).take 512, by
    rw [List.length_take, List.length_append, List.length_replicate, sectorBytes]
    omega⟩

variable {n : Nat}

section Images

variable {bytes : Bytes} {partition : Partition}

theorem imageDisk_val {l : Nat} (h : (l + 1) * 512 ≤ bytes.length) :
    (imageDisk bytes l).val = (bytes.drop (l * 512)).take 512 := by
  have hlen : ((bytes.drop (l * 512)).take 512).length = 512 := by
    rw [List.length_take, List.length_drop]
    omega
  show ((bytes.drop (l * 512)).take 512 ++ List.replicate 512 0).take 512 = _
  rw [List.take_left' hlen]

/-- The kernel's sectors of a slot are the inspector's slice. -/
theorem diskSlot_image (slot : Fin 2)
    (h : (partition.startLba + slotOffsets slot + slotSectors) * 512 ≤ bytes.length) :
    (diskSlot (imageDisk bytes) partition slot).val
      = slotSlice bytes partition.startLba slot := by
  have h40 : slotSectors = 40 := rfl
  have hbytes : slotBytes = 20480 := rfl
  have hlen : (slotSlice bytes partition.startLba slot).length = slotBytes := by
    unfold slotSlice
    rw [List.length_take, List.length_drop]
    omega
  have heq : diskSlot (imageDisk bytes) partition slot
      = ⟨slotSlice bytes partition.startLba slot, hlen⟩ := by
    rw [diskSlot, slotOf_eq_iff]
    intro i
    have hi := i.isLt
    apply FixedBytes.ext
    rw [imageDisk_val (Nat.le_trans (Nat.mul_le_mul_right 512 (by omega)) h)]
    show _ = ((slotSlice bytes partition.startLba slot).drop (i * 512)).take 512
    unfold slotSlice
    rw [List.drop_take, List.take_take, List.drop_drop, Nat.min_eq_left (by omega),
      ← Nat.add_mul]
  rw [heq]

/-- A blank slot does not decode. -/
theorem decodeFilesystemSlot_blank {snapshot : Bytes} (slot : Fin 2)
    (h : snapshot.all (· == 0) = true) :
    ∃ text, decodeFilesystemSlot slot snapshot = .error text := by
  have hzero : snapshot.getD 6 0 = 0 := by
    rw [List.getD_eq_getElem?_getD]
    cases hget : snapshot[6]? with
    | none => rfl
    | some b => simpa using List.all_eq_true.mp h b (List.mem_of_getElem? hget)
  exact ⟨"invalid GenOS filesystem slot header", by simp only [decodeFilesystemSlot, hzero, true_or,
    or_true, if_true]⟩

/-- The report of the inspector describes the two slots the kernel sees. -/
structure ReportAgrees (D : Nat → Sector) (partition : Partition) (r : ImageReport) : Prop where
  slots : r.validSlots.map InspectedSlot.slot = [0, 1].filter (fun slot =>
    (validateSnapshot (diskSlot D partition slot)).toOption.isSome)
  generations : ∀ v ∈ r.validSlots,
    validateSnapshot (diskSlot D partition v.slot) = .ok v.generation
  entries : ∀ v ∈ r.validSlots,
    slotEntries (diskSlot D partition v.slot) = .ok (v.entries.map toEntry)
  selected : (selectedSlot r).map InspectedSlot.slot
    = newestValidSlot (diskSummary D partition 0) (diskSummary D partition 1)

/-- One round of the slot loop. -/
theorem inspectSlot_valid (start : Nat) (r : ImageReport) (slot : Fin 2) :
    (inspectSlot bytes start r slot).validSlots = r.validSlots
      ++ (decodeFilesystemSlot slot (slotSlice bytes start slot)).toOption.toList := by
  unfold inspectSlot
  simp only
  by_cases hblank : (slotSlice bytes start slot).all (· == 0) = true
  · obtain ⟨text, htext⟩ := decodeFilesystemSlot_blank slot hblank
    rw [if_pos hblank, htext]
    simp [Except.toOption]
  · rw [if_neg hblank]
    cases decodeFilesystemSlot slot (slotSlice bytes start slot) with
    | ok v => rfl
    | error text => simp [Except.toOption]

/-- **The slots of one partition.** -/
theorem report_agrees
    (h : (partition.startLba + (1 + slotSectors * 2)) * 512 ≤ bytes.length) :
    ReportAgrees (imageDisk bytes) partition
      ([0, 1].foldl (inspectSlot bytes partition.startLba) ⟨[], []⟩) := by
  have hvalid : ([0, 1].foldl (inspectSlot bytes partition.startLba) ⟨[], []⟩).validSlots
      = (decodeFilesystemSlot 0 (slotSlice bytes partition.startLba 0)).toOption.toList
        ++ (decodeFilesystemSlot 1 (slotSlice bytes partition.startLba 1)).toOption.toList := by
    rw [List.foldl_cons, List.foldl_cons, List.foldl_nil, inspectSlot_valid, inspectSlot_valid]
    rfl
  have h0 := decodeFilesystemSlot_agrees (diskSlot (imageDisk bytes) partition 0) 0
  have h1 := decodeFilesystemSlot_agrees (diskSlot (imageDisk bytes) partition 1) 1
  have hinside : ∀ slot : Fin 2,
      (partition.startLba + slotOffsets slot + slotSectors) * 512 ≤ bytes.length := by
    intro slot
    refine Nat.le_trans (Nat.mul_le_mul_right 512 ?_) h
    match slot with
    | 0 => simp only [slotOffsets, slotSectors]; omega
    | 1 => simp only [slotOffsets, slotSectors]; omega
  rw [diskSlot_image 0 (hinside 0)] at h0
  rw [diskSlot_image 1 (hinside 1)] at h1
  obtain ⟨r, hr⟩ : ∃ r, r = [0, 1].foldl (inspectSlot bytes partition.startLba) ⟨[], []⟩ := ⟨_, rfl⟩
  rw [← hr] at hvalid ⊢
  -- four cases: which of the two slots is valid
  rcases h0 with ⟨v0, hd0, hs0, hg0, he0⟩ | ⟨⟨t0, hd0⟩, e0, hg0⟩ <;>
    rcases h1 with ⟨v1, hd1, hs1, hg1, he1⟩ | ⟨⟨t1, hd1⟩, e1, hg1⟩ <;>
    rw [hd0, hd1] at hvalid <;>
    simp only [Except.toOption, Option.toList_some, Option.toList_none, List.append_nil,
      List.nil_append, List.cons_append] at hvalid
  · refine ⟨by simp [hvalid, hs0, hs1, hg0, hg1, Except.toOption], ?_, ?_, ?_⟩
    · simp [hvalid, hs0, hs1, hg0, hg1]
    · simp [hvalid, hs0, hs1, he0, he1]
    have hkey : keyLe v0 v1 = decide (v0.generation < v1.generation) := by
      unfold keyLe
      rw [hs0, hs1]
      simp
    simp only [selectedSlot, hvalid, List.foldl_cons, List.foldl_nil, hkey, newestValidSlot,
      diskSummary, hg0, hg1, Except.toOption]
    by_cases hlt : v0.generation < v1.generation
    · simp [hlt, hs1]
    · simp [hlt, hs0]
  · refine ⟨by simp [hvalid, hs0, hg0, hg1, Except.toOption], ?_, ?_, ?_⟩
    · simp [hvalid, hs0, hg0]
    · simp [hvalid, hs0, he0]
    · simp [selectedSlot, hvalid, newestValidSlot, diskSummary, hg0, hg1, hs0, Except.toOption]
  · refine ⟨by simp [hvalid, hs1, hg0, hg1, Except.toOption], ?_, ?_, ?_⟩
    · simp [hvalid, hs1, hg1]
    · simp [hvalid, hs1, he1]
    · simp [selectedSlot, hvalid, newestValidSlot, diskSummary, hg0, hg1, hs1, Except.toOption]
  · refine ⟨by simp [hvalid, hg0, hg1, Except.toOption], ?_, ?_, ?_⟩
    · simp [hvalid]
    · simp [hvalid]
    · simp [selectedSlot, hvalid, newestValidSlot, diskSummary, hg0, hg1, Except.toOption]

/-! ## §2. The partition table. -/

/-- A table entry of a GenOS type with room for both slots. -/
def Usable (bytes : Bytes) (i : Nat) : Prop :=
  (tableType bytes i = partitionTypeGenos ∨ tableType bytes i = partitionTypeGenosReadOnly)
    ∧ 0 < tableStart bytes i ∧ slotSectors * 2 < tableSectors bytes i

/-- The first sector behind a table entry's partition. -/
def tableEnd (bytes : Bytes) (i : Nat) : Nat := tableStart bytes i + tableSectors bytes i

theorem candidatePartition_eq (bytes : Bytes) (i : Nat) :
    (Usable bytes i ∧ tableEnd bytes i ≤ bytes.length / 512 →
        candidatePartition bytes i = some (tableStart bytes i, tableSectors bytes i))
      ∧ (¬ (Usable bytes i ∧ tableEnd bytes i ≤ bytes.length / 512) →
        candidatePartition bytes i = none) := by
  unfold candidatePartition Usable tableEnd
  simp only
  constructor
  · rintro ⟨⟨htype, hstart, hsectors⟩, hend⟩
    rw [if_neg (by rintro ⟨h1, h2⟩; exact htype.elim h1 h2), if_pos ⟨hstart, hsectors, hend⟩]
  · intro h
    split
    · rfl
    rename_i htype
    rw [if_neg]
    rintro ⟨hstart, hsectors, hend⟩
    refine h ⟨⟨?_, hstart, hsectors⟩, hend⟩
    by_contra hne
    exact htype (not_or.mp hne)

theorem take_field {o : Nat} (h : o + n ≤ 512) :
    ((bytes.take 512).drop o).take n = (bytes.drop o).take n := by
  rw [List.drop_take, List.take_take, Nat.min_eq_left (by omega)]

/-- The kernel's test of a table entry, which it reads from the first sector. -/
theorem partitionEntry_eq {i : Nat} (hi : i < 4) :
    (Usable bytes i ∧ tableEnd bytes i < 2 ^ 32 →
        partitionEntry (bytes.take 512) i = some ⟨tableStart bytes i, tableSectors bytes i,
          tableType bytes i == partitionTypeGenosReadOnly⟩)
      ∧ (¬ (Usable bytes i ∧ tableEnd bytes i < 2 ^ 32) →
        partitionEntry (bytes.take 512) i = none) := by
  have htype : (bytes.take 512).getD (446 + i * 16 + 4) 0 = tableType bytes i := by
    unfold tableType
    rw [List.getD_eq_getElem?_getD, List.getElem?_take_of_lt (by omega),
      ← List.getD_eq_getElem?_getD]
  have hstart : leNat (((bytes.take 512).drop (446 + i * 16 + 8)).take 4) = tableStart bytes i := by
    unfold tableStart
    rw [take_field (by omega)]
  have hsectors : leNat (((bytes.take 512).drop (446 + i * 16 + 12)).take 4)
      = tableSectors bytes i := by
    unfold tableSectors
    rw [take_field (by omega)]
  have h40 : slotSectors = 40 := rfl
  have hentry : partitionEntry (bytes.take 512) i
      = if tableType bytes i ≠ partitionTypeGenos ∧ tableType bytes i ≠ partitionTypeGenosReadOnly
        then none
      else if 0 < tableStart bytes i ∧ 1 + slotSectors * 2 ≤ tableSectors bytes i
          ∧ tableStart bytes i + tableSectors bytes i < 2 ^ 32 then
        some ⟨tableStart bytes i, tableSectors bytes i,
          tableType bytes i == partitionTypeGenosReadOnly⟩
      else none := by
    rw [← htype, ← hstart, ← hsectors]
    rfl
  rw [hentry]
  unfold Usable tableEnd
  constructor
  · rintro ⟨⟨hgenos, hpos, hroom⟩, hend⟩
    rw [if_neg (by rintro ⟨h1, h2⟩; exact hgenos.elim h1 h2), if_pos ⟨hpos, by omega, hend⟩]
  · intro h
    split
    · rfl
    rename_i hother
    rw [if_neg]
    rintro ⟨hpos, hroom, hend⟩
    refine h ⟨⟨?_, hpos, by omega⟩, hend⟩
    by_contra hne
    exact hother (not_or.mp hne)

/-- The first index with a value. -/
theorem findSome_range_iff {α : Type} {f : Nat → Option α} {b : α} :
    (List.range n).findSome? f = some b ↔ ∃ i < n, f i = some b ∧ ∀ j < i, f j = none := by
  rw [List.findSome?_eq_some_iff]
  constructor
  · rintro ⟨l₁, i, l₂, hsplit, hi, hnone⟩
    have hget : (List.range n)[l₁.length]? = some i := by rw [hsplit]; simp
    obtain ⟨hlt, rfl⟩ := List.getElem?_eq_some_iff.mp hget
    rw [List.length_range] at hlt
    rw [List.getElem_range] at hi
    refine ⟨l₁.length, hlt, hi, fun j hj => ?_⟩
    have hj' : (l₁ ++ l₁.length :: l₂)[j]? = some j := by
      rw [List.getElem_range] at hsplit
      rw [← hsplit, List.getElem?_range (by omega)]
    rw [List.getElem?_append_left hj] at hj'
    exact hnone j (List.mem_of_getElem? hj')
  · rintro ⟨i, hi, hb, hnone⟩
    refine ⟨List.range i, i, (List.range n).drop (i + 1), ?_, hb, ?_⟩
    · have htake : (List.range n).take i = List.range i := by
        rw [List.take_range, Nat.min_eq_left (by omega)]
      have hdrop : (List.range n).drop i = i :: (List.range n).drop (i + 1) := by
        rw [List.drop_eq_getElem_cons (by rw [List.length_range]; exact hi), List.getElem_range]
      rw [← hdrop, ← htake, List.take_append_drop]
    · intro j hj
      exact hnone j (List.mem_range.mp hj)

/-- A table entry the kernel takes: the end of its partition fits `u32`. -/
def KernelTakes (bytes : Bytes) (i : Nat) : Prop := Usable bytes i ∧ tableEnd bytes i < 2 ^ 32

/-- A table entry the inspector takes and the kernel skips: the end of its
partition does not fit `u32` but lies inside the image. -/
def InspectorOnly (bytes : Bytes) (i : Nat) : Prop :=
  Usable bytes i ∧ 2 ^ 32 ≤ tableEnd bytes i ∧ tableEnd bytes i ≤ bytes.length / 512

/-- The kernel takes the first entry it can. -/
theorem diskPartition_image (hlen : 512 ≤ bytes.length)
    (h : diskPartition (imageDisk bytes) = .ok partition) :
    (bytes.drop 510).take 2 = [0x55, 0xaa] ∧ ∃ k < 4, KernelTakes bytes k
      ∧ partition.startLba = tableStart bytes k ∧ partition.sectors = tableSectors bytes k
      ∧ ∀ j < k, ¬ KernelTakes bytes j := by
  have hmbr : (imageDisk bytes 0).val = bytes.take 512 := by
    rw [imageDisk_val (by omega), Nat.zero_mul, List.drop_zero]
  unfold diskPartition parsePartition at h
  rw [hmbr] at h
  split at h
  · cases h
  split at h
  · cases h
  rename_i hsig
  rw [not_not, take_field (by omega)] at hsig
  refine ⟨hsig, ?_⟩
  split at h
  · rename_i found hfound
    cases h
    obtain ⟨k, hk, hsome, hnone⟩ := findSome_range_iff.mp hfound
    have htakes : KernelTakes bytes k := by
      by_contra hno
      rw [(partitionEntry_eq hk).2 hno] at hsome
      cases hsome
    rw [(partitionEntry_eq hk).1 htakes] at hsome
    cases hsome
    refine ⟨k, hk, htakes, rfl, rfl, fun j hj hjtakes => ?_⟩
    have := hnone j hj
    rw [(partitionEntry_eq (Nat.lt_trans hj hk)).1 hjtakes] at this
    cases this
  · cases h

/-- The inspector takes the first entry inside the image. -/
theorem validGenosPartition_of_first (hlen : 512 ≤ bytes.length)
    (hsig : (bytes.drop 510).take 2 = [0x55, 0xaa]) {i : Nat} (hi : i < 4)
    (htakes : Usable bytes i ∧ tableEnd bytes i ≤ bytes.length / 512)
    (hfirst : ∀ j < i, ¬ (Usable bytes j ∧ tableEnd bytes j ≤ bytes.length / 512)) :
    validGenosPartition bytes = .ok (tableStart bytes i, tableSectors bytes i) := by
  have hgood : ¬ (bytes.length < 512 ∨ (bytes.drop 510).take 2 ≠ [0x55, 0xaa]) := by
    rintro (h | h)
    · omega
    · exact h hsig
  have hfind : (List.range 4).findSome? (candidatePartition bytes)
      = some (tableStart bytes i, tableSectors bytes i) :=
    findSome_range_iff.mpr ⟨i, hi, (candidatePartition_eq bytes i).1 htakes,
      fun j hj => (candidatePartition_eq bytes j).2 (hfirst j hj)⟩
  unfold validGenosPartition
  rw [if_neg hgood, hfind]

/-- Inspector and kernel agree on an image whose partition is `partition`: on
its start, on the valid slots with their generations and entries, and on the
selected slot. -/
def Agrees (bytes : Bytes) (partition : Partition) : Prop :=
  ∃ sectors r, validGenosPartition bytes = .ok (partition.startLba, sectors)
    ∧ inspectFilesystemBytes bytes = .ok r ∧ ReportAgrees (imageDisk bytes) partition r

theorem first_of_exists {P : Nat → Prop} (h : P n) :
    ∃ i ≤ n, P i ∧ ∀ j < i, ¬ P j := by
  classical
  exact ⟨Nat.find ⟨n, h⟩, Nat.find_min' _ h, Nat.find_spec ⟨n, h⟩, fun j hj => Nat.find_min _ hj⟩

/-- The condition for agreement: an entry that only the inspector takes, with
nothing to take before it, starts where the kernel's partition starts. -/
def SameStart (bytes : Bytes) (start : Nat) : Prop :=
  ∀ i < 4, InspectorOnly bytes i →
    (∀ j < i, ¬ InspectorOnly bytes j ∧ ¬ KernelTakes bytes j) → tableStart bytes i = start

/-- What the inspector takes is taken by the kernel or by the inspector only. -/
theorem inspector_takes {j : Nat} (h : Usable bytes j ∧ tableEnd bytes j ≤ bytes.length / 512) :
    KernelTakes bytes j ∨ InspectorOnly bytes j := by
  rcases Nat.lt_or_ge (tableEnd bytes j) (2 ^ 32) with hlt | hge
  · exact .inl ⟨h.1, hlt⟩
  · exact .inr ⟨h.1, hge, h.2⟩

theorem image_length (hk : diskPartition (imageDisk bytes) = .ok partition)
    (hinside : (partition.startLba + partition.sectors) * 512 ≤ bytes.length) :
    512 ≤ bytes.length := by
  have hpos := (parsePartition_addressable hk).1
  exact Nat.le_trans (Nat.le_mul_of_pos_left 512 (by omega)) hinside

theorem agrees_of_sameStart (hk : diskPartition (imageDisk bytes) = .ok partition)
    (hinside : (partition.startLba + partition.sectors) * 512 ≤ bytes.length)
    (hcond : SameStart bytes partition.startLba) : Agrees bytes partition := by
  have hlen := image_length hk hinside
  obtain ⟨hsig, k, hk4, hktakes, hstart, hsectors, hkfirst⟩ := diskPartition_image hlen hk
  have hkend : tableEnd bytes k ≤ bytes.length / 512 := by
    rw [Nat.le_div_iff_mul_le (by omega)]
    unfold tableEnd
    rw [← hstart, ← hsectors]
    exact hinside
  -- the entry the inspector takes is the kernel's or an earlier one
  obtain ⟨i, hik, hitakes, hifirst⟩ := first_of_exists
    (P := fun j => Usable bytes j ∧ tableEnd bytes j ≤ bytes.length / 512) ⟨hktakes.1, hkend⟩
  have hi : i < 4 := by omega
  have hsame : tableStart bytes i = partition.startLba := by
    rcases inspector_takes hitakes with hkernel | honly
    · have : i = k := by
        rcases Nat.lt_or_ge i k with hlt | hge
        · exact absurd hkernel (hkfirst i hlt)
        · omega
      rw [this, hstart]
    · apply hcond i hi honly
      intro j hj
      exact ⟨fun h => hifirst j hj ⟨h.1, h.2.2⟩, hkfirst j (by omega)⟩
  have hpart := validGenosPartition_of_first hlen hsig hi hitakes hifirst
  rw [hsame] at hpart
  refine ⟨_, _, hpart, inspectFilesystemBytes_of_partition bytes hpart, ?_⟩
  apply report_agrees
  refine Nat.le_trans (Nat.mul_le_mul_right 512 ?_) hinside
  have := hktakes.1.2.2
  omega

/-- **Host and guest agree on an image exactly when no entry that only the
inspector takes comes first**, unless it starts at the same sector. -/
theorem inspector_agrees_iff (hk : diskPartition (imageDisk bytes) = .ok partition)
    (hinside : (partition.startLba + partition.sectors) * 512 ≤ bytes.length) :
    Agrees bytes partition ↔ SameStart bytes partition.startLba := by
  refine ⟨?_, agrees_of_sameStart hk hinside⟩
  rintro ⟨sectors, r, hpart, -, -⟩ i hi honly hfirst
  have hlen := image_length hk hinside
  obtain ⟨hsig, -⟩ := diskPartition_image hlen hk
  have htaken := validGenosPartition_of_first hlen hsig hi ⟨honly.1, honly.2.2⟩
    (fun j hj hjtakes => (inspector_takes hjtakes).elim (hfirst j hj).2 (hfirst j hj).1)
  rw [hpart] at htaken
  exact (congrArg Prod.fst (Except.ok.inj htaken)).symm

end Images

/-- A first sector with the given GenOS entries `(start, sectors)`. -/
def tableSector (entries : List (Nat × Nat)) : Bytes :=
  List.replicate 446 0
    ++ entries.flatMap (fun e => [0, 0, 0, 0, partitionTypeGenos, 0, 0, 0] ++ leBytes 4 e.1
        ++ leBytes 4 e.2)
    ++ List.replicate (64 - 16 * entries.length) 0 ++ [0x55, 0xaa]

theorem imageDisk_table {mbr rest : Bytes} (h : mbr.length = 512) :
    (imageDisk (mbr ++ rest) 0).val = mbr := by
  have hle : (0 + 1) * 512 ≤ (mbr ++ rest).length := by
    rw [List.length_append]
    omega
  rw [imageDisk_val hle, Nat.zero_mul, List.drop_zero, List.take_left' h]

/-- A blank image with one partition. -/
theorem inspector_agrees_blank :
    Agrees (tableSector [(1, 81)] ++ List.replicate (81 * 512) 0) ⟨1, 81, false⟩ := by
  have hlen : (tableSector [(1, 81)]).length = 512 := by decide +kernel
  have hk : diskPartition (imageDisk (tableSector [(1, 81)] ++ List.replicate (81 * 512) 0))
      = .ok ⟨1, 81, false⟩ := by
    unfold diskPartition
    rw [imageDisk_table hlen]
    decide +kernel
  have htotal : (tableSector [(1, 81)] ++ List.replicate (81 * 512) (0 : UInt8)).length
      = 82 * 512 := by
    rw [List.length_append, hlen, List.length_replicate]
  refine (inspector_agrees_iff hk (by rw [htotal]; exact Nat.le_refl _)).mpr ?_
  intro i _ honly
  obtain ⟨-, h1, h2⟩ := honly
  rw [htotal] at h2
  omega

/-- An image of 2 TiB whose first entry ends at sector `2 ^ 32`: the kernel
skips it and mounts the second one, the inspector takes it. -/
theorem inspector_differs :
    ∃ bytes : Bytes, diskPartition (imageDisk bytes) = .ok ⟨100, 81, false⟩
      ∧ (100 + 81) * 512 ≤ bytes.length
      ∧ validGenosPartition bytes = .ok (1, 2 ^ 32 - 1) ∧ ¬ Agrees bytes ⟨100, 81, false⟩ := by
  obtain ⟨mbr, hmbr⟩ : ∃ m, m = tableSector [(1, 2 ^ 32 - 1), (100, 81)] := ⟨_, rfl⟩
  have hlen : mbr.length = 512 := by rw [hmbr]; decide +kernel
  obtain ⟨rest, hrest⟩ : ∃ r : Bytes, r.length = (2 ^ 32 - 1) * 512 :=
    ⟨List.replicate _ 0, List.length_replicate⟩
  have htotal : (mbr ++ rest).length = 2 ^ 32 * 512 := by
    rw [List.length_append, hlen, hrest]
    omega
  -- the fields of the first entry
  have hfield : ∀ o n, o + n ≤ 512 → ((mbr ++ rest).drop o).take n = (mbr.drop o).take n := by
    intro o n h
    rw [← take_field h, List.take_left' hlen]
  have htype : tableType (mbr ++ rest) 0 = partitionTypeGenos := by
    unfold tableType
    rw [List.getD_eq_getElem?_getD, List.getElem?_append_left (by omega), hmbr]
    decide +kernel
  have hstart : tableStart (mbr ++ rest) 0 = 1 := by
    unfold tableStart
    rw [hfield _ _ (by omega), hmbr]
    decide +kernel
  have hsectors : tableSectors (mbr ++ rest) 0 = 2 ^ 32 - 1 := by
    unfold tableSectors
    rw [hfield _ _ (by omega), hmbr]
    decide +kernel
  have hpart : validGenosPartition (mbr ++ rest) = .ok (1, 2 ^ 32 - 1) := by
    have hsig : ((mbr ++ rest).drop 510).take 2 = [0x55, 0xaa] := by
      rw [hfield _ _ (by omega), hmbr]
      decide +kernel
    have := validGenosPartition_of_first (i := 0) (by omega) hsig (by omega)
      ⟨⟨Or.inl htype, by omega, by rw [hsectors]; decide⟩, by
        unfold tableEnd
        rw [hstart, hsectors, htotal]
        omega⟩ (fun j hj => absurd hj (Nat.not_lt_zero j))
    rw [hstart, hsectors] at this
    exact this
  refine ⟨mbr ++ rest, ?_, by rw [htotal]; omega, hpart, ?_⟩
  · unfold diskPartition
    rw [imageDisk_table hlen, hmbr]
    decide +kernel
  · rintro ⟨sectors, r, h, -, -⟩
    rw [hpart] at h
    cases h

end GenOS.Xtask
