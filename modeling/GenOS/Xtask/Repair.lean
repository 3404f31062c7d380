/-
  GenOS.Xtask.Repair — the offline repair of a disk image.

  The tool copies the one valid slot over the other, with the next generation
  and a new checksum, checks the result with its own inspector and replaces the
  image.  The entries of a slot lie behind the fields that change, so both
  parsers read the copy as they read the original (`reseal_valid`), and the
  partition table and the source slot are outside of it.

  Writing the new image under a temporary name and renaming it is left out; the
  model returns the bytes that are published.
-/
import GenOS.Xtask.Agreement

namespace GenOS.Xtask

open GenOS.Lib GenOS.Vfs GenOS.Storage List FixedBytes

/-! ## §1. The tool. -/

inductive RepairOutcome where
  | healthy
  | repaired (sourceSlot targetSlot : Fin 2) (generation : UInt64)
  deriving DecidableEq, Repr

variable (bytes : Bytes)

/-- `bytes[off..off + data.len()].copy_from_slice(data)`, inside the bytes. -/
def overwrite (off : Nat) (data : Bytes) : Bytes :=
  bytes.take off ++ data ++ bytes.drop (off + data.length)

/-- The new record: the generation, then the checksum over the record with a
zero checksum field. -/
def resealSlot (snapshot : Bytes) (generation : UInt64) : Bytes :=
  let dated := overwrite snapshot 8 (leBytes 8 generation.toNat)
  let cleared := overwrite dated 20 (List.replicate 4 0)
  overwrite cleared 20 (leBytes 4 (snapshotChecksum cleared).toNat)

/-- The image with the copy of the source slot in the other slot. -/
def repairedBytes (partitionStart : Nat) (source : Fin 2) (generation : UInt64) : Bytes :=
  overwrite bytes ((partitionStart + slotOffsets (otherSlot source)) * 512)
    (resealSlot (slotSlice bytes partitionStart source) generation)

/-- The check of the tool on its own result. -/
def verifyRepair (outcome : RepairOutcome) : Except String (RepairOutcome × Option Bytes) :=
  match inspectFilesystemBytes bytes with
  | .error e => .error e
  | .ok verified =>
    if verified.validSlots.length ≠ 2 ∨ verified.invalidSlots ≠ [] then
      .error "repair verification failed; image was not reported healthy"
    else .ok (outcome, some bytes)

/-- `repair_filesystem_image_with`: the outcome and the bytes that replace the
image, if it is replaced. -/
def repairFilesystemImage : Except String (RepairOutcome × Option Bytes) :=
  match validGenosPartition bytes with
  | .error e => .error e
  | .ok (partitionStart, _) =>
    match inspectFilesystemBytes bytes with
    | .error e => .error e
    | .ok report =>
      match report.validSlots with
      | [_, _] => .ok (.healthy, none)
      | [source] =>
        -- `checked_add`
        if source.generation.toNat + 1 < 2 ^ 64 then
          verifyRepair
            (repairedBytes bytes partitionStart source.slot (source.generation + 1))
            (.repaired source.slot (otherSlot source.slot) (source.generation + 1))
        else .error "refusing repair: snapshot generation is exhausted"
      | _ => .error
          "refusing repair: no valid GenOS snapshot exists to use as a trusted source"

/-! ## §2. The new record. -/

/-- The record of `resealSlot`, as a slot. -/
def resealSnapshot (s : Snapshot) (generation : UInt64) : Snapshot :=
  let cleared := (s.patch 8 (leBytes 8 generation.toNat)).patch 20 (List.replicate 4 0)
  cleared.patch 20 (leBytes 4 (checksum cleared.val).toNat)

theorem resealSlot_val (s : Snapshot) (generation : UInt64) :
    resealSlot s.val generation = (resealSnapshot s generation).val := by
  have hbytes : slotBytes = 20480 := rfl
  have hpatch : ∀ (t : Snapshot) (off : Nat) (data : Bytes), off + data.length ≤ slotBytes →
      overwrite t.val off data = (t.patch off data).val :=
    fun t off data h => (val_patch h).symm
  have hsum : ∀ b : Bytes, snapshotChecksum b = checksum b := fun _ => rfl
  unfold resealSlot resealSnapshot
  dsimp only
  rw [hpatch s _ _ (by simp [hbytes]), hpatch _ _ _ (by simp [hbytes]), hsum,
    hpatch _ _ _ (by simp [hbytes])]

/-- The two slots differ at most in the generation and the checksum. -/
def SameRecord (s t : Snapshot) : Prop :=
  ∀ i, i < 8 ∨ (16 ≤ i ∧ i < 20) ∨ 24 ≤ i → t.val[i]? = s.val[i]?

theorem reseal_same (s : Snapshot) (generation : UInt64) :
    SameRecord s (resealSnapshot s generation) := by
  intro i hi
  unfold resealSnapshot
  dsimp only
  rw [patch_getElem?_of_notMem (by simp; omega),
    patch_getElem?_of_notMem (by simp; omega),
    patch_getElem?_of_notMem (by simp; omega)]

variable {k sectors : Nat} {s : Snapshot} {source : InspectedSlot}

namespace SameRecord

variable {s t : Snapshot}

theorem byte (h : SameRecord s t) {i : Nat} (hi : i < 8 ∨ (16 ≤ i ∧ i < 20) ∨ 24 ≤ i) :
    t.byte i = s.byte i := by
  unfold FixedBytes.byte
  rw [getD_eq_getElem?_getD, getD_eq_getElem?_getD, h i hi]

theorem slice (h : SameRecord s t) {a : Nat} (hi : a + k ≤ 8 ∨ (16 ≤ a ∧ a + k ≤ 20) ∨ 24 ≤ a) : t.slice a k = s.slice a k := by
  apply ext_getElem?
  intro i
  simp only [FixedBytes.slice, getElem?_take, getElem?_drop]
  split
  · exact h (a + i) (by omega)
  · rfl

theorem decodeEntry (h : SameRecord s t) {cursor : Nat} (hc : 24 ≤ cursor) (used : Nat) :
    decodeEntry t cursor used = Storage.decodeEntry s cursor used := by
  have hbody : ∀ kind, decodeBody t cursor used kind = decodeBody s cursor used kind := by
    intro kind
    have hpathLen : t.byte cursor = s.byte cursor := h.byte (by omega)
    have hdataLen : t.slice (cursor + 2) 2 = s.slice (cursor + 2) 2 := h.slice (by omega)
    have hpath : ∀ k, t.slice (cursor + 4) k = s.slice (cursor + 4) k := fun _ => h.slice (by omega)
    have hdata : ∀ n k, t.slice (cursor + 4 + n) k = s.slice (cursor + 4 + n) k :=
      fun _ _ => h.slice (by omega)
    unfold decodeBody entryHeaderBytes
    dsimp only
    refine if_congr (by rw [hpathLen, hdataLen]) rfl (if_congr (by rw [hpathLen, hdataLen]) rfl ?_)
    rw [hpathLen, hdataLen, hpath, hdata]
  unfold Storage.decodeEntry
  rw [h.byte (i := cursor + 1) (by omega), hbody, hbody]

/-- The cursor only moves on. -/
theorem next_le {cursor used next : Nat} {e : Entry}
    (h : Storage.decodeEntry s cursor used = .ok (e, next)) : cursor ≤ next := by
  have hbody : ∀ kind, decodeBody s cursor used kind = .ok (e, next) → cursor ≤ next := by
    intro kind hb
    unfold decodeBody at hb
    dsimp only at hb
    split at hb
    · cases hb
    split at hb
    · cases hb
    · cases hb
      omega
  unfold Storage.decodeEntry at h
  split at h
  · cases h
  split at h
  · exact hbody _ h
  split at h
  · exact hbody _ h
  · cases h

theorem validateEntries (h : SameRecord s t) (used remaining : Nat) :
    ∀ (cursor : Nat) (prior : List (Bytes × NodeKind)), 24 ≤ cursor →
      validateEntries t used remaining cursor prior
        = Storage.validateEntries s used remaining cursor prior := by
  induction remaining with
  | zero => exact fun _ _ _ => rfl
  | succ n ih =>
    intro cursor prior hc
    unfold Storage.validateEntries
    rw [h.decodeEntry hc]
    cases hdecode : Storage.decodeEntry s cursor used with
    | error e => rfl
    | ok found =>
      have hnext := next_le hdecode
      dsimp only
      cases fromUtf8 found.1.path with
      | none => rfl
      | some path => exact if_congr Iff.rfl (ih found.2 _ (by omega)) rfl

theorem decodedEntries (h : SameRecord s t) (used remaining : Nat) :
    ∀ cursor : Nat, 24 ≤ cursor →
      decodedEntries t used remaining cursor = Xtask.decodedEntries s used remaining cursor := by
  induction remaining with
  | zero => exact fun _ _ => rfl
  | succ n ih =>
    intro cursor hc
    unfold Xtask.decodedEntries
    rw [h.decodeEntry hc]
    cases hdecode : Storage.decodeEntry s cursor used with
    | error e => rfl
    | ok found =>
      have hnext := next_le hdecode
      dsimp only
      rw [ih found.2 (by omega)]

theorem applyEntries (h : SameRecord s t) (used remaining : Nat) :
    ∀ (cursor : Nat) (candidate : RamVfs), 24 ≤ cursor →
      applyEntries t used remaining cursor candidate
        = Storage.applyEntries s used remaining cursor candidate := by
  induction remaining with
  | zero => exact fun _ _ _ => rfl
  | succ n ih =>
    intro cursor candidate hc
    unfold Storage.applyEntries
    rw [h.decodeEntry hc]
    cases hdecode : Storage.decodeEntry s cursor used with
    | error e => rfl
    | ok found =>
      have hnext := next_le hdecode
      dsimp only
      cases fromUtf8 found.1.path with
      | none => rfl
      | some path =>
        refine if_congr Iff.rfl rfl ?_
        cases place candidate path found.1.kind found.1.data with
        | error e => rfl
        | ok candidate' => exact ih found.2 candidate' (by omega)

theorem header (h : SameRecord s t) :
    headerOk t = headerOk s ∧ usedBytes t = usedBytes s ∧ entryCount t = entryCount s := by
  have hcount : entryCount t = entryCount s := congrArg UInt8.toNat (h.byte (by omega))
  refine ⟨?_, congrArg leNat (h.slice (by omega)), hcount⟩
  unfold headerOk
  rw [hcount, h.slice (a := 0) (k := 4) (by omega), h.slice (a := 4) (k := 2) (by omega),
    h.byte (i := 6) (by omega), h.byte (i := 7) (by omega)]

end SameRecord

/-- A range that was just patched holds the data. -/
theorem slice_patch_self {off : Nat} {data : Bytes} (h : off + data.length ≤ slotBytes)
    (hk : data.length = k) :
    (s.patch off data).slice off k = data := by
  refine slice_of_append (val_patch h) ?_ hk
  rw [length_take, length_val]
  omega

/-- **The new record is valid** and is read as the old one. -/
theorem reseal_valid {old : UInt64} (hvalid : validateSnapshot s = .ok old) (generation : UInt64) :
    validateSnapshot (resealSnapshot s generation) = .ok generation
      ∧ slotEntries (resealSnapshot s generation) = slotEntries s
      ∧ ∀ base, applySnapshot base (resealSnapshot s generation) = applySnapshot base s := by
  have hsame := reseal_same s generation
  obtain ⟨hhead, hused, hcount⟩ := hsame.header
  have h64 : 24 ≤ recordHeaderBytes := by decide
  have hsum : (checksum (resealSnapshot s generation).val).toNat
      = leNat ((resealSnapshot s generation).slice recordChecksumOffset 4) := by
    unfold resealSnapshot
    dsimp only
    rw [show (20 : Nat) = recordChecksumOffset from rfl, checksum_patch _ (by simp),
      slice_patch_self (by simp; decide) (by simp), leNat_checksum]
  have hdate : UInt64.ofNat (leNat ((resealSnapshot s generation).slice 8 8)) = generation := by
    unfold resealSnapshot
    dsimp only
    rw [slice_patch_of_disjoint (by simp), slice_patch_of_disjoint (by simp),
      slice_patch_self (by simp; decide) (by simp), leNat_leBytes 8 _ generation.toNat_lt,
      UInt64.ofNat_toNat]
  have hnew : validateSnapshot (resealSnapshot s generation) = .ok generation := by
    unfold validateSnapshot at hvalid ⊢
    rw [hhead, hused, hcount, hsame.validateEntries _ _ _ _ h64, hdate]
    split at hvalid
    · cases hvalid
    rename_i hok
    split at hvalid
    · cases hvalid
    rename_i hfits
    split at hvalid
    · cases hvalid
    rw [if_neg hok, if_neg hfits, if_neg (not_not.mpr hsum)]
    generalize Storage.validateEntries s (usedBytes s) (entryCount s) recordHeaderBytes [] = o
      at hvalid ⊢
    cases o with
    | error e => cases hvalid
    | ok cursor =>
      dsimp only at hvalid ⊢
      split at hvalid
      · cases hvalid
      · rename_i hend
        exact if_neg hend
  refine ⟨hnew, ?_, fun base => ?_⟩
  · unfold slotEntries
    rw [hused, hcount]
    exact hsame.decodedEntries _ _ _ h64
  · unfold applySnapshot mountedCandidate
    rw [hnew, hvalid, hused, hcount]
    simp only [hsame.applyEntries _ _ _ _ h64]

/-! ## §3. The image. -/

section Image

variable {bytes data : Bytes} {off start : Nat}

section

variable (h : off + data.length ≤ bytes.length)

include h

theorem length_overwrite : (overwrite bytes off data).length = bytes.length := by
  unfold overwrite
  rw [length_append, length_append, length_take, length_drop]
  omega

theorem getElem?_overwrite {i : Nat} (hi : i < off ∨ off + data.length ≤ i) :
    (overwrite bytes off data)[i]? = bytes[i]? := by
  have hoff : (bytes.take off).length = off := by
    rw [length_take]
    omega
  unfold overwrite
  rw [append_assoc]
  rcases hi with hi | hi
  · rw [getElem?_append_left (by omega), getElem?_take_of_lt hi]
  rw [getElem?_append_right (by omega), hoff, getElem?_append_right (by omega),
    getElem?_drop]
  congr 1
  omega

theorem slice_overwrite_self : ((overwrite bytes off data).drop off).take data.length = data := by
  have hoff : (bytes.take off).length = off := by
    rw [length_take]
    omega
  unfold overwrite
  rw [append_assoc, drop_left' hoff, take_left' rfl]

theorem slice_overwrite_of_disjoint {a : Nat} (hak : a + k ≤ off ∨ off + data.length ≤ a) :
    ((overwrite bytes off data).drop a).take k = (bytes.drop a).take k := by
  apply ext_getElem?
  intro i
  simp only [getElem?_take, getElem?_drop]
  split
  · exact getElem?_overwrite h (by omega)
  · rfl

end

/-- A partition the inspector takes lies inside the image, behind the table. -/
theorem validGenosPartition_bounds (h : validGenosPartition bytes = .ok (start, sectors)) :
    0 < start ∧ (start + (1 + slotSectors * 2)) * 512 ≤ bytes.length := by
  unfold validGenosPartition at h
  split at h
  · cases h
  split at h
  · rename_i found hfound
    cases h
    obtain ⟨i, _, hi, _⟩ := findSome_range_iff.mp hfound
    unfold candidatePartition at hi
    split at hi
    · cases hi
    dsimp only at hi
    split at hi
    · rename_i hok
      cases hi
      have h40 : slotSectors = 40 := rfl
      exact ⟨hok.1, by omega⟩
    · cases hi
  · cases h

/-- The partition only depends on the first sector and the length. -/
theorem validGenosPartition_congr {bytes' : Bytes} (hlen : bytes'.length = bytes.length)
    (hhead : ∀ i, i < 512 → bytes'[i]? = bytes[i]?) :
    validGenosPartition bytes' = validGenosPartition bytes := by
  have hfield : ∀ o n, o + n ≤ 512 → (bytes'.drop o).take n = (bytes.drop o).take n := by
    intro o n hon
    apply ext_getElem?
    intro i
    simp only [getElem?_take, getElem?_drop]
    split
    · exact hhead (o + i) (by omega)
    · rfl
  have hentry : ∀ i < 4, candidatePartition bytes' i = candidatePartition bytes i := by
    intro i hi
    unfold candidatePartition tableType tableStart tableSectors
    rw [hfield _ _ (by omega), hfield _ _ (by omega), hlen, getD_eq_getElem?_getD,
      getD_eq_getElem?_getD, hhead _ (by omega)]
  have hfind : [0, 1, 2, 3].findSome? (candidatePartition bytes')
      = [0, 1, 2, 3].findSome? (candidatePartition bytes) := by
    simp only [findSome?_cons, hentry 0 (by omega), hentry 1 (by omega), hentry 2 (by omega),
      hentry 3 (by omega), findSome?_nil]
  unfold validGenosPartition
  rw [hlen, hfield _ _ (by omega), show List.range 4 = [0, 1, 2, 3] from rfl, hfind]

/-- The first byte of a slot. -/
def slotStart (start : Nat) (slot : Fin 2) : Nat := (start + slotOffsets slot) * 512

theorem slotStart_bounds (h : (start + (1 + slotSectors * 2)) * 512 ≤ bytes.length)
    (slot : Fin 2) : slotStart start slot + slotBytes ≤ bytes.length
      ∧ (slotStart start slot + slotBytes ≤ slotStart start (otherSlot slot)
        ∨ slotStart start (otherSlot slot) + slotBytes ≤ slotStart start slot) := by
  have h40 : slotSectors = 40 := rfl
  have hbytes : slotBytes = 20480 := rfl
  unfold slotStart
  match slot with
  | 0 =>
    simp only [slotOffsets, otherSlot]
    omega
  | 1 =>
    simp only [slotOffsets, otherSlot]
    omega

/-- The slot a partition of the image has, as the kernel reads it. -/
theorem slotSlice_snapshot (h : (start + (1 + slotSectors * 2)) * 512 ≤ bytes.length)
    (slot : Fin 2) (partition : Partition) (hstart : partition.startLba = start) :
    slotSlice bytes start slot = (diskSlot (imageDisk bytes) partition slot).val := by
  subst hstart
  refine (diskSlot_image slot ?_).symm
  have h40 : slotSectors = 40 := rfl
  refine Nat.le_trans (Nat.mul_le_mul_right 512 ?_) h
  match slot with
  | 0 => simp only [slotOffsets]; omega
  | 1 => simp only [slotOffsets]; omega

/-- A slot that decodes is reported as valid. -/
theorem inspectSlot_decoded {r : ImageReport} {slot : Fin 2} {v : InspectedSlot}
    (h : decodeFilesystemSlot slot (slotSlice bytes start slot) = .ok v) :
    inspectSlot bytes start r slot = { r with validSlots := r.validSlots ++ [v] } := by
  unfold inspectSlot
  dsimp only
  rw [if_neg, h]
  intro hblank
  obtain ⟨text, htext⟩ := decodeFilesystemSlot_blank slot hblank
  rw [h] at htext
  cases htext

/-- A decoded slot carries its number. -/
theorem decodeFilesystemSlot_slot {slot : Fin 2} {snapshot : Bytes} {v : InspectedSlot}
    (h : decodeFilesystemSlot slot snapshot = .ok v) : v.slot = slot := by
  unfold decodeFilesystemSlot at h
  dsimp only at h
  split at h
  · cases h
  split at h
  · cases h
  split at h
  · cases h
  split at h
  · cases h
  split at h
  · cases h
  · cases h
    rfl

/-- With one valid slot, that slot decodes. -/
theorem decoded_of_single {report : ImageReport}
    (hpart : validGenosPartition bytes = .ok (start, sectors))
    (hreport : inspectFilesystemBytes bytes = .ok report) (hone : report.validSlots = [source]) :
    decodeFilesystemSlot source.slot (slotSlice bytes start source.slot) = .ok source
      ∧ ∃ text, decodeFilesystemSlot (otherSlot source.slot)
        (slotSlice bytes start (otherSlot source.slot)) = .error text := by
  rw [inspectFilesystemBytes_of_partition bytes hpart] at hreport
  cases hreport
  rw [foldl_cons, foldl_cons, foldl_nil, inspectSlot_valid, inspectSlot_valid] at hone
  cases h0 : decodeFilesystemSlot 0 (slotSlice bytes start 0) with
  | ok v0 =>
    have hslot := decodeFilesystemSlot_slot h0
    cases h1 : decodeFilesystemSlot 1 (slotSlice bytes start 1) with
    | ok v1 =>
      rw [h0, h1] at hone
      cases hone
    | error text =>
      rw [h0, h1] at hone
      cases hone
      rw [hslot]
      exact ⟨h0, text, h1⟩
  | error text =>
    cases h1 : decodeFilesystemSlot 1 (slotSlice bytes start 1) with
    | ok v1 =>
      have hslot := decodeFilesystemSlot_slot h1
      rw [h0, h1] at hone
      cases hone
      rw [hslot]
      exact ⟨h1, text, h0⟩
    | error text' =>
      rw [h0, h1] at hone
      cases hone

/-- What a repair leaves behind: nothing outside the other slot changed, the
inspector reports both slots valid with the same entries and selects the copy,
and so does the kernel, which mounts the same tree from it. -/
structure Restored (bytes : Bytes) (start : Nat) (source : InspectedSlot) (repaired : Bytes) :
    Prop where
  length : repaired.length = bytes.length
  outside : ∀ i, i < slotStart start (otherSlot source.slot)
      ∨ slotStart start (otherSlot source.slot) + slotBytes ≤ i → repaired[i]? = bytes[i]?
  report : ∃ copy report, inspectFilesystemBytes repaired = .ok report
    ∧ copy.slot = otherSlot source.slot ∧ copy.generation.toNat = source.generation.toNat + 1
    ∧ copy.entries = source.entries
    ∧ report.validSlots.Perm [source, copy] ∧ report.invalidSlots = []
    ∧ selectedSlot report = some copy
  table : validGenosPartition repaired = validGenosPartition bytes
    ∧ diskPartition (imageDisk repaired) = diskPartition (imageDisk bytes)
  kernel : ∀ partition : Partition, partition.startLba = start →
    newestValidSlot (diskSummary (imageDisk bytes) partition 0)
        (diskSummary (imageDisk bytes) partition 1) = some source.slot
      ∧ newestValidSlot (diskSummary (imageDisk repaired) partition 0)
        (diskSummary (imageDisk repaired) partition 1) = some (otherSlot source.slot)
      ∧ ∀ base, applySnapshot base (diskSlot (imageDisk repaired) partition (otherSlot source.slot))
        = applySnapshot base (diskSlot (imageDisk bytes) partition source.slot)

theorem toEntry_injective : Function.Injective toEntry := by
  intro e e' h
  obtain ⟨path, directory, data⟩ := e
  obtain ⟨path', directory', data'⟩ := e'
  unfold toEntry kindOf at h
  simp only [Entry.mk.injEq] at h
  obtain ⟨hpath, hkind, hdata⟩ := h
  have hdirectory : directory = directory' := by
    cases directory <;> cases directory' <;> first | rfl | cases hkind
  rw [hpath, hdirectory, hdata]

theorem otherSlot_otherSlot (slot : Fin 2) : otherSlot (otherSlot slot) = slot := by
  match slot with
  | 0 => rfl
  | 1 => rfl

/-- The copy is reported beside the source and selected. -/
theorem report_of_both {bytes : Bytes} {copy : InspectedSlot}
    (hpart : validGenosPartition bytes = .ok (start, sectors))
    (hsource : decodeFilesystemSlot source.slot (slotSlice bytes start source.slot) = .ok source)
    (hcopy : decodeFilesystemSlot (otherSlot source.slot)
      (slotSlice bytes start (otherSlot source.slot)) = .ok copy)
    (hnewer : source.generation < copy.generation) :
    ∃ report, inspectFilesystemBytes bytes = .ok report
      ∧ report.validSlots.Perm [source, copy] ∧ report.invalidSlots = []
      ∧ selectedSlot report = some copy := by
  have holder : ¬ copy.generation < source.generation := by
    rw [UInt64.lt_iff_toNat_lt] at hnewer ⊢
    omega
  have hne : ¬ copy.generation = source.generation := by
    intro heq
    rw [heq] at holder hnewer
    exact holder hnewer
  refine ⟨_, inspectFilesystemBytes_of_partition bytes hpart, ?_⟩
  match hslot : source.slot with
  | 0 =>
    rw [hslot] at hsource hcopy
    rw [foldl_cons, foldl_cons, foldl_nil, inspectSlot_decoded hsource,
      inspectSlot_decoded (show decodeFilesystemSlot 1 (slotSlice bytes start 1) = _ from hcopy)]
    refine ⟨List.Perm.refl _, rfl, ?_⟩
    show (if keyLe source copy then some copy else some source) = some copy
    unfold keyLe
    rw [decide_eq_true hnewer, Bool.true_or]
    rfl
  | 1 =>
    rw [hslot] at hsource hcopy
    rw [foldl_cons, foldl_cons, foldl_nil,
      inspectSlot_decoded (show decodeFilesystemSlot 0 (slotSlice bytes start 0) = _ from hcopy),
      inspectSlot_decoded hsource]
    refine ⟨List.Perm.swap _ _ _, rfl, ?_⟩
    show (if keyLe copy source then some source else some copy) = some copy
    unfold keyLe
    rw [decide_eq_false holder, beq_false_of_ne hne, Bool.false_and, Bool.or_false]
    rfl

/-- What the tool decodes is what the kernel validates. -/
theorem validate_of_decode (h : decodeFilesystemSlot source.slot s.val = .ok source) :
    validateSnapshot s = .ok source.generation
      ∧ slotEntries s = .ok (source.entries.map toEntry) := by
  rcases decodeFilesystemSlot_agrees s source.slot with ⟨v, hv, -, hval, hent⟩ | ⟨⟨_, hv⟩, -⟩
  · rw [hv] at h
    cases h
    exact ⟨hval, hent⟩
  · rw [hv] at h
    cases h

theorem decode_of_validate {t : Snapshot} {generation : UInt64} {entries : List InspectedEntry}
    (hvalid : validateSnapshot t = .ok generation)
    (hentries : slotEntries t = .ok (entries.map toEntry)) (slot : Fin 2) :
    decodeFilesystemSlot slot t.val = .ok ⟨slot, generation, entries⟩ := by
  rcases decodeFilesystemSlot_agrees t slot with ⟨v, hv, hslot, hval, hent⟩ | ⟨-, _, hval⟩
  · rw [hvalid] at hval
    rw [hentries] at hent
    have hsame : entries = v.entries :=
      map_injective_iff.mpr toEntry_injective (Except.ok.inj hent)
    rw [hv, ← hslot, Except.ok.inj hval, hsame]
  · rw [hvalid] at hval
    cases hval

/-- The kernel reads the table from the first sector. -/
theorem diskPartition_congr {bytes' : Bytes} (hlen : bytes'.length = bytes.length)
    (hroom : (0 + 1) * 512 ≤ bytes.length) (hhead : ∀ i < 512, bytes'[i]? = bytes[i]?) :
    diskPartition (imageDisk bytes') = diskPartition (imageDisk bytes) := by
  unfold diskPartition
  rw [imageDisk_val hroom, imageDisk_val (hroom.trans_eq hlen.symm)]
  congr 1
  apply ext_getElem?
  intro i
  simp only [getElem?_take, getElem?_drop]
  split
  · exact hhead _ (by omega)
  · rfl

/-- What `repaired` holds after a copy of the record `t` over the other slot of `source`. -/
structure Copied (bytes : Bytes) (start : Nat) (source : Fin 2) (t : Snapshot) (repaired : Bytes) :
    Prop where
  length : repaired.length = bytes.length
  outside : ∀ i, i < slotStart start (otherSlot source)
      ∨ slotStart start (otherSlot source) + slotBytes ≤ i → repaired[i]? = bytes[i]?
  target : slotSlice repaired start (otherSlot source) = t.val
  source : slotSlice repaired start source = slotSlice bytes start source

theorem repairedBytes_copied (hinside : (start + (1 + slotSectors * 2)) * 512 ≤ bytes.length)
    {source : Fin 2} (hslice : slotSlice bytes start source = s.val) (generation : UInt64) :
    Copied bytes start source (resealSnapshot s generation)
      (repairedBytes bytes start source generation) := by
  have hrepaired : repairedBytes bytes start source generation
      = overwrite bytes (slotStart start (otherSlot source))
        (resealSnapshot s generation).val := by
    unfold repairedBytes
    rw [hslice, resealSlot_val]
    rfl
  rw [hrepaired]
  generalize resealSnapshot s generation = t
  have htlen : t.val.length = slotBytes := t.length_val
  obtain ⟨hroom, hapart⟩ := slotStart_bounds hinside (otherSlot source)
  rw [otherSlot_otherSlot] at hapart
  rw [← htlen] at hroom
  refine ⟨length_overwrite hroom, fun i hi => getElem?_overwrite hroom (by rwa [htlen]), ?_, ?_⟩
  · have hself := slice_overwrite_self hroom
    rw [htlen] at hself
    exact hself
  · exact slice_overwrite_of_disjoint hroom (by rw [htlen]; exact hapart.symm)

/-- One valid slot with a generation below the maximum is copied to the other. -/
theorem repair_restored {report : ImageReport}
    (hpart : validGenosPartition bytes = .ok (start, sectors))
    (hreport : inspectFilesystemBytes bytes = .ok report) (hone : report.validSlots = [source])
    (hgen : source.generation.toNat + 1 < 2 ^ 64) :
    ∃ repaired, repairFilesystemImage bytes = .ok (.repaired source.slot (otherSlot source.slot)
        (source.generation + 1), some repaired) ∧ Restored bytes start source repaired := by
  obtain ⟨hpos, hinside⟩ := validGenosPartition_bounds hpart
  obtain ⟨hdecoded, -⟩ := decoded_of_single hpart hreport hone
  have hnext : (source.generation + 1).toNat = source.generation.toNat + 1 := by
    rw [UInt64.toNat_add]
    exact Nat.mod_eq_of_lt hgen
  have hnewer : source.generation < source.generation + 1 := by
    rw [UInt64.lt_iff_toNat_lt, hnext]
    omega
  -- The source slot as the kernel reads it, and the new record.
  have hslice := slotSlice_snapshot hinside source.slot ⟨start, sectors, false⟩ rfl
  generalize diskSlot (imageDisk bytes) ⟨start, sectors, false⟩ source.slot = s at hslice
  obtain ⟨hvalid, hentries⟩ := validate_of_decode (hslice ▸ hdecoded)
  obtain ⟨hnew, hkept, happly⟩ := reseal_valid hvalid (source.generation + 1)
  have hcopied := repairedBytes_copied hinside hslice (source.generation + 1)
  generalize resealSnapshot s (source.generation + 1) = t at hnew hkept happly hcopied
  generalize hnamed : repairedBytes bytes start source.slot (source.generation + 1) = repaired
    at hcopied
  have hhead : ∀ i < 512, repaired[i]? = bytes[i]? := by
    intro i hi
    have hfront : 512 ≤ slotStart start (otherSlot source.slot) := by
      unfold slotStart
      omega
    exact hcopied.outside i (.inl (by omega))
  have hpart' : validGenosPartition repaired = validGenosPartition bytes :=
    validGenosPartition_congr hcopied.length hhead
  -- Both slots of the new image decode.
  obtain ⟨report', hreport', hboth, hinvalid, hselected⟩ :=
    report_of_both (hpart'.trans hpart) (by rw [hcopied.source]; exact hdecoded)
      (by rw [hcopied.target]; exact decode_of_validate hnew (hkept.trans hentries) _) hnewer
  refine ⟨repaired, ?_, hcopied.length, hcopied.outside,
    ⟨⟨otherSlot source.slot, source.generation + 1, source.entries⟩, report', hreport', rfl, hnext,
      rfl, hboth, hinvalid, hselected⟩, ⟨hpart', diskPartition_congr hcopied.length
      (Nat.le_trans (Nat.mul_le_mul_right 512 (Nat.le_add_right_of_le hpos)) hinside) hhead⟩,
    fun partition hstart => ?_⟩
  · unfold repairFilesystemImage verifyRepair
    rw [hpart, hreport]
    dsimp only
    rw [hone]
    dsimp only
    rw [if_pos hgen, hnamed, hreport']
    dsimp only
    rw [if_neg]
    rw [hboth.length_eq, hinvalid]
    exact fun h => h.elim (fun h => h rfl) (fun h => h rfl)
  · subst hstart
    have hinside' := hinside.trans_eq hcopied.length.symm
    have hagrees := (report_agrees hinside).selected
    have hagrees' := (report_agrees hinside').selected
    rw [inspectFilesystemBytes_of_partition bytes hpart] at hreport
    rw [inspectFilesystemBytes_of_partition repaired (hpart'.trans hpart)] at hreport'
    rw [Except.ok.inj hreport, selectedSlot, hone] at hagrees
    rw [Except.ok.inj hreport', hselected] at hagrees'
    refine ⟨hagrees.symm, hagrees'.symm, fun base => ?_⟩
    have hs : diskSlot (imageDisk bytes) partition source.slot = s :=
      FixedBytes.ext ((slotSlice_snapshot hinside _ partition rfl).symm.trans hslice)
    have ht : diskSlot (imageDisk repaired) partition (otherSlot source.slot) = t :=
      FixedBytes.ext ((slotSlice_snapshot hinside' _ partition rfl).symm.trans hcopied.target)
    rw [ht, hs]
    exact happly base

/-- **Repair restores redundancy.** With one valid slot the published image has
two, and nothing outside the other slot changes; with none or two valid slots
nothing is published. -/
theorem repair_restores_redundancy (bytes : Bytes) :
    (∀ start sectors report source, validGenosPartition bytes = .ok (start, sectors) →
      inspectFilesystemBytes bytes = .ok report → report.validSlots = [source] →
      source.generation.toNat + 1 < 2 ^ 64 →
      ∃ repaired, repairFilesystemImage bytes = .ok (.repaired source.slot (otherSlot source.slot)
          (source.generation + 1), some repaired) ∧ Restored bytes start source repaired)
    ∧ ∀ report, inspectFilesystemBytes bytes = .ok report → report.validSlots.length ≠ 1 →
      ∀ outcome published, repairFilesystemImage bytes = .ok (outcome, published) →
        published = none := by
  refine ⟨fun start sectors report source => repair_restored, ?_⟩
  intro report hreport hslots outcome published hrun
  unfold repairFilesystemImage at hrun
  split at hrun
  · cases hrun
  rw [hreport] at hrun
  dsimp only at hrun
  split at hrun
  · cases hrun
    rfl
  · rename_i source hsource
    rw [hsource] at hslots
    exact absurd rfl hslots
  · cases hrun

end Image

end GenOS.Xtask
