/-
  GenOS.Memory.FirmwareMap — the firmware memory map, exactly.

  `decode_uefi_map` reads four fields of every descriptor, whatever the stride is,
  and the map it builds is the list of these descriptors (`decode_uefi_map_exact`).
  `require_retained` walks over the regions in any order and decides the coverage
  of a range exactly (`require_retained_exact`).
-/
import GenOS.Memory.BootReservation
import GenOS.Lib.Bytes

namespace GenOS.Memory

open GenOS.Lib List

/-! ## §1. Descriptors. -/

/-- The fields of a version-1 descriptor that are read. -/
structure UefiDescriptor where
  kind : Nat
  start : Nat
  pages : Nat
  attributes : Nat
  deriving DecidableEq, Repr

namespace UefiDescriptor

/-- The fields of a descriptor; the bytes between and behind them are not read. -/
def read (desc : Bytes) : UefiDescriptor where
  kind := leNat (desc.take 4)
  start := leNat ((desc.drop 8).take 8)
  pages := leNat ((desc.drop 24).take 8)
  attributes := leNat ((desc.drop 32).take 8)

variable (d : UefiDescriptor)

/-- `attributes & EFI_MEMORY_RUNTIME != 0`. -/
def runtime : Bool := d.attributes.testBit 63

def regionKind : MemoryRegionKind :=
  if d.runtime then .reserved
  else
    match d.kind with
    | 7 => .usable
    | 1 | 2 => .bootloader
    | 9 | 10 => .acpi
    | 11 | 12 | 13 => .mmio
    | _ => .reserved

/-- The region of a descriptor, unless its size overflows. -/
def region : Except BootMemoryError MemoryRegion :=
  if 2 ^ 64 ≤ d.pages * pageSize then .error .range
  else .ok ⟨UInt64.ofNat d.start, UInt64.ofNat (d.pages * pageSize), d.regionKind⟩

/-- The byte belongs to the pages of the descriptor. -/
def Covers (b : Nat) : Prop :=
  d.start ≤ b ∧ b < d.start + d.pages * pageSize

end UefiDescriptor

variable (bytes : Bytes)

/-- `bytes.chunks_exact(stride)`, as descriptors. -/
def uefiDescriptors (stride : Nat) : List UefiDescriptor :=
  (List.range (bytes.length / stride)).map fun index =>
    UefiDescriptor.read ((bytes.drop (index * stride)).take stride)

/-- The loop of `decode_uefi_map`. -/
def decodeRegions : List UefiDescriptor → Except BootMemoryError (List MemoryRegion)
  | [] => .ok []
  | d :: rest => do
    let region ← d.region
    let regions ← decodeRegions rest
    .ok (region :: regions)

/-- A map with the given regions in front of empty ones. -/
def MemoryMapInfo.ofRegions (regions : List MemoryRegion) : MemoryMapInfo where
  regionCount := UInt64.ofNat regions.length
  regions :=
    (regions ++ List.replicate maxMemoryRegions (⟨0, 0, .reserved⟩ : MemoryRegion)).take
      maxMemoryRegions
  full := by simp

/-- `decode_uefi_map`. -/
def decodeUefiMap (stride : Nat) (version : UInt32) : Except BootMemoryError MemoryMapInfo :=
  if version ≠ 1 then .error .descriptorVersion
  else if stride < 40 then .error .descriptorStride
  else if bytes.length % stride ≠ 0 then .error .descriptorLength
  else if bytes.length / stride = 0 then .error .empty
  else if maxMemoryRegions < bytes.length / stride then .error .capacity
  else do
    let regions ← decodeRegions (uefiDescriptors bytes stride)
    let _ ← validateMap (.ofRegions regions)
    .ok (.ofRegions regions)

/-! ## §2. The regions of the descriptors. -/

theorem leNat_lt_pow : leNat bytes < 256 ^ bytes.length := by
  induction bytes with
  | nil => exact Nat.one_pos
  | cons b bytes ih =>
    have hb : b.toNat < 256 := b.toNat_lt
    show b.toNat + 256 * leNat bytes < 256 ^ (bytes.length + 1)
    rw [pow_succ]
    omega

/-- A field of eight bytes is a machine word. -/
theorem leNat_word (n : Nat) : leNat ((bytes.drop n).take 8) < 2 ^ 64 := by
  have hlen : ((bytes.drop n).take 8).length ≤ 8 := length_take_le 8 _
  calc leNat ((bytes.drop n).take 8) < 256 ^ ((bytes.drop n).take 8).length := leNat_lt_pow _
    _ ≤ 256 ^ 8 := Nat.pow_le_pow_right (by decide) hlen
    _ = 2 ^ 64 := by decide

/-- The region has the range and the kind of the descriptor. -/
structure UefiDescriptor.Describes (d : UefiDescriptor) (r : MemoryRegion) : Prop where
  start : r.start.toNat = d.start
  size : r.size.toNat = d.pages * pageSize
  kind : r.kind = d.regionKind

theorem decodeRegions_describes {descriptors : List UefiDescriptor}
    (hword : ∀ d ∈ descriptors, d.start < 2 ^ 64) :
    ∀ regions, decodeRegions descriptors = .ok regions →
      List.Forall₂ UefiDescriptor.Describes descriptors regions := by
  induction descriptors with
  | nil =>
    intro regions h
    cases h
    exact .nil
  | cons d rest ih =>
    intro regions h
    obtain ⟨region, hregion, h⟩ := except_bind_eq_ok.mp h
    obtain ⟨others, hothers, h⟩ := except_bind_eq_ok.mp h
    cases h
    refine .cons ?_ (ih (fun d' hd' => hword d' (mem_cons_of_mem _ hd')) others hothers)
    unfold UefiDescriptor.region at hregion
    split at hregion
    · cases hregion
    rename_i hsize
    cases hregion
    refine ⟨?_, ?_, rfl⟩
    · exact UInt64.toNat_ofNat_of_lt' (hword d mem_cons_self)
    · exact UInt64.toNat_ofNat_of_lt' (Nat.lt_of_not_le hsize)

theorem entries_ofRegions {regions : List MemoryRegion}
    (h : regions.length ≤ maxMemoryRegions) :
    (MemoryMapInfo.ofRegions regions).entries = regions := by
  have hcount : (UInt64.ofNat regions.length).toNat = regions.length :=
    UInt64.toNat_ofNat_of_lt' (Nat.lt_of_le_of_lt h (by decide))
  show ((regions ++ _).take maxMemoryRegions).take (UInt64.ofNat regions.length).toNat = regions
  rw [hcount, take_take, Nat.min_eq_left h, take_left]

theorem regionKind_usable_iff (d : UefiDescriptor) :
    d.regionKind = .usable ↔ d.kind = 7 ∧ d.runtime = false := by
  unfold UefiDescriptor.regionKind
  split
  · rename_i hruntime
    simp [hruntime]
  · rename_i hruntime
    split <;> simp_all

/-! ## §3. The decoded map. -/

/-- The map is the list of the descriptors: one region for each, page-aligned,
non-empty, below the end of the address space and disjoint from the others; a byte
is usable exactly if a descriptor of conventional memory that is not kept for the
runtime covers it. -/
structure ExactMap (descriptors : List UefiDescriptor) (map : MemoryMapInfo) : Prop where
  regions : List.Forall₂ UefiDescriptor.Describes descriptors map.entries
  ok : ∀ r ∈ map.entries, r.Ok
  disjoint : map.entries.Pairwise MemoryRegion.Disjoint
  usable : ∀ b, (∃ r ∈ map.entries, r.kind = .usable ∧ r.Contains b)
    ↔ ∃ d ∈ descriptors, d.kind = 7 ∧ d.runtime = false ∧ d.Covers b

theorem UefiDescriptor.Describes.usable_iff {d : UefiDescriptor} {r : MemoryRegion}
    (h : d.Describes r) (b : Nat) :
    r.kind = .usable ∧ r.Contains b ↔ d.kind = 7 ∧ d.runtime = false ∧ d.Covers b := by
  have hcontains : r.Contains b ↔ d.Covers b := by
    unfold MemoryRegion.Contains MemoryRegion.stop UefiDescriptor.Covers
    rw [h.start, h.size]
  rw [h.kind, regionKind_usable_iff, hcontains, and_assoc]

theorem usable_of_describes {descriptors : List UefiDescriptor} {regions : List MemoryRegion}
    (h : List.Forall₂ UefiDescriptor.Describes descriptors regions) (b : Nat) :
    (∃ r ∈ regions, r.kind = .usable ∧ r.Contains b)
      ↔ ∃ d ∈ descriptors, d.kind = 7 ∧ d.runtime = false ∧ d.Covers b := by
  induction h with
  | nil => simp
  | cons hd _ ih =>
    rw [exists_mem_cons_iff, exists_mem_cons_iff, ih, hd.usable_iff b]

/-- What an accepted buffer has passed. -/
theorem decodeUefiMap_ok {bytes : Bytes} {stride : Nat} {version : UInt32} {map : MemoryMapInfo}
    (h : decodeUefiMap bytes stride version = .ok map) :
    bytes.length / stride ≤ maxMemoryRegions
    ∧ ∃ regions checked, decodeRegions (uefiDescriptors bytes stride) = .ok regions
      ∧ validateMap (.ofRegions regions) = .ok checked ∧ map = .ofRegions regions := by
  unfold decodeUefiMap at h
  split at h
  · cases h
  split at h
  · cases h
  split at h
  · cases h
  split at h
  · cases h
  split at h
  · cases h
  rename_i hcapacity
  obtain ⟨regions, hregions, h⟩ := except_bind_eq_ok.mp h
  obtain ⟨checked, hchecked, h⟩ := except_bind_eq_ok.mp h
  cases h
  exact ⟨Nat.le_of_not_lt hcapacity, regions, checked, hregions, hchecked, rfl⟩

/-- The checks before the loop leave only the descriptors. -/
theorem decodeUefiMap_of_descriptors {bytes bytes' : Bytes} {stride stride' : Nat}
    (hstride : 40 ≤ stride') (hlength : bytes'.length % stride' = 0) {version : UInt32}
    {map : MemoryMapInfo} (h : decodeUefiMap bytes stride version = .ok map)
    (hsame : uefiDescriptors bytes' stride' = uefiDescriptors bytes stride) :
    decodeUefiMap bytes' stride' version = .ok map := by
  have hcount : bytes'.length / stride' = bytes.length / stride := by
    have hlen := congrArg List.length hsame
    simpa [uefiDescriptors] using hlen
  unfold decodeUefiMap at h ⊢
  rw [hcount, hsame, if_neg (Nat.not_lt.mpr hstride), if_neg (not_not.mpr hlength)]
  split at h
  · cases h
  rename_i hversion
  rw [if_neg hversion]
  split at h
  · cases h
  split at h
  · cases h
  exact h

/-- **The firmware map is decoded exactly.**  An accepted map is the list of the
descriptors, and every other buffer with the same known fields gives the same
map. -/
theorem decode_uefi_map_exact {bytes : Bytes} {stride : Nat} {version : UInt32}
    {map : MemoryMapInfo} (h : decodeUefiMap bytes stride version = .ok map) :
    ExactMap (uefiDescriptors bytes stride) map
    ∧ map.regionCount.toNat = bytes.length / stride
    ∧ ∀ bytes' stride', 40 ≤ stride' → bytes'.length % stride' = 0 →
      uefiDescriptors bytes' stride' = uefiDescriptors bytes stride →
      decodeUefiMap bytes' stride' version = .ok map := by
  obtain ⟨hcount, regions, checked, hregions, hchecked, rfl⟩ := decodeUefiMap_ok h
  have hword : ∀ d ∈ uefiDescriptors bytes stride, d.start < 2 ^ 64 := by
    intro d hd
    obtain ⟨index, -, rfl⟩ := List.mem_map.mp hd
    exact leNat_word _ 8
  have hdescribes := decodeRegions_describes hword regions hregions
  have hlength : regions.length = bytes.length / stride := by
    rw [← hdescribes.length_eq]
    simp [uefiDescriptors]
  have hfits : regions.length ≤ maxMemoryRegions := hlength.trans_le hcount
  have hentries := entries_ofRegions hfits
  obtain ⟨hok, hdisjoint⟩ := (validateMap_ok hchecked).2
  refine ⟨⟨?_, hok, hdisjoint, ?_⟩, ?_, fun bytes' stride' hstride hwhole hsame =>
    decodeUefiMap_of_descriptors hstride hwhole h hsame⟩
  · rw [hentries]
    exact hdescribes
  · rw [hentries]
    exact usable_of_describes hdescribes
  · rw [← hlength]
    exact UInt64.toNat_ofNat_of_lt' (Nat.lt_of_le_of_lt hfits (by decide))

/-- A buffer with one descriptor of conventional memory, the page at `0x1000`, and
eight more bytes. -/
def sampleMap : Bytes :=
  leBytes 8 7 ++ leBytes 8 4096 ++ leBytes 8 0 ++ leBytes 8 1 ++ leBytes 8 0 ++ leBytes 8 0xa5

theorem decodeUefiMap_sampleMap :
    decodeUefiMap sampleMap 48 1 = .ok (.ofRegions [⟨4096, 4096, .usable⟩]) := by
  have hregions : decodeRegions (uefiDescriptors sampleMap 48) = .ok [⟨4096, 4096, .usable⟩] := by
    decide +kernel
  have hchecked : validateMap (.ofRegions [⟨4096, 4096, .usable⟩])
      = .ok [⟨4096, 4096, .usable⟩] := by
    decide +kernel
  unfold decodeUefiMap
  rw [if_neg (by decide), if_neg (by decide), if_neg (by decide), if_neg (by decide),
    if_neg (by decide)]
  exact except_bind_eq_ok.mpr ⟨_, hregions, except_bind_eq_ok.mpr ⟨_, hchecked, rfl⟩⟩

theorem decode_uefi_map_exact_page :
    uefiDescriptors sampleMap 48 = [⟨7, 4096, 1, 0⟩]
      ∧ ExactMap [⟨7, 4096, 1, 0⟩] (.ofRegions [⟨4096, 4096, .usable⟩]) :=
  have hdescriptors : uefiDescriptors sampleMap 48 = [⟨7, 4096, 1, 0⟩] := by decide +kernel
  ⟨hdescriptors, hdescriptors ▸ (decode_uefi_map_exact decodeUefiMap_sampleMap).1⟩

/-! ## §4. Retained ranges. -/

/-- **Coverage by retained memory is decided exactly.**  For every list of regions
that do not overflow, in any order and also if they touch or overlap: a range is
accepted exactly if it is not empty, does not overflow and each of its bytes lies in
a region of a retained kind. -/
theorem require_retained_exact (regions : List MemoryRegion)
    (hends : ∀ r ∈ regions, r.stop < 2 ^ 64) (start size : UInt64) :
    requireRetained regions start.toNat size.toNat = .ok ()
      ↔ size ≠ 0 ∧ start.toNat + size.toNat < 2 ^ 64
        ∧ ∀ b, start.toNat ≤ b → b < start.toNat + size.toNat →
          ∃ r ∈ regions, r.kind.retained = true ∧ r.Contains b := by
  have hsize : size.toNat ≠ 0 ↔ size ≠ 0 := by
    rw [ne_eq, ne_eq, ← UInt64.toNat_inj]
    rfl
  have hretains : ∀ b, (∃ r ∈ regions, r.retains b = true)
      ↔ ∃ r ∈ regions, r.kind.retained = true ∧ r.Contains b := by
    intro b
    refine exists_congr fun r => and_congr_right fun hr => ?_
    rw [retains_iff, and_iff_left (hends r hr)]
  rw [requireRetained_ok_iff, hsize]
  simp only [hretains]

/-- Two adjacent regions, out of order, cover a range across their border. -/
theorem require_retained_exact_adjacent :
    let regions : List MemoryRegion := [⟨0x2000, 0x1000, .kernel⟩, ⟨0x1000, 0x1000, .bootloader⟩]
    requireRetained regions (0x1800 : UInt64).toNat (0x1000 : UInt64).toNat = .ok ()
      ∧ ∀ b, (0x1800 : UInt64).toNat ≤ b → b < (0x1800 : UInt64).toNat + (0x1000 : UInt64).toNat →
        ∃ r ∈ regions, r.kind.retained = true ∧ r.Contains b :=
  have hends : ∀ r ∈ ([⟨0x2000, 0x1000, .kernel⟩, ⟨0x1000, 0x1000, .bootloader⟩] :
      List MemoryRegion), r.stop < 2 ^ 64 := by decide
  have hcovered : ∀ b, (0x1800 : UInt64).toNat ≤ b →
      b < (0x1800 : UInt64).toNat + (0x1000 : UInt64).toNat →
      ∃ r ∈ ([⟨0x2000, 0x1000, .kernel⟩, ⟨0x1000, 0x1000, .bootloader⟩] : List MemoryRegion),
        r.kind.retained = true ∧ r.Contains b := by
    intro b hlow hhigh
    by_cases hborder : b < 0x2000
    · exact ⟨_, List.mem_cons_of_mem _ List.mem_cons_self, rfl, Nat.le_trans (by decide) hlow, hborder⟩
    · refine ⟨_, List.mem_cons_self, rfl, Nat.le_of_not_lt hborder, Nat.lt_of_lt_of_le hhigh ?_⟩
      decide
  ⟨(require_retained_exact _ hends 0x1800 0x1000).mpr ⟨by decide, by decide, hcovered⟩, hcovered⟩

end GenOS.Memory
