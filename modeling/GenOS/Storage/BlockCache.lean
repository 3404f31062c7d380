/-
  GenOS.Storage.BlockCache — the eight-entry write-back cache of `storage.rs`.

  `BlockIo` is the device trait.  Cache methods act on the pair of the cache
  and the device and may stop with a `StorageError`, keeping every change made
  so far.  The statistics counters are only printed and are left out.
-/
import GenOS.Storage.Format
import GenOS.Lib.Fallible

namespace GenOS.Storage

open GenOS.Lib List

/-- `BlockIo`.  The output buffer of a failed read is discarded by its only
caller, so a read returns its sector. -/
class BlockIo (σ : Type) where
  read : σ → Nat → σ × Except StorageError Sector
  write : σ → Nat → Sector → σ × Except StorageError Unit
  flush : σ → σ × Except StorageError Unit

/-- `CACHE_ENTRIES`. -/
def cacheEntries : Nat := 8

structure CacheEntry where
  lba : Nat
  data : Sector
  age : Nat
  valid : Bool
  dirty : Bool

/-- `CacheEntry::empty`. -/
def CacheEntry.empty : CacheEntry := ⟨0, FixedBytes.zero, 0, false, false⟩

structure BlockCache where
  entries : List CacheEntry
  size : entries.length = cacheEntries
  clock : Nat

namespace BlockCache

/-- `BlockCache::new`. -/
def new : BlockCache := ⟨List.replicate cacheEntries .empty, List.length_replicate, 0⟩

variable (c : BlockCache)

/-- `discard`. -/
def discard : BlockCache :=
  ⟨List.replicate cacheEntries .empty, List.length_replicate, c.clock⟩

/-- `self.entries[index]`; outside the array it is an empty entry. -/
def entry (index : Nat) : CacheEntry := c.entries.getD index .empty

/-- `self.entries[index] = entry`. -/
def setEntry (index : Nat) (e : CacheEntry) : BlockCache :=
  ⟨c.entries.set index e, by rw [List.length_set]; exact c.size, c.clock⟩

/-- `self.clock = self.clock.saturating_add(1)`. -/
def tick : BlockCache := { c with clock := min (2 ^ 64 - 1) (c.clock + 1) }

/-- The position of the valid entry for `lba`. -/
def position (lba : Nat) : Option Nat :=
  c.entries.findIdx? (fun e => e.valid && e.lba == lba)

def ages : List Nat := c.entries.map CacheEntry.age

/-- `replacement_index`: the first invalid entry, else the first oldest one. -/
def replacementIndex : Nat :=
  match c.entries.findIdx? (fun e => !e.valid) with
  | some index => index
  | none =>
    match c.ages.min? with
    | some oldest => c.ages.findIdx (fun age => age == oldest)
    | none => 0

end BlockCache

section Operations

variable {σ : Type} [BlockIo σ]

/-- A cache method on the cache and its device. -/
abbrev CacheM (σ α : Type) := Fallible (BlockCache × σ) StorageError α

namespace BlockCache

/-- `writeback`. -/
def writeback (index : Nat) : CacheM σ Unit := fun (c, io) =>
  let e := c.entry index
  if e.valid && e.dirty then
    match BlockIo.write io e.lba e.data with
    | (io', .error err) => ((c, io'), .error err)
    | (io', .ok ()) => ((c.setEntry index { e with dirty := false }, io'), .ok ())
  else ((c, io), .ok ())

/-- The miss path of `read`: load the sector into a free or evicted entry. -/
def load (lba index : Nat) : CacheM σ Sector := fun (c, io) =>
  match BlockIo.read io lba with
  | (io', .error err) => ((c, io'), .error err)
  | (io', .ok loaded) => ((c.setEntry index ⟨lba, loaded, c.clock, true, false⟩, io'), .ok loaded)

/-- `read`. -/
def read (lba : Nat) : CacheM σ Sector := fun (c₀, io) =>
  let c := c₀.tick
  match c.position lba with
  | some index =>
    let e := c.entry index
    ((c.setEntry index { e with age := c.clock }, io), .ok e.data)
  | none =>
    let index := c.replacementIndex
    (do writeback index; load lba index) (c, io)

/-- The store at the end of `write`. -/
def store (lba : Nat) (data : Sector) (index : Nat) : CacheM σ Unit := fun (c, io) =>
  ((c.setEntry index ⟨lba, data, c.clock, true, true⟩, io), .ok ())

/-- `write`. -/
def write (lba : Nat) (data : Sector) : CacheM σ Unit := fun (c₀, io) =>
  let c := c₀.tick
  match c.position lba with
  | some index => store lba data index (c, io)
  | none =>
    let index := c.replacementIndex
    (do writeback index; store lba data index) (c, io)

/-- `io.flush()`. -/
def flushDevice : CacheM σ Unit := fun (c, io) =>
  match BlockIo.flush io with
  | (io', r) => ((c, io'), r)

/-- `flush`. -/
def flush : CacheM σ Unit := do
  Fallible.forEach writeback (List.range cacheEntries)
  flushDevice

end BlockCache

end Operations

/-! ## Entries and positions. -/

namespace BlockCache

variable (c : BlockCache)

theorem entry_setEntry {index : Nat} (h : index < cacheEntries) (e : CacheEntry) (j : Nat) :
    (c.setEntry index e).entry j = if j = index then e else c.entry j := by
  have hsize := c.size
  simp only [entry, setEntry, getD_eq_getElem?_getD, getElem?_set]
  by_cases hj : index = j
  · rw [if_pos hj, if_pos (by omega), if_pos hj.symm]
    rfl
  · rw [if_neg hj, if_neg (fun h => hj h.symm)]

theorem entry_of_getElem? {j : Nat} {e : CacheEntry} (h : c.entries[j]? = some e) :
    c.entry j = e := by
  simp [entry, h]

/-- Every valid entry lies inside the array. -/
theorem lt_of_valid {j : Nat} (h : (c.entry j).valid = true) : j < cacheEntries := by
  by_contra hj
  have : c.entries[j]? = none := by
    rw [getElem?_eq_none_iff, c.size]
    omega
  simp [entry, this, CacheEntry.empty] at h

theorem position_some {lba index : Nat} (h : c.position lba = some index) :
    index < cacheEntries ∧ (c.entry index).valid = true ∧ (c.entry index).lba = lba := by
  obtain ⟨hi, hp, -⟩ := findIdx?_eq_some_iff_getElem.mp h
  have he : c.entry index = c.entries[index] := c.entry_of_getElem? (getElem?_eq_getElem hi)
  rw [he]
  simp only [Bool.and_eq_true, beq_iff_eq] at hp
  exact ⟨by rw [← c.size]; exact hi, hp.1, hp.2⟩

theorem position_none {lba : Nat} (h : c.position lba = none) (j : Nat)
    (hv : (c.entry j).valid = true) : (c.entry j).lba ≠ lba := by
  have hj := c.lt_of_valid hv
  have hlt : j < c.entries.length := by rw [c.size]; exact hj
  have he : c.entry j = c.entries[j] := c.entry_of_getElem? (getElem?_eq_getElem hlt)
  have := findIdx?_eq_none_iff.mp h c.entries[j] (getElem_mem hlt)
  rw [← he] at this
  intro hl
  simp [hv, hl] at this

theorem replacementIndex_lt : c.replacementIndex < cacheEntries := by
  unfold replacementIndex
  split
  · rename_i index h
    obtain ⟨hi, -⟩ := findIdx?_eq_some_iff_getElem.mp h
    rw [← c.size]
    exact hi
  · split
    · rename_i oldest h
      have hmem := min?_mem h
      have : c.ages.findIdx (fun age => age == oldest) < c.ages.length :=
        findIdx_lt_length_of_exists ⟨oldest, hmem, by simp⟩
      rw [ages, length_map, c.size] at this
      exact this
    · decide

theorem entry_new (j : Nat) : (BlockCache.new).entry j = .empty := by
  simp only [entry, new, getD_eq_getElem?_getD, getElem?_replicate]
  split <;> rfl

end BlockCache

end GenOS.Storage
