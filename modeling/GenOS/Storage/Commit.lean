/-
  GenOS.Storage.Commit — the three phases of a commit.

  A commit to the slot at `base` takes the durable content through

      D  →  header of the new record  →  all of it, uncommitted  →  committed

  with a flush in between.  In each phase the medium stays within the content
  at its start and the writes of that phase, whatever fails
  (`writeRecord_cases`), and the states recorded on the way are all of one of
  these three forms (`Underway`).
-/
import GenOS.Storage.Reading
import GenOS.Storage.RoundTrip

namespace GenOS.Storage

open GenOS.Lib GenOS.Vfs Function List PersistentFs

/-! ## §1. Content with a slot replaced. -/

variable (D : Nat → Sector) (base : Nat) (buffer : Snapshot)

/-- The content `D` with the forty sectors at `base` replaced by `buffer`. -/
def withSlot : Nat → Sector := fun l =>
  if h : base ≤ l ∧ l - base < slotSectors then sectorOf buffer ⟨l - base, h.2⟩ else D l

section WithSlot

variable (D : Nat → Sector) (base : Nat) (buffer : Snapshot)

theorem withSlot_inside (i : Fin slotSectors) :
    withSlot D base buffer (base + i) = sectorOf buffer i := by
  have h : base ≤ base + i ∧ base + i - base < slotSectors := by
    have := i.isLt
    omega
  rw [withSlot, dif_pos h]
  congr 1
  apply Fin.ext
  show base + i - base = i
  omega

theorem withSlot_outside {l : Nat} (h : ∀ i : Fin slotSectors, l ≠ base + i) :
    withSlot D base buffer l = D l := by
  rw [withSlot, dif_neg]
  rintro ⟨h1, h2⟩
  exact h ⟨l - base, h2⟩ (by show l = base + (l - base); omega)

end WithSlot

/-- The write of sector `i` of a buffer. -/
def sectorWrite (i : Fin slotSectors) : Nat × Sector :=
  (base + i, sectorOf buffer i)

theorem mem_payloadIndices (i : Fin slotSectors) : i ∈ payloadIndices ↔ i ≠ 0 := by
  revert i
  decide +kernel

/-- The header and then the payload make the whole slot. -/
theorem payload_withSlot :
    applyWrites (update D base (sectorOf buffer 0))
      (payloadIndices.map (sectorWrite base buffer)) = withSlot D base buffer := by
  funext l
  by_cases hl : ∃ i : Fin slotSectors, l = base + i
  · obtain ⟨i, rfl⟩ := hl
    rw [withSlot_inside]
    by_cases hi : i = 0
    · subst hi
      rw [applyWrites_of_notMem]
      · show update D base (sectorOf buffer 0) base = _
        rw [update_self]
      · intro w hw
        obtain ⟨j, hj, rfl⟩ := mem_map.mp hw
        have hj0 := (mem_payloadIndices j).mp hj
        have : (j : Nat) ≠ 0 := fun h => hj0 (Fin.ext h)
        show base + (j : Nat) ≠ base + 0
        omega
    · apply applyWrites_of_mem
      · exact ⟨_, mem_map_of_mem ((mem_payloadIndices i).mpr hi), rfl⟩
      intro w hw hwl
      obtain ⟨j, -, rfl⟩ := mem_map.mp hw
      have hji : (j : Nat) = i := by
        have : base + (j : Nat) = base + i := hwl
        omega
      rw [show j = i from Fin.ext hji]
      rfl
  · rw [withSlot_outside D base buffer (fun i hi => hl ⟨i, hi⟩), applyWrites_of_notMem]
    · rw [update_of_ne]
      intro h
      exact hl ⟨0, by rw [h]; rfl⟩
    · intro w hw
      obtain ⟨j, -, rfl⟩ := mem_map.mp hw
      exact fun h => hl ⟨j, h.symm⟩

/-! ## §2. Sealing touches the first sector only. -/

theorem sectorOf_patch (s : Snapshot) {off : Nat} {data : Bytes}
    (h : off + data.length ≤ sectorBytes) {i : Fin slotSectors} (hi : i ≠ 0) :
    sectorOf (s.patch off data) i = sectorOf s i := by
  have hpos : sectorBytes ≤ i * sectorBytes := by
    have : 1 ≤ (i : Nat) := by
      have : (i : Nat) ≠ 0 := fun h => hi (Fin.ext h)
      omega
    exact Nat.le_mul_of_pos_left _ this
  apply FixedBytes.ext
  exact FixedBytes.slice_patch_of_disjoint (.inr (Nat.le_trans h hpos))

theorem sectorOf_seal (s : Snapshot) {i : Fin slotSectors} (hi : i ≠ 0) :
    sectorOf (sealSnapshot s) i = sectorOf s i := by
  rw [sealSnapshot, sectorOf_patch _ (by simp [recordChecksumOffset, sectorBytes]) hi,
    sectorOf_patch _ (by simp [recordChecksumOffset, sectorBytes]) hi,
    sectorOf_patch _ (by simp [sectorBytes]) hi]

/-- Replacing the header of the uncommitted record commits the slot. -/
theorem header_withSlot :
    update (withSlot D base buffer) base (sectorOf (sealSnapshot buffer) 0)
      = withSlot D base (sealSnapshot buffer) := by
  funext l
  by_cases hl : ∃ i : Fin slotSectors, l = base + i
  · obtain ⟨i, rfl⟩ := hl
    by_cases hi : i = 0
    · subst hi
      rw [withSlot_inside]
      exact update_self _ _ _
    · have hne : base + (i : Nat) ≠ base := by
        have : (i : Nat) ≠ 0 := fun h => hi (Fin.ext h)
        omega
      rw [update_of_ne hne, withSlot_inside, withSlot_inside, sectorOf_seal _ hi]
  · have hout : ∀ i : Fin slotSectors, l ≠ base + i := fun i hi => hl ⟨i, hi⟩
    have hne : l ≠ base := fun h => hout 0 (by rw [h]; rfl)
    rw [update_of_ne hne, withSlot_outside _ _ _ hout, withSlot_outside _ _ _ hout]

/-! ## §3. The phases. -/

/-- The uncommitted header on its way over the old slot. -/
def headerWrites : Nat → Sector → Prop := fun l x =>
  l = base ∧ x = sectorOf buffer 0

/-- The payload on its way behind the uncommitted header. -/
def payloadWrites : Nat → Sector → Prop := fun l x =>
  ∃ i : Fin slotSectors, i ≠ 0 ∧ l = base + i ∧ x = sectorOf buffer i

/-- The states of the medium while a commit is under way. -/
inductive Underway (D : Nat → Sector) (base : Nat) (buffer : Snapshot) (m : Media Sector) : Prop
  | invalidating (h : Within D (headerWrites base buffer) m)
  | storing (h : Within (Function.update D base (sectorOf buffer 0)) (payloadWrites base buffer) m)
  | publishing (h : Within (withSlot D base buffer) (headerWrites base (sealSnapshot buffer)) m)

/-- Everything is durable and the recorded states satisfy `H`. -/
structure Settled (f : Nat → Sector) (H : Media Sector → Prop) (s : BlockCache × Disk) : Prop where
  refines : Refines f s
  clean : CleanAt (List.range cacheEntries) s
  durable : s.2.media.durable = f
  pending : s.2.media.pending = []
  history : ∀ m ∈ s.2.history, H m

variable {f : Nat → Sector} {H : Media Sector → Prop}

theorem Settled.synced {s : BlockCache × Disk} (h : Settled f H s) (W : Nat → Sector → Prop) : Synced f f W H s := by
  refine ⟨h.refines, ⟨.of_clean h.durable h.pending, h.history⟩, ?_⟩
  intro i hv hd
  have := h.clean i (mem_range.mpr (s.1.lt_of_valid hv)) hv
  rw [this] at hd
  cases hd

/-- The recorded states are not part of what is settled. -/
theorem Settled.forget {H' : Media Sector → Prop} {c : BlockCache} {d d' : Disk}
    (h : Settled f H (c, d)) (hm : d'.media = d.media) (hh : ∀ m ∈ d'.history, H' m) : Settled f H' (c, d') where
  refines := ⟨h.refines.distinct, h.refines.cached, by
    show ∀ l, _ → d'.media.visible l = f l
    rw [hm]
    exact h.refines.stored⟩
  clean := h.clean
  durable := by rw [hm]; exact h.durable
  pending := by rw [hm]; exact h.pending
  history := hh

theorem Reading.settled {o : Oracle} {s : BlockCache × Disk} (h : Reading f o s)
    (hh : ∀ m ∈ s.2.history, H m) :
    Settled f H s := by
  refine ⟨h.synced.1, ?_, h.durable, h.pending, hh⟩
  intro i _ hv
  rw [Bool.eq_false_iff]
  intro hd
  exact h.synced.2.dirty i hv hd

section Phases

variable {D : Nat → Sector} {base : Nat} {buffer : Snapshot}

/-- After a flush, the next phase starts from what is durable now. -/
theorem flush_settled {D' : Nat → Sector} {W : Nat → Sector → Prop}
    (hH : ∀ m, Within D' W m → H m) :
    Fallible.Triple (Synced f D' W H) (BlockCache.flush : CacheM Disk Unit)
      (fun _ => Settled f H) (Cut D' W H) :=
  (flush_triple hH).conseq (fun _ hs => hs) (fun _ _ ⟨h1, h2, h3, h4, h5⟩ => ⟨h1, h2, h3, h4, h5⟩)
    (fun _ hs => hs)

/-- The medium of a commit that failed before publishing. -/
def NotPublished (D : Nat → Sector) (base : Nat) (buffer : Snapshot) (m : Media Sector) : Prop :=
  Within D (headerWrites base buffer) m
    ∨ Within (Function.update D base (sectorOf buffer 0)) (payloadWrites base buffer) m

variable (hH : ∀ m, Underway D base buffer m → H m)

include hH

theorem prepareSlot_triple :
    Fallible.Triple (Settled D H) (prepareSlot base buffer : CacheM Disk Unit)
      (fun _ => Settled (withSlot D base buffer) H)
      (fun s => NotPublished D base buffer s.2.media ∧ ∀ m ∈ s.2.history, H m) := by
  have hH₁ : ∀ m, Within D (headerWrites base buffer) m → H m :=
    fun m h => hH m (.invalidating h)
  have hH₂ : ∀ m, Within (update D base (sectorOf buffer 0)) (payloadWrites base buffer) m →
      H m := fun m h => hH m (.storing h)
  unfold prepareSlot
  -- the uncommitted header
  refine Fallible.Triple.bind ((write_triple hH₁ ⟨rfl, rfl⟩).conseq (fun s hs => hs.synced _)
    (fun _ _ hs => hs) (fun _ h => ⟨.inl h.within, h.history⟩)) (fun _ => ?_)
  refine Fallible.Triple.bind ((flush_settled hH₁).conseq (fun _ hs => hs) (fun _ _ hs => hs)
    (fun _ h => ⟨.inl h.within, h.history⟩)) (fun _ => ?_)
  -- the payload, sector by sector
  refine Fallible.Triple.bind (Q := fun _ => Synced (withSlot D base buffer)
      (update D base (sectorOf buffer 0)) (payloadWrites base buffer) H) ?_ (fun _ => ?_)
  · have hloop := Fallible.Triple.forEach (E := StorageError) (l := payloadIndices)
      (R := fun s => NotPublished D base buffer s.2.media ∧ ∀ m ∈ s.2.history, H m)
      (f := fun i : Fin slotSectors =>
        (BlockCache.write (base + i) (sectorOf buffer i) : CacheM Disk Unit))
      (I := fun done => Synced (applyWrites (update D base (sectorOf buffer 0))
          (done.map (sectorWrite base buffer)))
        (update D base (sectorOf buffer 0)) (payloadWrites base buffer) H) ?_
    · rw [payload_withSlot] at hloop
      exact hloop.conseq (fun s hs => hs.synced _) (fun _ _ hs => hs) (fun _ hs => hs)
    · intro done i rest hsplit
      have hi : i ≠ 0 := (mem_payloadIndices i).mp (by rw [hsplit]; simp)
      refine (write_triple hH₂ ⟨i, hi, rfl, rfl⟩).conseq (fun _ hs => hs) (fun _ s hs => ?_)
        (fun _ h => ⟨.inr h.within, h.history⟩)
      rw [map_append, map_cons, map_nil]
      have := applyWrites_append (update D base (sectorOf buffer 0))
        (done.map (sectorWrite base buffer)) (base + i) (sectorOf buffer i)
      rw [sectorWrite, this]
      exact hs
  · exact (flush_settled hH₂).conseq (fun _ hs => hs) (fun _ _ hs => hs)
      (fun _ h => ⟨.inr h.within, h.history⟩)

theorem publishHeader_triple :
    Fallible.Triple (Settled (withSlot D base buffer) H)
      (publishHeader base (sealSnapshot buffer) : CacheM Disk Unit)
      (fun _ => Settled (withSlot D base (sealSnapshot buffer)) H)
      (fun s => Within (withSlot D base buffer) (headerWrites base (sealSnapshot buffer)) s.2.media
        ∧ ∀ m ∈ s.2.history, H m) := by
  have hH₃ : ∀ m, Within (withSlot D base buffer) (headerWrites base (sealSnapshot buffer)) m →
      H m := fun m h => hH m (.publishing h)
  unfold publishHeader
  refine Fallible.Triple.bind ((write_triple hH₃ ⟨rfl, rfl⟩).conseq (fun s hs => hs.synced _)
    (fun _ _ hs => hs) (fun _ h => ⟨h.within, h.history⟩)) (fun _ => ?_)
  rw [header_withSlot]
  exact (flush_settled hH₃).conseq (fun _ hs => hs) (fun _ _ hs => hs)
    (fun _ h => ⟨h.within, h.history⟩)

/-- **How the device part of a commit can end.**  Before publishing it fails
within the first two phases; afterwards the record is published or the outcome
is unknown.  All states in between are recorded as under way. -/
theorem writeRecord_cases (fs : PersistentFs) (target : Fin 2) (generation : UInt64) {d : Disk}
    (h : Settled D H (fs.cache, d)) :
    ∃ c d', (∀ m ∈ d'.history, H m) ∧
      (fs.writeRecord target generation base buffer d
          = (fs.quarantined c .notPublished, d', .failed .notPublished)
        ∧ NotPublished D base buffer d'.media
      ∨ fs.writeRecord target generation base buffer d
          = (fs.quarantined c .unknown, d', .failed .unknown)
        ∧ Within (withSlot D base buffer) (headerWrites base (sealSnapshot buffer)) d'.media
      ∨ fs.writeRecord target generation base buffer d
          = ({ fs with cache := c, activeSlot := some target, generation := generation }, d',
            .committed)
        ∧ Settled (withSlot D base (sealSnapshot buffer)) H (c, d')) := by
  rcases hprep : (prepareSlot base buffer : CacheM Disk Unit) (fs.cache, d) with ⟨⟨c, d'⟩, e | u⟩
  · obtain ⟨hnot, hh⟩ := (prepareSlot_triple hH).error h hprep
    refine ⟨c, d', hh, .inl ⟨?_, hnot⟩⟩
    simp only [writeRecord, hprep]
  · have hsettled := (prepareSlot_triple hH).ok h hprep
    rcases hpub : (publishHeader base (sealSnapshot buffer) : CacheM Disk Unit) (c, d')
      with ⟨⟨c', d''⟩, e | u⟩
    · obtain ⟨hw, hh⟩ := (publishHeader_triple hH).error hsettled hpub
      refine ⟨c', d'', hh, .inr (.inl ⟨?_, hw⟩)⟩
      simp only [writeRecord, hprep, hpub]
    · have hdone := (publishHeader_triple hH).ok hsettled hpub
      refine ⟨c', d'', hdone.history, .inr (.inr ⟨?_, hdone⟩)⟩
      simp only [writeRecord, hprep, hpub]

end Phases

end GenOS.Storage
