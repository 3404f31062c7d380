/-
  GenOS.Storage.CacheRefinement — the write-back cache over the faulty disk
  behaves like a flat array of sectors.

  `Refines f (cache, disk)` says that the pair represents the array `f`: cached
  sectors agree with `f`, and a sector without a dirty copy is visible on the
  device.  Reads return `f`, writes update it, and after a successful flush
  `f` is what is durable.

  `Phase D W H` is the safety half, which also covers failures: every sector on
  its way to the device belongs to the write set `W` over the content `D`, and
  every recorded state of the medium satisfies `H`.
-/
import GenOS.Storage.Disk

namespace GenOS.Storage

open GenOS.Lib BlockCache List Function

/-- The cache and the disk together hold the sectors `f`. -/
structure Refines (f : Nat → Sector) (s : BlockCache × Disk) : Prop where
  distinct : ∀ i j, (s.1.entry i).valid = true → (s.1.entry j).valid = true →
    (s.1.entry i).lba = (s.1.entry j).lba → i = j
  cached : ∀ i, (s.1.entry i).valid = true → (s.1.entry i).data = f (s.1.entry i).lba
  stored : ∀ l, (∀ i, (s.1.entry i).valid = true → (s.1.entry i).dirty = true →
    (s.1.entry i).lba ≠ l) → s.2.media.visible l = f l

/-- What is known of the disk alone, even after a failure. -/
structure Cut (D : Nat → Sector) (W : Nat → Sector → Prop) (H : Media Sector → Prop)
    (s : BlockCache × Disk) : Prop where
  within : Within D W s.2.media
  history : ∀ m ∈ s.2.history, H m

/-- Only writes of `W` are on their way. -/
structure Phase (D : Nat → Sector) (W : Nat → Sector → Prop) (H : Media Sector → Prop)
    (s : BlockCache × Disk) : Prop extends Cut D W H s where
  dirty : ∀ i, (s.1.entry i).valid = true → (s.1.entry i).dirty = true →
    W (s.1.entry i).lba (s.1.entry i).data

/-- The entries in `K` hold nothing that still has to be written. -/
def CleanAt (K : List Nat) (s : BlockCache × Disk) : Prop :=
  ∀ i ∈ K, (s.1.entry i).valid = true → (s.1.entry i).dirty = false

variable {c : BlockCache} {d : Disk} {i lba : Nat} {data : Sector}

section Triples

variable {f : Nat → Sector} {D : Nat → Sector} {W : Nat → Sector → Prop}
  {H : Media Sector → Prop}

/-- Refinement and safety together. -/
def Synced (f : Nat → Sector) (D : Nat → Sector) (W : Nat → Sector → Prop)
    (H : Media Sector → Prop) (s : BlockCache × Disk) : Prop :=
  Refines f s ∧ Phase D W H s

/-! ## §1. One entry changes. -/

/-- An entry may be replaced if no other one holds its sector; the sectors it alone
stood for have to be on the device. -/
theorem Synced.setEntry {g : Nat → Sector} {e : CacheEntry} {d' : Disk} (hi : i < cacheEntries)
    (h : Synced f D W H (c, d)) (hcut : Cut D W H (c, d'))
    (hother : e.valid = true → ∀ j, j ≠ i → (c.entry j).valid = true → (c.entry j).lba ≠ e.lba)
    (hsame : ∀ j, j ≠ i → (c.entry j).valid = true → g (c.entry j).lba = f (c.entry j).lba)
    (hdata : e.valid = true → e.data = g e.lba)
    (hstored : ∀ l, (e.valid = true → e.dirty = true → e.lba ≠ l) →
      (∀ j, j ≠ i → (c.entry j).valid = true → (c.entry j).dirty = true → (c.entry j).lba ≠ l) →
      d'.media.visible l = g l)
    (hdirty : e.valid = true → e.dirty = true → W e.lba e.data) :
    Synced g D W H (c.setEntry i e, d') := by
  obtain ⟨hr, hp⟩ := h
  have hself : (c.setEntry i e).entry i = e := by rw [c.entry_setEntry hi, if_pos rfl]
  have hold : ∀ j, j ≠ i → (c.setEntry i e).entry j = c.entry j := by
    intro j hj
    rw [c.entry_setEntry hi, if_neg hj]
  refine ⟨⟨?_, ?_, ?_⟩, ⟨hcut.within, hcut.history⟩, ?_⟩
  · intro j k hj hk hl
    by_cases hji : j = i <;> by_cases hki : k = i
    · rw [hji, hki]
    · simp only [hji, hself, hold k hki] at hj hk hl
      exact absurd hl.symm (hother hj k hki hk)
    · simp only [hki, hself, hold j hji] at hj hk hl
      exact absurd hl (hother hk j hji hj)
    · simp only [hold j hji, hold k hki] at hj hk hl
      exact hr.distinct j k hj hk hl
  · intro j hj
    by_cases hji : j = i
    · simp only [hji, hself] at hj ⊢
      exact hdata hj
    · simp only [hold j hji] at hj ⊢
      rw [hsame j hji hj]
      exact hr.cached j hj
  · intro l hl
    refine hstored l ?_ fun j hji => ?_
    · have hnew := hl i
      simp only [hself] at hnew
      exact hnew
    · have hkept := hl j
      simp only [hold j hji] at hkept
      exact hkept
  · intro j hj hjd
    by_cases hji : j = i
    · simp only [hji, hself] at hj hjd ⊢
      exact hdirty hj hjd
    · simp only [hold j hji] at hj hjd ⊢
      exact hp.dirty j hj hjd

/-- Marking an entry clean after its sector was sent to the device. -/
theorem Synced.sent {d' : Disk} (hi : i < cacheEntries) (h : Synced f D W H (c, d))
    (hcut : Cut D W H (c, d')) (hv : (c.entry i).valid = true)
    (hm : d'.media = d.media.push (c.entry i).lba (c.entry i).data) :
    Synced f D W H (c.setEntry i { c.entry i with dirty := false }, d') := by
  refine h.setEntry hi hcut (fun _ j hj hjv hl => hj (h.1.distinct j i hjv hv hl))
    (fun _ _ _ => rfl) (fun _ => h.1.cached i hv) (fun l _ hl => ?_) (fun _ hfalse => nomatch hfalse)
  rw [hm, Media.visible_push]
  by_cases hli : l = (c.entry i).lba
  · subst hli
    rw [update_self]
    exact h.1.cached i hv
  · rw [update_of_ne hli]
    refine h.1.stored l fun j hj hjd => ?_
    by_cases hji : j = i
    · subst hji
      exact Ne.symm hli
    · exact hl j hji hj hjd

/-! ## §2. Write-back. -/

section

variable (hH : ∀ m, Within D W m → H m)

include hH

/-- A device command that failed leaves the phase bound in place. -/
theorem Cut.command {b : BlockCache} {effect : Media Sector} (h : Cut D W H (b, d))
    (he : Within D W effect) : Cut D W H (c, (d.command effect).1) := by
  obtain ⟨hh, hcase⟩ := d.command_cases effect
  have hwithin : Within D W (d.command effect).1.media := by
    rcases hcase with ⟨-, hm⟩ | ⟨-, hm | hm⟩ <;> rw [hm]
    · exact he
    · exact he
    · exact h.within
  refine ⟨hwithin, fun m hmem => ?_⟩
  rw [hh] at hmem
  rcases mem_append.mp hmem with hmem | hmem
  · exact h.history m hmem
  · rw [mem_singleton.mp hmem]
    exact hH _ hwithin

theorem writeback_triple (hi : i < cacheEntries) (K : List Nat) :
    Fallible.Triple (fun s => Synced f D W H s ∧ CleanAt K s)
      (writeback i : CacheM Disk Unit)
      (fun _ s => Synced f D W H s ∧ CleanAt (K ++ [i]) s) (Cut D W H) := by
  rintro ⟨c, d⟩ ⟨hs, hK⟩
  have hp := hs.2
  by_cases hdirty : ((c.entry i).valid && (c.entry i).dirty) = true
  · obtain ⟨hv, hd⟩ := Bool.and_eq_true_iff.mp hdirty
    have hcase := (d.command_cases (d.media.push (c.entry i).lba (c.entry i).data)).2
    have hcut := Cut.command (c := c) hH hp.toCut (hp.within.push (hp.dirty i hv hd))
    have hwrite : BlockIo.write d (c.entry i).lba (c.entry i).data
        = d.command (d.media.push (c.entry i).lba (c.entry i).data) := rfl
    simp only [writeback, hdirty, if_true, hwrite]
    rcases hr : d.command (d.media.push (c.entry i).lba (c.entry i).data) with ⟨d', r⟩
    rw [hr] at hcase hcut
    cases r with
    | error e => exact hcut
    | ok u =>
      have hm := (hcase.resolve_right fun h => nomatch h.1).2
      refine ⟨hs.sent hi hcut hv hm, fun j hj hjv => ?_⟩
      simp only [c.entry_setEntry hi] at hjv ⊢
      by_cases hji : j = i
      · simp [hji]
      simp only [if_neg hji] at hjv ⊢
      rcases mem_append.mp hj with hj | hj
      · exact hK j hj hjv
      · exact absurd (mem_singleton.mp hj) hji
  · simp only [writeback, if_neg hdirty]
    refine ⟨hs, ?_⟩
    intro j hj hjv
    rcases mem_append.mp hj with hj | hj
    · exact hK j hj hjv
    · rw [mem_singleton.mp hj] at hjv ⊢
      simpa [hjv] using hdirty

/-! ## §3. Flush, write and read. -/

theorem flushDevice_triple (K : List Nat) :
    Fallible.Triple (fun s => Synced f D W H s ∧ CleanAt K s)
      (flushDevice : CacheM Disk Unit)
      (fun _ s => (Synced f D W H s ∧ CleanAt K s) ∧ s.2.media.pending = []) (Cut D W H) := by
  rintro ⟨c, d⟩ ⟨⟨hr, hp⟩, hK⟩
  have hcase := (d.command_cases d.media.settle).2
  have hcut := Cut.command (c := c) hH hp.toCut hp.within.settle
  have hflush : BlockIo.flush d = d.command d.media.settle := rfl
  simp only [flushDevice, hflush]
  rcases hrun : d.command d.media.settle with ⟨d', r⟩
  rw [hrun] at hcase hcut
  cases r with
  | error e => exact hcut
  | ok u =>
    have hm := (hcase.resolve_right fun h => nomatch h.1).2
    refine ⟨⟨⟨⟨hr.distinct, hr.cached, ?_⟩, ⟨hcut, hp.dirty⟩⟩, hK⟩, ?_⟩
    · intro l hl
      show d'.media.visible l = f l
      rw [hm, Media.visible_settle]
      exact hr.stored l hl
    · show d'.media.pending = []
      rw [hm]
      rfl

/-- **A successful flush makes the represented array durable.** -/
theorem flush_triple :
    Fallible.Triple (Synced f D W H) (flush : CacheM Disk Unit)
      (fun _ s => Refines f s ∧ CleanAt (List.range cacheEntries) s ∧ s.2.media.durable = f
        ∧ s.2.media.pending = [] ∧ ∀ m ∈ s.2.history, H m) (Cut D W H) := by
  refine Fallible.Triple.bind (Q := fun _ s => Synced f D W H s
      ∧ CleanAt (List.range cacheEntries) s) ?_ (fun _ => ?_)
  · refine (Fallible.Triple.forEach (I := fun done s => Synced f D W H s ∧ CleanAt done s)
      (fun done i rest hsplit => ?_)).conseq (fun s hs => ⟨hs, fun i hi => absurd hi not_mem_nil⟩)
      (fun _ s hs => hs) (fun s hs => hs)
    have hi : i < cacheEntries := by
      have : i ∈ List.range cacheEntries := by rw [hsplit]; simp
      exact mem_range.mp this
    exact writeback_triple hH hi done
  · refine (flushDevice_triple hH (List.range cacheEntries)).conseq (fun s hs => hs) ?_
      (fun s hs => hs)
    rintro - ⟨c, d⟩ ⟨⟨⟨hr, hp⟩, hK⟩, hpend⟩
    refine ⟨hr, hK, ?_, hpend, hp.history⟩
    funext l
    -- no entry is dirty, so everything is visible, and nothing is pending
    have hvis := hr.stored l (fun i hv hd => by
      have := hK i (mem_range.mpr (c.lt_of_valid hv)) hv
      rw [this] at hd
      cases hd)
    have hdur : d.media.visible = d.media.durable := by
      show applyWrites d.media.durable d.media.pending = _
      rw [hpend]
      rfl
    show d.media.durable l = f l
    rw [← hdur]
    exact hvis

end

/-- Storing into an entry that is clean or already holds the sector. -/
theorem Synced.store (hi : i < cacheEntries) (h : Synced f D W H (c, d)) (hw : W lba data)
    (hother : ∀ j, j ≠ i → (c.entry j).valid = true → (c.entry j).lba ≠ lba)
    (hfree : (c.entry i).valid = true → (c.entry i).dirty = true → (c.entry i).lba = lba) :
    Synced (Function.update f lba data) D W H
      (c.setEntry i ⟨lba, data, c.clock, true, true⟩, d) := by
  refine h.setEntry hi ⟨h.2.within, h.2.history⟩ (fun _ => hother)
    (fun j hji hj => update_of_ne (hother j hji hj) _ _)
    (fun _ => (update_self lba data f).symm) (fun l hnew hl => ?_) (fun _ _ => hw)
  have hli : lba ≠ l := hnew rfl rfl
  rw [update_of_ne hli.symm]
  refine h.1.stored l fun j hj hjd => ?_
  by_cases hji : j = i
  · subst hji
    rw [hfree hj hjd]
    exact hli
  · exact hl j hji hj hjd

/-- The clock plays no part in the content. -/
theorem Synced.tick (h : Synced f D W H (c, d)) :
    Synced f D W H (c.tick, d) :=
  ⟨⟨h.1.distinct, h.1.cached, h.1.stored⟩, ⟨h.2.within, h.2.history⟩, h.2.dirty⟩

/-- Write-back changes nothing but dirty flags in the cache. -/
theorem writeback_entry (hi : i < cacheEntries) {s' : BlockCache × Disk}
    (hrun : (writeback i : CacheM Disk Unit) (c, d) = (s', .ok ())) (j : Nat) :
    (s'.1.entry j).valid = (c.entry j).valid ∧ (s'.1.entry j).lba = (c.entry j).lba := by
  simp only [writeback] at hrun
  split at hrun
  · split at hrun
    · cases hrun
    cases hrun
    simp only [c.entry_setEntry hi]
    by_cases hj : j = i
    · simp [hj]
    · simp [hj]
  · cases hrun
    exact ⟨rfl, rfl⟩

/-- The miss path: the evicted entry is written back, and then no entry holds
`lba` and the evicted one is clean. -/
theorem evict_triple (hH : ∀ m, Within D W m → H m) (hpos : c.position lba = none) :
    Fallible.Triple (fun s => Synced f D W H s ∧ s.1 = c)
      (writeback c.replacementIndex : CacheM Disk Unit)
      (fun _ s => Synced f D W H s ∧ CleanAt [c.replacementIndex] s
        ∧ ∀ j, (s.1.entry j).valid = true → (s.1.entry j).lba ≠ lba) (Cut D W H) := by
  have hi := c.replacementIndex_lt
  have hstep := writeback_triple (f := f) (D := D) (W := W) hH hi []
  refine .intro ?_ ?_
  · rintro ⟨c₁, d⟩ s' u ⟨hs, hc⟩ hrun
    have hc' : c₁ = c := hc
    subst hc'
    obtain ⟨hsync, hclean⟩ := hstep.ok ⟨hs, fun i hi => absurd hi not_mem_nil⟩ hrun
    refine ⟨hsync, hclean, ?_⟩
    intro j hj
    obtain ⟨hv, hl⟩ := writeback_entry hi hrun j
    rw [hv] at hj
    rw [hl]
    exact c₁.position_none hpos j hj
  · rintro s s' e ⟨hs, -⟩ hrun
    exact hstep.error ⟨hs, fun i hi => absurd hi not_mem_nil⟩ hrun

/-- **A write updates the represented array.** -/
theorem write_triple (hH : ∀ m, Within D W m → H m) (hw : W lba data) :
    Fallible.Triple (Synced f D W H) (write lba data : CacheM Disk Unit)
      (fun _ => Synced (Function.update f lba data) D W H) (Cut D W H) := by
  rintro ⟨c₀, d⟩ hs
  have hs' := hs.tick
  simp only [write]
  cases hpos : c₀.tick.position lba with
  | some i =>
    obtain ⟨hi, hv, hl⟩ := c₀.tick.position_some hpos
    refine hs'.store hi hw ?_ (fun _ _ => hl)
    intro j hji hj hjl
    exact hji (hs'.1.distinct j i hj hv (hjl.trans hl.symm))
  | none =>
    refine Fallible.Triple.bind (evict_triple hH hpos) (fun _ => ?_) (c₀.tick, d) ⟨hs', rfl⟩
    rintro ⟨c, d'⟩ ⟨hsync, hclean, hmiss⟩
    refine hsync.store c₀.tick.replacementIndex_lt hw (fun j _ hj => hmiss j hj) ?_
    intro hv hd
    rw [hclean _ (by simp) hv] at hd
    cases hd

/-- Caching a loaded sector in a clean entry. -/
theorem Synced.loaded (hi : i < cacheEntries) (h : Synced f D W H (c, d)) (hdata : data = f lba)
    (hclean : (c.entry i).valid = true → (c.entry i).dirty = false)
    (hmiss : ∀ j, (c.entry j).valid = true → (c.entry j).lba ≠ lba) :
    Synced f D W H (c.setEntry i ⟨lba, data, c.clock, true, false⟩, d) := by
  refine h.setEntry hi ⟨h.2.within, h.2.history⟩ (fun _ j _ => hmiss j) (fun _ _ _ => rfl)
    (fun _ => hdata) (fun l _ hl => ?_) (fun _ hfalse => nomatch hfalse)
  refine h.1.stored l fun j hj hjd => ?_
  by_cases hji : j = i
  · subst hji
    rw [hclean hj] at hjd
    cases hjd
  · exact hl j hji hj hjd

/-- Renewing the age of an entry. -/
theorem Synced.touch (hi : i < cacheEntries) (h : Synced f D W H (c, d)) (age : Nat) :
    Synced f D W H (c.setEntry i { c.entry i with age := age }, d) := by
  refine h.setEntry hi ⟨h.2.within, h.2.history⟩
    (fun hv j hj hjv hl => hj (h.1.distinct j i hjv hv hl)) (fun _ _ _ => rfl)
    (h.1.cached i) (fun l hnew hl => ?_) (h.2.dirty i)
  refine h.1.stored l fun j hj hjd => ?_
  by_cases hji : j = i
  · subst hji
    exact hnew hj hjd
  · exact hl j hji hj hjd

/-- **A read returns the represented sector.** -/
theorem read_triple (hH : ∀ m, Within D W m → H m) (lba : Nat) :
    Fallible.Triple (Synced f D W H) (BlockCache.read lba : CacheM Disk Sector)
      (fun a s => a = f lba ∧ Synced f D W H s) (Cut D W H) := by
  rintro ⟨c₀, d⟩ hs
  have hs' := hs.tick
  simp only [BlockCache.read]
  cases hpos : c₀.tick.position lba with
  | some i =>
    obtain ⟨hi, hv, hl⟩ := c₀.tick.position_some hpos
    refine ⟨?_, hs'.touch hi _⟩
    rw [← hl]
    exact hs'.1.cached i hv
  | none =>
    refine Fallible.Triple.bind (evict_triple hH hpos) (fun _ => ?_) (c₀.tick, d) ⟨hs', rfl⟩
    rintro ⟨c, d'⟩ ⟨hsync, hclean, hmiss⟩
    obtain ⟨hm, hh, hcase⟩ := d'.read_cases lba
    have hread : BlockIo.read d' lba = d'.read lba := rfl
    simp only [load, hread]
    rcases hrun : d'.read lba with ⟨d'', r⟩
    rw [hrun] at hm hh hcase
    -- a read leaves the medium and the history alone
    have hsync' : Synced f D W H (c, d'') := by
      refine ⟨⟨hsync.1.distinct, hsync.1.cached, ?_⟩, ⟨?_, ?_⟩, hsync.2.dirty⟩
      · intro l hl
        show d''.media.visible l = f l
        rw [hm]
        exact hsync.1.stored l hl
      · show Within D W d''.media
        rw [hm]
        exact hsync.2.within
      · show ∀ m ∈ d''.history, H m
        rw [hh]
        exact hsync.2.history
    cases r with
    | error e => exact hsync'.2.toCut
    | ok loaded =>
      have hloaded : loaded = f lba := by
        rw [Except.ok.inj (hcase.resolve_right nofun)]
        exact hsync.1.stored lba (fun i hv _ => hmiss i hv)
      exact ⟨hloaded, hsync'.loaded c₀.tick.replacementIndex_lt hloaded
        (hclean _ (by simp)) hmiss⟩

end Triples

end GenOS.Storage
