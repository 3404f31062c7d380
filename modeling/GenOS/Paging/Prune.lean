/-
  GenOS.Paging.Prune — releasing a subtree of a user address space.

  A frame of an owner stands for a position.  Releasing a subtree removes the
  frames at or below a position and the entry that links it, and nothing else
  (`Pruned`).  Since an entry is determined by the position it links, the
  subtrees of other slots stay as they are while one slot is released.
-/
import GenOS.Lib.Loops
import GenOS.Paging.OwnershipSteps

namespace GenOS.Paging

open GenOS.Lib GenOS.Memory
open GenOS.Lib.Masks (has has_eq_false)

variable {words n : Nat} {m m' : MemoryState words n}
variable {root : Nat} {kernel : Nat → Nat → Prop} {place : Place} {spaces : List AddressSpace}
variable {o : Owner} {t f va : Nat} {s : Fin 512}

/-! ## §1. Positions of a subtree. -/

/-- Position `p` is `(level, base)` or below it. -/
def Below (level base : Nat) (p : Nat × Nat) : Prop :=
  p.1 ≤ level ∧ base ≤ p.2 ∧ p.2 < base + span (level + 1)

theorem span_succ (level : Nat) : span (level + 2) = 512 * span (level + 1) := by
  show 2 ^ (12 + 9 * (level + 1)) = 512 * 2 ^ (12 + 9 * level)
  rw [show 12 + 9 * (level + 1) = 9 + (12 + 9 * level) by omega, Nat.pow_add]

theorem span_pos (level : Nat) : 0 < span level := Nat.two_pow_pos _

theorem below_self (level base : Nat) : Below level base (level, base) :=
  ⟨Nat.le_refl _, Nat.le_refl _, Nat.lt_add_of_pos_right (span_pos _)⟩

variable {level base : Nat} {p : Nat × Nat}

/-- The subtree of a slot is part of the subtree. -/
theorem Below.slot (h : Below level (base + s * span (level + 1)) p) : Below (level + 1) base p := by
  obtain ⟨hlevel, hlow, hhigh⟩ := h
  refine ⟨by omega, by omega, ?_⟩
  have hslot : (s.val + 1) * span (level + 1) ≤ 512 * span (level + 1) :=
    Nat.mul_le_mul_right _ s.isLt
  rw [Nat.add_mul] at hslot
  rw [span_succ]
  omega

/-- The subtrees of two slots are disjoint. -/
theorem Below.slot_unique {s' : Fin 512} (h : Below level (base + s * span (level + 1)) p)
    (h' : Below level (base + s' * span (level + 1)) p) : s = s' := by
  have hlow := h.2.1
  have hhigh := h.2.2
  have hlow' := h'.2.1
  have hhigh' := h'.2.2
  -- both slots are the quotient of the offset
  have hdiv : ∀ x : Nat, base + x * span (level + 1) ≤ p.2 →
      p.2 < base + x * span (level + 1) + span (level + 1) →
      (p.2 - base) / span (level + 1) = x := by
    intro x h1 h2
    refine Nat.div_eq_of_lt_le (by omega) ?_
    rw [Nat.add_mul, Nat.one_mul]
    omega
  exact Fin.ext ((hdiv s hlow hhigh).symm.trans (hdiv s' hlow' hhigh'))

/-- The position a record stands for. -/
def position (place : Place) (r : Record) : Nat × Nat :=
  match r.kind with
  | .table => place r.address
  | .user => (0, r.mappedAt)

/-- The position an entry links. -/
def linked (place : Place) (t : Nat) (s : Fin 512) : Nat × Nat :=
  ((place t).1 - 1, (place t).2 + s * span (place t).1)

/-! ## §2. Removing positions. -/

/-- Frames of `o` at positions in `Q` and entries that link these positions
may have gone; nothing else changed in the user spaces. -/
structure Pruned (place : Place) (o : Owner) (Q : Nat × Nat → Prop) (m m' : MemoryState words n) :
    Prop where
  held : ∀ slot x, m'.grants.Held slot x → m.grants.Held slot x
  kept : ∀ slot x, m.grants.Held slot x → (x.owner = o → ¬ Q (position place x)) →
    m'.grants.Held slot x
  entries : ∀ o' t s, o' ≠ .kernel → Tab m' o' t → (o' = o → ¬ Q (linked place t s)) →
    m'.contents t s = m.contents t s
  cleared : ∀ o' t s, o' ≠ .kernel → Tab m' o' t →
    m'.contents t s = m.contents t s ∨ m'.contents t s = 0#64

section Pruning

variable {Q : Nat × Nat → Prop}

theorem Pruned.refl (m : MemoryState words n) : Pruned place o Q m m :=
  ⟨fun _ _ h => h, fun _ _ h _ => h, fun _ _ _ _ _ _ => rfl, fun _ _ _ _ _ => .inl rfl⟩

section

variable (h : Pruned place o Q m m')

include h

theorem Pruned.mono {R : Nat × Nat → Prop} (hQ : ∀ p, Q p → R p) : Pruned place o R m m' :=
  ⟨h.held, fun slot x hx hR => h.kept slot x hx (fun ho hq => hR ho (hQ _ hq)),
    fun o' t s ho ht hR => h.entries o' t s ho ht (fun heq hq => hR heq (hQ _ hq)), h.cleared⟩

theorem Pruned.tab_old {o' : Owner} (ht : Tab m' o' t) : Tab m o' t := by
  obtain ⟨slot, x, hx, hrest⟩ := ht
  exact ⟨slot, x, h.held slot x hx, hrest⟩

theorem Pruned.trans {m'' : MemoryState words n} (h' : Pruned place o Q m' m'') :
    Pruned place o Q m m'' := by
  refine ⟨fun slot x hx => h.held slot x (h'.held slot x hx),
    fun slot x hx hQ => h'.kept slot x (h.kept slot x hx hQ) hQ, ?_, ?_⟩
  · intro o' t s ho ht hQ
    rw [h'.entries o' t s ho ht hQ, h.entries o' t s ho (h'.tab_old ht) hQ]
  · intro o' t s ho ht
    rcases h'.cleared o' t s ho ht with hsame | hzero
    · rw [hsame]
      exact h.cleared o' t s ho (h'.tab_old ht)
    · exact .inr hzero

theorem Pruned.tab {o' : Owner} (ht : Tab m o' t) (hQ : o' = o → ¬ Q (place t)) : Tab m' o' t := by
  obtain ⟨slot, x, hx, haddress, howner, hkind⟩ := ht
  refine ⟨slot, x, h.kept slot x hx (fun ho => ?_), haddress, howner, hkind⟩
  have hpos : position place x = place t := by
    simp only [position, hkind, haddress]
  rw [hpos]
  exact hQ (howner ▸ ho)

theorem Pruned.stands (hs : Stands m place o f p) (hQ : ¬ Q p) : Stands m' place o f p := by
  rcases hs with ⟨ht, rfl⟩ | ⟨va, ⟨slot, x, hx, haddress, howner, hkind, hmapped⟩, rfl⟩
  · exact .inl ⟨h.tab ht (fun _ => hQ), rfl⟩
  refine .inr ⟨va, ⟨slot, x, h.kept slot x hx (fun _ => ?_), haddress, howner, hkind,
    hmapped⟩, rfl⟩
  have hpos : position place x = (0, va) := by
    simp only [position, hkind, hmapped]
  rw [hpos]
  exact hQ

end

theorem Unlinked.mono (h : Unlinked m place f)
    (htab : ∀ o t, o ≠ .kernel → Tab m' o t → Tab m o t)
    (hentry : ∀ o t s, o ≠ .kernel → Tab m' o t →
      m'.contents t s = m.contents t s ∨ m'.contents t s = 0#64) : Unlinked m' place f := by
  intro o t s ho ht hs hne
  rcases hentry o t s ho ht with hsame | hzero
  · rw [hsame] at hne ⊢
    exact h o t s ho (htab o t ho ht) hs hne
  · exact absurd hzero hne

theorem Pruned.unlinked (h : Pruned place o Q m m') (hf : Unlinked m place f) :
    Unlinked m' place f :=
  hf.mono (fun _ _ _ ht => h.tab_old ht) h.cleared

end Pruning

/-! ## §3. The size of a subtree. -/

/-- The number of frames at or below a frame of the given level. -/
def treeSize (m : MemoryState words n) : Nat → Nat → Nat
  | 0, _ => 1
  | level + 1, t =>
    1 + ((List.finRange 512).map (fun s =>
      if has (m.contents t s) present then treeSize m level (frameOf (m.contents t s)) else 0)).sum

/-- What one slot of a table contributes. -/
def slotSize (m : MemoryState words n) (level t : Nat) (s : Fin 512) : Nat :=
  if has (m.contents t s) present then treeSize m level (frameOf (m.contents t s)) else 0

theorem treeSize_succ (m : MemoryState words n) (level t : Nat) :
    treeSize m (level + 1) t = 1 + ((List.finRange 512).map (slotSize m level t)).sum := rfl

theorem has_present_ne_zero {e : BitVec 64} (h : has e present = true) : e ≠ 0#64 := by
  intro hzero
  rw [hzero, has_zero] at h
  cases h

theorem not_shared (h : level ≠ 4) : ¬ Shared level s := fun hs => h hs.1

/-- The frame a present entry links stands for the linked position. -/
theorem Owned.child_stands (h : Owned m root kernel place spaces) (ho : o ≠ .kernel)
    (ht : Tab m o t) (hplace : place t = (level + 1, base)) (hlevel : level < 3)
    (hpresent : has (m.contents t s) present = true) :
    Stands m place o (frameOf (m.contents t s)) (level, base + s * span (level + 1)) := by
  have hs : ¬ Shared (place t).1 s := by
    rw [hplace]
    exact not_shared (by simp only; omega)
  have hlink := h.link ho ht hs (has_present_ne_zero hpresent)
  rw [hplace] at hlink
  exact hlink

/-- A frame above the last level is a table. -/
theorem Stands.tab (hs : Stands m place o f (level + 1, base)) :
    Tab m o f ∧ place f = (level + 1, base) := by
  rcases hs with htab | ⟨va, -, hp⟩
  · exact htab
  · cases hp

/-- Pruning elsewhere does not change the size of a subtree. -/
theorem treeSize_congr {Q : Nat × Nat → Prop} (h : Owned m root kernel place spaces)
    (ho : o ≠ .kernel) (hp : Pruned place o Q m m') : ∀ (level f base : Nat), level ≤ 3 →
      Stands m place o f (level, base) → Stands m' place o f (level, base) →
      (∀ p, Below level base p → p ≠ (level, base) → ¬ Q p) →
      treeSize m' level f = treeSize m level f := by
  intro level
  induction level with
  | zero => exact fun _ _ _ _ _ _ => rfl
  | succ level ih =>
    intro f base hlevel hs hs' hQ
    obtain ⟨ht, hplace⟩ := hs.tab
    have hbelow : ∀ (s : Fin 512) p, Below level (base + s * span (level + 1)) p → ¬ Q p := by
      intro s p hp
      refine hQ p hp.slot (fun heq => ?_)
      have := hp.1
      rw [heq] at this
      exact absurd this (Nat.not_succ_le_self level)
    have hslots : (List.finRange 512).map (slotSize m' level f)
        = (List.finRange 512).map (slotSize m level f) := by
      refine List.map_congr_left (fun s _ => ?_)
      have hsame : m'.contents f s = m.contents f s := by
        refine hp.entries o f s ho hs'.tab.1 (fun _ => ?_)
        unfold linked
        rw [hplace]
        exact hbelow s _ (below_self _ _)
      unfold slotSize
      rw [hsame]
      split
      · rename_i hpresent
        have hstands := h.child_stands ho ht hplace (by omega) hpresent
        exact ih _ _ (by omega) hstands (hp.stands hstands (hbelow s _ (below_self _ _)))
          (fun p hbp _ => hbelow s p hbp)
      · rfl
    rw [treeSize_succ, treeSize_succ, hslots]

/-! ## §4. The steps of a release. -/

/-- The release of `k` frames of `o`, at positions in `Q`. -/
structure Removed (place : Place) (root : Nat) (kernel : Nat → Nat → Prop)
    (spaces : List AddressSpace) (o : Owner) (Q : Nat × Nat → Prop) (k : Nat)
    (m m' : MemoryState words n) : Prop where
  owned : Owned m' root kernel place spaces
  pruned : Pruned place o Q m m'
  frames : m'.grants.ownerFrames o + k = m.grants.ownerFrames o

section Removing

variable {Q : Nat × Nat → Prop} {k : Nat}

theorem Removed.mono {R : Nat × Nat → Prop} (h : Removed place root kernel spaces o Q k m m')
    (hQ : ∀ p, Q p → R p) : Removed place root kernel spaces o R k m m' :=
  ⟨h.owned, h.pruned.mono hQ, h.frames⟩

theorem Removed.trans {m'' : MemoryState words n} {k' : Nat}
    (h : Removed place root kernel spaces o Q k m m')
    (h' : Removed place root kernel spaces o Q k' m' m'') :
    Removed place root kernel spaces o Q (k + k') m m'' := by
  refine ⟨h'.owned, h.pruned.trans h'.pruned, ?_⟩
  have := h.frames
  have := h'.frames
  omega

end Removing

variable (h : Owned m root kernel place spaces)

include h

/-- A cleared entry leaves the frame it linked without a link. -/
theorem Owned.clear (ho : o ≠ .kernel) (ht : Tab m o t) (hs : ¬ Shared (place t).1 s)
    (hne : m.contents t s ≠ 0#64) :
    Unlinked (writeEntry m t s 0#64) place (frameOf (m.contents t s))
      ∧ Removed place root kernel spaces o (fun p => p = linked place t s) 0 m
        (writeEntry m t s 0#64) := by
  refine ⟨?_, h.write ho ht hs (.inl rfl), ?_, rfl⟩
  · intro o' t' s' ho' ht' hs' hne' hframe
    by_cases hsame : t' = t ∧ s' = s
    · rw [hsame.1, hsame.2, writeEntry_self] at hne'
      exact hne' rfl
    · rw [writeEntry_other hsame] at hne' hframe
      obtain ⟨-, htt, hss⟩ := h.link_unique ho' ho ht' ht hs' hs hne' hne hframe
      exact hsame ⟨htt, hss⟩
  · refine ⟨fun _ _ hx => hx, fun _ _ hx _ => hx, fun o' t' s' ho' ht' hQ => ?_,
      fun o' t' s' ho' ht' => ?_⟩
    · refine writeEntry_other (fun hsame => ?_) _
      obtain ⟨rfl, rfl⟩ := hsame
      exact hQ (Tab.owner_unique h.mem ht' ht) rfl
    · by_cases hsame : t' = t ∧ s' = s
      · rw [hsame.1, hsame.2]
        exact .inr (writeEntry_self t s _)
      · exact .inl (writeEntry_other hsame _)

/-- A table that no entry links is released. -/
theorem freeFrame_table {g : Grant} {r : Record} (hr : m.grants.Held g.slot r)
    (hrg : r.grant g.slot = g) (howner : r.owner ≠ .kernel) (hkind : r.kind = .table)
    (hunlinked : Unlinked m place r.address) :
    ∃ m', m.freeFrame g = (m', true)
      ∧ Removed place root kernel spaces r.owner (fun p => p = place r.address) 1 m m' := by
  have hunmapped : r.mappedAt = 0 := by
    by_contra hne
    have := (h.mem.grants.mapped hr hne).1
    rw [hkind] at this
    cases this
  obtain ⟨m', hval, hm', hrel⟩ := freeFrame_held h.mem hr hrg hunmapped
  have hsame : ∀ o' t, Tab m' o' t → m'.contents t = m.contents t := by
    intro o' t ht
    exact released_contents hrel hrg ((released_tab hrel hr h.mem).mp ht).2
  refine ⟨m', hval, h.release hrel hr hrg hm' howner hunlinked, ?_, ?_⟩
  · refine ⟨fun slot x hx => ((hrel.held_iff hr).mp hx).2, fun slot x hx hQ => ?_,
      fun o' t s _ ht _ => by rw [hsame o' t ht], fun o' t s _ ht => .inl (by rw [hsame o' t ht])⟩
    refine (hrel.held_iff hr).mpr ⟨fun hslot => ?_, hx⟩
    subst hslot
    have hxr := hx.unique hr
    subst hxr
    exact hQ rfl (by simp only [position, hkind])
  · rw [hrel.grants]
    exact Ledger.ownerFrames_vacate hr

theorem releaseOwnedTable_spec (ho : o ≠ .kernel) (ht : Tab m o t)
    (hunlinked : Unlinked m place t) :
    ∃ m', releaseOwnedTable m o t = (m', true)
      ∧ Removed place root kernel spaces o (fun p => p = place t) 1 m m' := by
  obtain ⟨slot, r, hr, rfl, rfl, hkind⟩ := ht
  have hfind := h.mem.grants.find_held hr
  rw [hkind] at hfind
  obtain ⟨m', hval, hdrop⟩ := freeFrame_table h (g := r.grant slot) hr rfl ho hkind hunlinked
  exact ⟨m', by simp only [releaseOwnedTable, hfind, hval], hdrop⟩

/-- A bound page that no entry links is retired and released. -/
theorem releaseLeaf_spec (ho : o ≠ .kernel) (hu : Usr m o f va) (hva : va ≠ 0)
    (hunlinked : Unlinked m place f) :
    ∃ m', releaseLeaf m (some root) o f va = some m'
      ∧ Removed place root kernel spaces o (fun p => p = (0, va)) 1 m m' := by
  -- the alias of a bound page is found
  have hbound := h.bound o f va hva hu
  obtain ⟨m₁, hset⟩ : ∃ m₁, setUserAliasWritable m (some root) f true = some m₁ := by
    unfold setUserAliasWritable
    cases hslot : aliasSlot m (some root) f with
    | none =>
      rw [hslot] at hbound
      cases hbound
    | some p => exact ⟨_, rfl⟩
  have ha := setUserAliasWritable_spec h.kernelOk hset
  have h₁ := h.aliasSet ha
  obtain ⟨slot, r, hr, rfl, rfl, hkind, rfl⟩ := hu
  have hr₁ : m₁.grants.Held slot r := by
    rw [ha.grants]
    exact hr
  have hunlinked₁ : Unlinked m₁ place r.address :=
    hunlinked.mono (fun _ _ _ ht => ha.tab.mp ht)
      (fun o' t s ho' ht => .inl (by rw [ha.user_contents h.mem ho' (ha.tab.mp ht)]))
  -- the binding is taken back
  have h₂ : Owned (setBinding m₁ slot 0) root kernel place spaces :=
    h₁.rebind hr₁ hkind hunlinked₁ (fun hne => absurd rfl hne) (fun hne => absurd rfl hne)
  have hr₂ : (setBinding m₁ slot 0).grants.Held slot { r with mappedAt := 0 } := by
    rw [held_setBinding hr₁, if_pos rfl]
    exact ⟨rfl, hr.2⟩
  have hretire := h₁.mem.grants.retire_held hr₁ hkind hva
  -- the page is released
  obtain ⟨m₃, hfree, h₃, hrel⟩ :=
    freeFrame_held h₂.mem (g := r.grant slot) (r := { r with mappedAt := 0 }) hr₂ rfl rfl
  have hunlinked₂ : Unlinked (setBinding m₁ slot 0) place r.address :=
    hunlinked₁.mono (fun _ _ _ ht => (tab_setBinding hr₁ hkind).mp ht)
      (fun _ _ _ _ _ => .inl rfl)
  have hheld : ∀ s x, m₃.grants.Held s x ↔ s ≠ slot ∧ m.grants.Held s x := by
    intro s x
    rw [hrel.held_iff hr₂]
    refine and_congr_right (fun hne => ?_)
    have hne' : s ≠ slot := hne
    rw [held_setBinding hr₁, if_neg hne', ha.grants]
  have htab : ∀ {o' t}, Tab m₃ o' t → Tab m o' t := by
    rintro o' t ⟨s, x, hx, hrest⟩
    exact ⟨s, x, ((hheld s x).mp hx).2, hrest⟩
  have hsame : ∀ o' t, o' ≠ .kernel → Tab m₃ o' t → m₃.contents t = m.contents t := by
    intro o' t ho' ht
    have hne := ((released_tab hrel hr₂ h₂.mem).mp ht).2
    rw [released_contents hrel rfl hne]
    exact ha.user_contents h.mem ho' (htab ht)
  refine ⟨m₃, ?_, h₂.release hrel hr₂ rfl h₃ ho hunlinked₂, ?_, ?_⟩
  · unfold setBinding at hfree
    simp only [releaseLeaf, hset, MemoryState.retireMapping, hretire, hfree]
  · refine ⟨fun s x hx => ((hheld s x).mp hx).2, fun s x hx hQ => ?_,
      fun o' t s ho' ht _ => by rw [hsame o' t ho' ht],
      fun o' t s ho' ht => .inl (by rw [hsame o' t ho' ht])⟩
    refine (hheld s x).mpr ⟨fun hs => ?_, hx⟩
    subst hs
    have hxr := hx.unique hr
    subst hxr
    exact hQ rfl (by simp only [position, hkind])
  · have hvacate := Ledger.ownerFrames_vacate hr₂
    have hbinding : (setBinding m₁ slot 0).grants.ownerFrames r.owner
        = m.grants.ownerFrames r.owner := by
      rw [← ha.grants]
      exact Ledger.ownerFrames_setMappedAt hr₁ 0 r.owner
    rw [hrel.grants, ← hbinding]
    exact hvacate

end GenOS.Paging
