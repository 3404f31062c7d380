/-
  GenOS.Paging.DestroyUser — destroying a user address space.

  The walk that validates a space counts its frames (`validateUserTable_eq`),
  and the walk that releases it releases that many (`releaseFrame_spec`).  The
  count is compared with the ledger before anything changes, so a destroyed
  owner has no frame left (`destroyUserAddressSpace_spec`).
-/
import GenOS.Paging.Prune

namespace GenOS.Paging

open GenOS.Lib GenOS.Memory List
open GenOS.Lib.Masks (has has_eq_false)

variable {words n : Nat} {m m' : MemoryState words n}
variable {root : Nat} {kernel : Nat → Nat → Prop} {place : Place} {spaces : List AddressSpace}
variable {o : Owner} {t f va : Nat} {s : Fin 512}

/-! ## §1. Validation counts the subtree. -/

theorem mappingMatches_usr (h : MemInv m) (hu : Usr m o f va) (hva : va ≠ 0) :
    m.grants.mappingMatches o f va = true := by
  obtain ⟨slot, r, hr, rfl, rfl, hkind, rfl⟩ := hu
  have hfind := h.grants.find_held hr
  rw [hkind] at hfind
  simp only [Ledger.mappingMatches, hfind]
  show (decide (r.mappedAt ≠ 0) && decide ((m.grants.record slot).mappedAt = r.mappedAt)) = true
  rw [hr.record]
  simp [hva]

variable {level base k : Nat}

/-- What validation sees of a present entry. -/
theorem Owned.entry_valid (h : Owned m root kernel place spaces) (ho : o ≠ .kernel)
    (ht : Tab m o t) (hplace : place t = (level + 1, base)) (hlevel : level < 3)
    (hpresent : has (m.contents t s) present = true) :
    has (m.contents t s) user = true ∧ (level ≠ 0 → has (m.contents t s) hugeOrPat = false) := by
  have hs : ¬ Shared (place t).1 s := by
    rw [hplace]
    exact not_shared (by simp only; omega)
  rcases (h.tables o t ho ht).entries s hs with hzero | ⟨hone, f, w, x, he, -, hu⟩
    | ⟨-, c, he, hc, -⟩
  · exact absurd hzero (has_present_ne_zero hpresent)
  · rw [hplace] at hone
    rw [he]
    exact ⟨leafEntry_user (h.frameOk (hu.live h.mem)), fun hne => absurd (by simpa using hone) hne⟩
  · rw [he]
    have hok := h.frameOk (hc.live h.mem)
    exact ⟨tableEntry_user hok, fun _ => tableEntry_huge hok⟩

section

variable (m : MemoryState words n)

/-- The validation of the frame at `(level, address)` and of what is below it. -/
def validateFrame (o : Owner) (level frame address : Nat) : Except PagingError Nat :=
  if level = 0 then
    if m.grants.mappingMatches o frame address then .ok 1 else .error .invalidAddress
  else validateUserTable m o level frame address

/-- One round of the loop of `validate_user_table`. -/
def validateSlot (o : Owner) (level t base frames : Nat) (s : Fin 512) : Except PagingError Nat :=
  if has (m.contents t s) present = false then .ok frames
  else if has (m.contents t s) user = false ∨ (level ≠ 0 ∧ has (m.contents t s) hugeOrPat) then
    .error .invalidAddress
  else
    match validateFrame m o level (frameOf (m.contents t s)) (base + s * span (level + 1)) with
    | .error e => .error e
    | .ok k => .ok (frames + k)

theorem validateUserTable_succ (o : Owner) (level t base : Nat) :
    validateUserTable m o (level + 1) t base
      = if (m.grants.find o t .table).isNone then .error .invalidAddress
        else (finRange 512).foldlM (validateSlot m o level t base) 1 := by
  rw [validateUserTable]
  refine if_congr Iff.rfl rfl (congrArg (fun f => foldlM f 1 (finRange 512)) ?_)
  funext frames s
  simp only [validateSlot, validateFrame]
  refine if_congr Iff.rfl rfl (if_congr Iff.rfl rfl ?_)
  by_cases hlevel : level = 0
  · simp only [if_pos hlevel]
    split <;> rfl
  · cases validateUserTable m o level (frameOf (m.contents t s))
        (base + s * span (level + 1)) with
    | error e | ok k => rw [if_neg hlevel, if_neg hlevel]

end

/-- A subtree of a space is valid, and validation counts its frames. -/
theorem validateFrame_eq (h : Owned m root kernel place spaces) (ho : o ≠ .kernel) :
    ∀ (level f base : Nat), level ≤ 3 → Stands m place o f (level, base) → base ≠ 0 →
      validateFrame m o level f base = .ok (treeSize m level f) := by
  intro level
  induction level with
  | zero =>
    intro f base _ hs hbase
    rcases hs with ⟨ht, hplace⟩ | ⟨va, hu, hp⟩
    · have := (h.tables o f ho ht).base.level_pos
      rw [hplace] at this
      exact absurd this (Nat.not_succ_le_zero 0)
    · cases hp
      rw [validateFrame, if_pos rfl, if_pos (mappingMatches_usr h.mem hu hbase)]
      rfl
  | succ level ih =>
    intro t base hlevel hs hbase
    obtain ⟨ht, hplace⟩ := hs.tab
    have hfind : (m.grants.find o t .table).isNone = false := by
      obtain ⟨slot, r, hr, rfl, rfl, hkind⟩ := ht
      have hfound := h.mem.grants.find_held hr
      rw [hkind] at hfound
      rw [hfound]
      rfl
    -- the count so far is one for the table and the slots done
    obtain ⟨frames, hval, hframes⟩ := foldlM_pure (M := Except PagingError)
      (f := validateSlot m o level t base) (l := finRange 512) (b := 1)
      (I := fun done frames => frames = 1 + (done.map (slotSize m level t)).sum) rfl
      (by
        intro done s rest frames _ hframes
        refine ⟨frames + slotSize m level t s, ?_, ?_⟩
        · unfold validateSlot slotSize
          cases hpresent : has (m.contents t s) present with
          | false => rfl
          | true =>
            obtain ⟨huser, hhuge⟩ := h.entry_valid ho ht hplace (by omega) hpresent
            have hgood : ¬ (has (m.contents t s) user = false
                ∨ (level ≠ 0 ∧ has (m.contents t s) hugeOrPat = true)) := by
              rw [huser]
              intro hbad
              rcases hbad with hfalse | ⟨hne, htrue⟩
              · cases hfalse
              · rw [hhuge hne] at htrue
                cases htrue
            have hstands := h.child_stands ho ht hplace (by omega) hpresent
            rw [if_neg Bool.noConfusion, if_neg hgood, if_pos rfl,
              ih _ _ (by omega) hstands (by omega)]
            rfl
        · rw [map_append, sum_append, hframes, map_singleton, sum_singleton,
            Nat.add_assoc])
    rw [validateFrame, if_neg (Nat.succ_ne_zero level), validateUserTable_succ, hfind,
      if_neg Bool.false_ne_true, hval, hframes]
    rfl

/-! ## §2. Releasing a subtree. -/

variable (sealedRoot : Option Nat)

/-- The release of the frame at `(level, address)` and of what is below it. -/
def releaseFrame (o : Owner) (level frame address : Nat) (m : MemoryState words n) :
    Option (MemoryState words n × Nat) :=
  if level = 0 then
    match releaseLeaf m sealedRoot o frame address with
    | none => none
    | some m' => some (m', 1)
  else
    match releaseUserTable sealedRoot o level frame address m with
    | none => none
    | some (m', k) =>
      match releaseOwnedTable m' o frame with
      | (_, false) => none
      | (m'', true) => some (m'', k + 1)

/-- One round of the loop of `release_user_table`. -/
def releaseSlot (o : Owner) (level t base : Nat) (st : MemoryState words n × Nat) (s : Fin 512) :
    Option (MemoryState words n × Nat) :=
  if has (st.1.contents t s) present = false then some st
  else
    match releaseFrame sealedRoot o level (frameOf (st.1.contents t s))
        (base + s * span (level + 1)) (writeEntry st.1 t s 0#64) with
    | none => none
    | some (m', k) => some (m', st.2 + k)

theorem releaseUserTable_succ (o : Owner) (level t base : Nat) (m : MemoryState words n) :
    releaseUserTable sealedRoot o (level + 1) t base m
      = (finRange 512).foldlM (releaseSlot sealedRoot o level t base) (m, 0) := by
  rw [releaseUserTable]
  refine congrArg (fun f => foldlM f (m, 0) (finRange 512)) ?_
  funext ⟨m, released⟩ s
  simp only [releaseSlot, releaseFrame]
  refine if_congr Iff.rfl rfl ?_
  by_cases hlevel : level = 0
  · simp only [if_pos hlevel]
    cases releaseLeaf (writeEntry m t s 0#64) sealedRoot o (frameOf (m.contents t s))
        (base + s * span (level + 1)) <;> rfl
  · simp only [if_neg hlevel]
    cases releaseUserTable sealedRoot o level (frameOf (m.contents t s))
        (base + s * span (level + 1)) (writeEntry m t s 0#64) with
    | none => rfl
    | some p =>
      obtain ⟨m₂, k⟩ := p
      simp only
      cases releaseOwnedTable m₂ o (frameOf (m.contents t s)) with
      | mk m' ok => cases ok <;> rfl

/-- The positions below the slots that are done. -/
def BelowSlots (level base : Nat) (done : List (Fin 512)) (p : Nat × Nat) : Prop :=
  ∃ s ∈ done, Below level (base + s * span (level + 1)) p

/-- What the release of a frame and of everything below it comes to. -/
def ReleasesFrames (place : Place) (root : Nat) (kernel : Nat → Nat → Prop)
    (spaces : List AddressSpace) (o : Owner) (words n level : Nat) : Prop :=
  ∀ (m : MemoryState words n) (f base : Nat), Owned m root kernel place spaces →
    Stands m place o f (level, base) → base ≠ 0 → Unlinked m place f →
    ∃ m', releaseFrame (some root) o level f base m = some (m', treeSize m level f)
      ∧ Removed place root kernel spaces o (Below level base) (treeSize m level f) m m'

/-- One slot, when the slots in `done` were released before. -/
theorem releaseSlot_spec (ih : ReleasesFrames place root kernel spaces o words n level)
    (h : Owned m root kernel place spaces) (ho : o ≠ .kernel) (ht : Tab m o t)
    (hplace : place t = (level + 1, base)) (hlevel : level < 3) (hbase : base ≠ 0)
    {done : List (Fin 512)} (hdone : s ∉ done) {m₁ : MemoryState words n}
    (hrem : Removed place root kernel spaces o (BelowSlots level base done) k m m₁) :
    ∃ m₂, releaseSlot (some root) o level t base (m₁, k) s = some (m₂, k + slotSize m level t s)
      ∧ Removed place root kernel spaces o (BelowSlots level base (done ++ [s]))
        (k + slotSize m level t s) m m₂ := by
  -- the subtree of this slot is untouched
  have hfresh : ∀ p, Below level (base + s * span (level + 1)) p → ¬ BelowSlots level base done p := by
    intro p hp ⟨s', hs', hp'⟩
    rw [hp.slot_unique hp'] at hdone
    exact hdone hs'
  have hmore : ∀ p, BelowSlots level base done p → BelowSlots level base (done ++ [s]) p :=
    fun p ⟨s', hs', hp⟩ => ⟨s', mem_append_left _ hs', hp⟩
  have hhere : ∀ p, Below level (base + s * span (level + 1)) p →
      BelowSlots level base (done ++ [s]) p :=
    fun p hp => ⟨s, mem_append_right _ (mem_singleton_self s), hp⟩
  have ht₁ : Tab m₁ o t := by
    refine hrem.pruned.tab ht (fun _ => ?_)
    rw [hplace]
    intro ⟨s', _, hp⟩
    have : level + 1 ≤ level := hp.1
    omega
  have hsame : m₁.contents t s = m.contents t s := by
    refine hrem.pruned.entries o t s ho ht₁ (fun _ => ?_)
    unfold linked
    rw [hplace]
    exact hfresh _ (below_self _ _)
  unfold releaseSlot slotSize
  simp only [hsame]
  cases hpresent : has (m.contents t s) present with
  | false => exact ⟨m₁, rfl, hrem.mono hmore⟩
  | true =>
    have hstands := h.child_stands ho ht hplace hlevel hpresent
    have hstands₁ := hrem.pruned.stands hstands (hfresh _ (below_self _ _))
    have hshared : ¬ Shared (place t).1 s := by
      rw [hplace]
      exact not_shared (by simp only; omega)
    have hne : m₁.contents t s ≠ 0#64 := by
      rw [hsame]
      exact has_present_ne_zero hpresent
    obtain ⟨hunlinked, hclear⟩ := hrem.owned.clear ho ht₁ hshared hne
    rw [hsame] at hunlinked
    -- neither the slots before nor the cleared entry change its size
    have hposition : linked place t s = (level, base + s * span (level + 1)) := by
      unfold linked
      rw [hplace]
      rfl
    have hsize : treeSize (writeEntry m₁ t s 0#64) level (frameOf (m.contents t s))
        = treeSize m level (frameOf (m.contents t s)) := by
      rw [treeSize_congr hrem.owned ho hclear.pruned level _ _ (by omega) hstands₁ hstands₁
          (fun p _ hne heq => hne (heq.trans hposition)),
        treeSize_congr h ho hrem.pruned level _ _ (by omega) hstands hstands₁
          (fun p hp _ => hfresh p hp)]
    obtain ⟨m₂, hval, hrem₂⟩ := ih (writeEntry m₁ t s 0#64) _ _ hclear.owned hstands₁
      (by omega) hunlinked
    rw [hsize] at hval hrem₂
    refine ⟨m₂, by simp only [hval, Bool.true_eq_false, if_false, if_true], ?_⟩
    have hfirst := (hrem.mono hmore).trans (hclear.mono (fun p heq => hhere p (by
      rw [heq, hposition]
      exact below_self _ _)))
    rw [if_pos rfl]
    exact hfirst.trans (hrem₂.mono hhere)

/-- **Releasing a subtree** releases as many frames as validation counts. -/
theorem releaseFrame_spec (ho : o ≠ .kernel) :
    ∀ level, level ≤ 3 → ReleasesFrames place root kernel spaces o words n level := by
  intro level
  induction level with
  | zero =>
    intro _ m f base h hs hbase hunlinked
    rcases hs with ⟨ht, hplace⟩ | ⟨va, hu, hp⟩
    · have := (h.tables o f ho ht).base.level_pos
      rw [hplace] at this
      exact absurd this (Nat.not_succ_le_zero 0)
    · cases hp
      obtain ⟨m', hval, hrem⟩ := releaseLeaf_spec h ho hu hbase hunlinked
      refine ⟨m', by simp only [releaseFrame, hval, if_true, treeSize], hrem.mono ?_⟩
      intro p heq
      rw [heq]
      exact below_self _ _
  | succ level ih =>
    intro hlevel m t base h hs hbase hunlinked
    obtain ⟨ht, hplace⟩ := hs.tab
    obtain ⟨st, hloop, hst⟩ := foldlM_pure (M := Option)
      (f := releaseSlot (some root) o level t base) (l := finRange 512) (b := (m, 0))
      (I := fun done st => st.2 = (done.map (slotSize m level t)).sum
        ∧ Removed place root kernel spaces o (BelowSlots level base done) st.2 m st.1)
      ⟨rfl, h, Pruned.refl m, rfl⟩
      (by
        intro done s rest st hsplit hst
        have hdone : s ∉ done := by
          have hnodup := nodup_finRange 512
          rw [hsplit] at hnodup
          exact fun hmem => (nodup_append.mp hnodup).2.2 s hmem s (mem_cons_self ..) rfl
        obtain ⟨m₂, hval, hrem⟩ := releaseSlot_spec (ih (by omega)) h ho ht hplace (by omega)
          hbase hdone hst.2
        refine ⟨(m₂, st.2 + slotSize m level t s), hval, ?_, hrem⟩
        rw [map_append, sum_append, ← hst.1, map_singleton, sum_singleton])
    obtain ⟨m₁, k⟩ := st
    obtain ⟨hk, hrem⟩ := hst
    -- the table itself is left, without a link
    have hbelow : ∀ p, BelowSlots level base (finRange 512) p → Below (level + 1) base p :=
      fun p ⟨s, _, hp⟩ => hp.slot
    have ht₁ : Tab m₁ o t := by
      refine hrem.pruned.tab ht (fun _ => ?_)
      rw [hplace]
      intro ⟨s', _, hp⟩
      have : level + 1 ≤ level := hp.1
      omega
    obtain ⟨m₂, hval, hrem₂⟩ :=
      releaseOwnedTable_spec hrem.owned ho ht₁ (hrem.pruned.unlinked hunlinked)
    have hsize : k + 1 = treeSize m (level + 1) t := by
      rw [treeSize_succ, ← hk, Nat.add_comm]
    have hloop' : releaseUserTable (some root) o (level + 1) t base m = some (m₁, k) := by
      rw [releaseUserTable_succ]
      exact hloop
    rw [← hsize]
    refine ⟨m₂, ?_, (hrem.mono hbelow).trans (hrem₂.mono (fun p heq => ?_))⟩
    · rw [releaseFrame, if_neg (Nat.succ_ne_zero level)]
      simp only [hloop', hval]
    · rw [heq, hplace]
      exact below_self _ _

/-! ## §3. Destroying a space. -/

/-- No entry links a root. -/
theorem Owned.root_unlinked (h : Owned m root kernel place spaces) (ht : Tab m o t)
    (hroot : (place t).1 = 4) : Unlinked m place t := by
  intro o' t' s ho' ht' hs hne hframe
  have hlink := h.link ho' ht' hs hne
  rw [hframe] at hlink
  have hpos := (hlink.unique h.mem (.inl ⟨ht, rfl⟩)).2
  have hlevel : (place t').1 - 1 = (place t).1 := congrArg Prod.fst hpos
  have := (h.tables o' t' ho' ht').base.level_le
  omega

/-- All frames of `o` were released, and no others. -/
structure Destroyed (place : Place) (root : Nat) (kernel : Nat → Nat → Prop)
    (spaces : List AddressSpace) (o : Owner) (m m' : MemoryState words n) : Prop where
  owned : Owned m' root kernel place spaces
  rooted : Rooted m' place
  frames : m'.grants.ownerFrames o = 0
  records : ∀ slot x, m'.grants.Held slot x ↔ m.grants.Held slot x ∧ x.owner ≠ o

theorem Removed.destroyed {Q : Nat × Nat → Prop} (h : Removed place root kernel spaces o Q k m m')
    (hrooted : Rooted m place) (hk : m.grants.ownerFrames o = k) : Destroyed place root kernel spaces o m m' := by
  have hzero : m'.grants.ownerFrames o = 0 := by
    have := h.frames
    omega
  have hgone := Ledger.ownerFrames_eq_zero.mp hzero
  refine ⟨h.owned, ?_, hzero, fun slot x => ⟨fun hx => ⟨h.pruned.held slot x hx, hgone slot x hx⟩,
    fun hx => h.pruned.kept slot x hx.1 (fun ho => absurd ho hx.2)⟩⟩
  -- the tables of other owners keep their parents
  intro o' c ho' hc
  have hother : o' ≠ o := by
    obtain ⟨slot, x, hx, -, howner, -⟩ := hc
    exact fun heq => hgone slot x hx (howner.trans heq)
  rcases hrooted o' c ho' (h.pruned.tab_old hc) with hroot | ⟨t, s, ht, hs, he⟩
  · exact .inl hroot
  have ht' : Tab m' o' t := h.pruned.tab ht (fun heq => absurd heq hother)
  refine .inr ⟨t, s, ht', hs, ?_⟩
  rw [h.pruned.entries o' t s ho' ht' (fun heq => absurd heq hother)]
  exact he

section Destroy

variable {c : Machine words n} {space : AddressSpace}

/-- The end of the destruction, when only the root is left. -/
theorem releaseRoot_spec (c : Machine words n) {Q : Nat × Nat → Prop}
    (hok : SpaceOk m place space) (hlive : m.grants.isLive space.authority = true)
    (hrooted : Rooted m place) (hrem : Removed place root kernel spaces space.owner Q k m m')
    (hQ : ¬ Q (4, 0)) (hk : m.grants.ownerFrames space.owner = k + 1) :
    ∃ m'', releaseRoot c space m' k = some ({ c with memory := m'' }, .ok (k + 1))
      ∧ Destroyed place root kernel spaces space.owner m m'' := by
  obtain ⟨r, hr, hrg, haddress, howner, hkind⟩ := hok.authority_held hlive
  have hplaced := hok.placed hlive
  have hr' : m'.grants.Held space.authority.slot r := by
    refine hrem.pruned.kept _ r hr (fun _ => ?_)
    simp only [position, hkind, haddress, hplaced]
    exact hQ
  have hunlinked : Unlinked m' place r.address := by
    refine hrem.owned.root_unlinked ⟨_, r, hr', rfl, rfl, hkind⟩ ?_
    rw [haddress, hplaced]
  obtain ⟨m'', hval, hlast⟩ := freeFrame_table hrem.owned hr' hrg (howner ▸ hok.notKernel) hkind
    hunlinked
  rw [howner] at hlast
  have hall : Removed place root kernel spaces space.owner (fun _ => True) (k + 1) m m'' :=
    (hrem.mono (fun _ _ => trivial)).trans (hlast.mono (fun _ _ => trivial))
  have hdestroyed := hall.destroyed hrooted hk
  exact ⟨m'', by simp only [releaseRoot, hval, hdestroyed.frames, if_true], hdestroyed⟩

theorem releaseFrame_inv {sealedRoot : Option Nat} (hlevel : level ≠ 0)
    (h : releaseFrame sealedRoot o level f base m = some (m', k)) :
    ∃ m₁ j, releaseUserTable sealedRoot o level f base m = some (m₁, j)
      ∧ releaseOwnedTable m₁ o f = (m', true) ∧ k = j + 1 := by
  rw [releaseFrame, if_neg hlevel] at h
  split at h
  · cases h
  rename_i m₁ j hloop
  split at h
  · cases h
  rename_i m₂ htable
  cases h
  exact ⟨m₁, j, hloop, htable, rfl⟩

/-- **Destroying a space.**  The call never fails an assertion.  It refuses and
changes nothing, or it releases exactly the frames of the owner. -/
theorem destroyUserAddressSpace_spec (h : Owned c.memory root kernel place spaces)
    (hrooted : Rooted c.memory place) (hsealed : c.sealedRoot = some root)
    (hspace : space ∈ spaces) :
    (∃ e, destroyUserAddressSpace c space = some (c, .error e))
      ∨ ∃ m', destroyUserAddressSpace c space
          = some ({ c with memory := m' }, .ok (c.memory.grants.ownerFrames space.owner))
        ∧ Destroyed place root kernel spaces space.owner c.memory m' := by
  have hok := h.spacesOk space hspace
  have ho := hok.notKernel
  by_cases hdead : c.memory.grants.isLive space.authority = false
  · exact .inl ⟨.invalidAddress, by simp only [destroyUserAddressSpace, if_pos hdead]⟩
  by_cases hactive : c.activeRoot = space.root
  · exact .inl ⟨.activeAddressSpace, by
      simp only [destroyUserAddressSpace, if_neg hdead, if_pos hactive]⟩
  have hlive : c.memory.grants.isLive space.authority = true := by simpa using hdead
  have hplaced := hok.placed hlive
  have ht := hok.tab hlive
  have hshared : ¬ Shared (place space.root).1 userPml4Index := fun hs => hs.2 rfl
  cases hpresent : has (c.memory.contents space.root userPml4Index) present with
  | false =>
    by_cases hone : c.memory.grants.ownerFrames space.owner = 1
    · have hnone : Removed place root kernel spaces space.owner (fun _ => False) 0 c.memory
          c.memory := ⟨h, Pruned.refl _, rfl⟩
      obtain ⟨m', hval, hdestroyed⟩ := releaseRoot_spec c hok hlive hrooted hnone id hone
      refine .inr ⟨m', ?_, hdestroyed⟩
      simp only [destroyUserAddressSpace, if_neg hdead, if_neg hactive, hpresent,
        Bool.false_eq_true, if_false, hone, ne_eq, not_true_eq_false, hval]
    · exact .inl ⟨.invalidAddress, by simp only [destroyUserAddressSpace, if_neg hdead, if_neg hactive,
        hpresent, Bool.false_eq_true, if_false, ne_eq, hone, not_false_eq_true, if_true]⟩
  | true =>
    by_cases hbad : has (c.memory.contents space.root userPml4Index) hugeOrPat = true
        ∨ has (c.memory.contents space.root userPml4Index) user = false
    · exact .inl ⟨.invalidAddress, by simp only [destroyUserAddressSpace, if_neg hdead, if_neg hactive,
        hpresent, if_true, if_pos hbad]⟩
    -- the user half of the space is one subtree at `userBase`
    have hne := has_present_ne_zero hpresent
    have hposition : linked place space.root userPml4Index = (3, userBase) := by
      unfold linked
      rw [hplaced]
      rfl
    have hstands := h.link ho ht hshared hne
    have hstands : Stands c.memory place space.owner
        (frameOf (c.memory.contents space.root userPml4Index)) (3, userBase) := by
      rw [← hposition]
      exact hstands
    have hvalid := validateFrame_eq h ho 3 _ _ (Nat.le_refl 3) hstands (by decide)
    rw [validateFrame, if_neg (by decide)] at hvalid
    by_cases hcount : c.memory.grants.ownerFrames space.owner
        = treeSize c.memory 3 (frameOf (c.memory.contents space.root userPml4Index)) + 1
    · obtain ⟨hunlinked, hclear⟩ := h.clear ho ht hshared hne
      have hsize := treeSize_congr h ho hclear.pruned 3 _ _ (Nat.le_refl 3) hstands hstands
        (fun p _ hp heq => hp (heq.trans hposition))
      obtain ⟨m₂, hval, hrem⟩ := releaseFrame_spec ho 3 (Nat.le_refl 3) _ _ _ hclear.owned
        hstands (by decide) hunlinked
      rw [hsize] at hval hrem
      have hall := (hclear.mono (fun p heq => by
        rw [heq, hposition]
        exact below_self 3 userBase)).trans hrem
      rw [Nat.zero_add] at hall
      obtain ⟨m₁, j, hloop, htable, hj⟩ := releaseFrame_inv (by decide) hval
      obtain ⟨m', hlast, hdestroyed⟩ := releaseRoot_spec c hok hlive hrooted hall
        (fun hbelow => absurd hbelow.1 (by decide)) hcount
      refine .inr ⟨m', ?_, hdestroyed⟩
      rw [hj] at hlast
      simp only [destroyUserAddressSpace, if_neg hdead, if_neg hactive, hpresent, if_true,
        if_neg hbad, hvalid, ne_eq, hcount, not_true_eq_false, if_false, hsealed, hloop, htable]
      rw [hlast, hj, hsealed]
    · refine .inl ⟨.invalidAddress, ?_⟩
      simp only [destroyUserAddressSpace, if_neg hdead, if_neg hactive, hpresent, if_true,
        if_neg hbad, hvalid, ne_eq, hcount, not_false_eq_true]

end Destroy

end GenOS.Paging
