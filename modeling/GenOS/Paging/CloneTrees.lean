/-
  GenOS.Paging.CloneTrees — trees of allocated tables and their release.

  `Built` says of a list of tables that they form a tree, slot by slot in the
  order of the loops; such a tree depends on its own tables only (`Built.frame`,
  `Built.translate_frame`).  `releaseClone_released` gives exactly those tables
  back.  `Allocated` and `Released` say what a part of a run did to the memory.
-/
import GenOS.Paging.TableClone

namespace GenOS.PageTable

open List Function

open GenOS.Lib.Masks (has has_eq_false)

/-! ## §1. The entries of a clone. -/

variable {flag t root : BitVec 64} {level : Nat} {ids ids' : List (BitVec 64)} {table : Table}

theorem has_congr {word word' : BitVec 64} (h : word &&& flag = word' &&& flag) :
    has word flag = has word' flag := by
  unfold has
  rw [h]

/-- Clearing other bits keeps a flag. -/
theorem clear_and {word bits : BitVec 64} (h : ~~~bits &&& flag = flag) :
    (word &&& ~~~bits) &&& flag = word &&& flag := by
  rw [BitVec.and_assoc, h]

theorem zero_has (flag : BitVec 64) : has 0 flag = false :=
  has_eq_false.mpr BitVec.zero_and

section Child

variable {child entry : BitVec 64} (haligned : child &&& addressMask = child)

/-- The entry that `clone_supervisor` writes for a child. -/
def childEntry (child entry : BitVec 64) : BitVec 64 :=
  child ||| (entry &&& ~~~addressMask &&& ~~~user)

/-- A number within the address field has no bit outside it. -/
theorem aligned_and (hflag : addressMask &&& flag = 0#64)
    (haligned : child &&& addressMask = child) : child &&& flag = 0#64 := by
  rw [← haligned, BitVec.and_assoc, hflag, BitVec.and_zero]

include haligned

/-- Flags outside the address field other than the user bit are the source's. -/
theorem childEntry_flag (hflag : addressMask &&& flag = 0#64)
    (hkept : ~~~addressMask &&& flag = flag) (hother : ~~~user &&& flag = flag) :
    has (childEntry child entry) flag = has entry flag := by
  apply has_congr
  unfold childEntry
  rw [BitVec.and_comm, BitVec.and_or_distrib_left, BitVec.and_comm flag child,
    aligned_and hflag haligned, BitVec.zero_or, BitVec.and_comm, clear_and hother,
    clear_and hkept]

theorem childEntry_address : childEntry child entry &&& addressMask = child := by
  have hflags : ~~~addressMask &&& (~~~user &&& addressMask) = 0#64 := by decide
  have hnone : entry &&& ~~~addressMask &&& ~~~user &&& addressMask = 0#64 := by
    rw [BitVec.and_assoc, BitVec.and_assoc, hflags, BitVec.and_zero]
  unfold childEntry
  rw [BitVec.and_comm, BitVec.and_or_distrib_left, BitVec.and_comm addressMask child, haligned,
    BitVec.and_comm addressMask, hnone, BitVec.or_zero]

theorem childEntry_flags :
    childEntry child entry &&& ~~~addressMask = entry &&& ~~~addressMask &&& ~~~user := by
  have hnone : child &&& ~~~addressMask = 0#64 := aligned_and (by decide) haligned
  have hflags : ~~~addressMask &&& (~~~user &&& ~~~addressMask) = ~~~addressMask &&& ~~~user := by
    decide
  unfold childEntry
  rw [BitVec.and_comm, BitVec.and_or_distrib_left, BitVec.and_comm _ child, hnone,
    BitVec.zero_or, BitVec.and_comm, BitVec.and_assoc, BitVec.and_assoc, hflags,
    BitVec.and_assoc]

end Child

theorem supervisor_present (entry : BitVec 64) :
    has (entry &&& ~~~user) present = has entry present :=
  has_congr (clear_and (by decide))

/-- Whether an entry is a leaf depends on its huge bit only. -/
theorem isLeaf_congr {entry entry' : BitVec 64} (h : has entry huge = has entry' huge) : isLeaf level entry = isLeaf level entry' := by
  unfold isLeaf
  rw [h]

theorem isLeaf_supervisor (level : Nat) (entry : BitVec 64) :
    isLeaf level (entry &&& ~~~user) = isLeaf level entry :=
  isLeaf_congr (has_congr (clear_and (by decide)))

/-! ## §2. Changes of the memory. -/

section Memory

variable {σ : Type} {m : TableMemory σ} (c : Contract m)

/-- From `s` to `s'` exactly these tables were allocated, and no other changed. -/
structure Allocated (s s' : σ) (ids : List (BitVec 64)) : Prop where
  nodup : ids.Nodup
  fresh : ∀ t ∈ ids, c.tables s t = none
  owned : c.owned s' = { t | t ∈ c.owned s ∨ t ∈ ids }
  outside : ∀ t, t ∉ ids → c.tables s' t = c.tables s t

/-- From `s` to `s'` exactly these tables were released, and no other changed. -/
structure Released (s s' : σ) (ids : List (BitVec 64)) : Prop where
  gone : ∀ t ∈ ids, c.tables s' t = none
  owned : c.owned s' = { t | t ∈ c.owned s ∧ t ∉ ids }
  outside : ∀ t, t ∉ ids → c.tables s' t = c.tables s t

variable {c}

theorem Allocated.live {s s' : σ} (h : Allocated c s s' ids) (ht : t ∈ ids) : c.tables s' t ≠ none := by
  apply c.ownedLive
  rw [h.owned]
  exact .inr ht

theorem Allocated.none {s s' : σ} (htables : c.tables s' = c.tables s)
    (howned : c.owned s' = c.owned s) : Allocated c s s' [] where
  nodup := nodup_nil
  fresh := fun _ h => absurd h not_mem_nil
  owned := by simp [howned]
  outside := fun _ _ => by rw [htables]

theorem Allocated.one {s s' : σ} (h : m.allocate s = (some t, s')) :
    Allocated c s s' [t] := by
  obtain ⟨hfresh, -, htables, howned⟩ := c.allocateSome s s' t h
  refine ⟨nodup_singleton t, ?_, ?_, ?_⟩
  · intro u hu
    rw [mem_singleton.mp hu]
    exact hfresh
  · rw [howned]
    ext u
    simp [or_comm]
  · intro u hu
    rw [htables]
    exact update_of_ne (fun h => hu (mem_singleton.mpr h)) _ _

theorem Allocated.append {s s₁ s₂ : σ} (h : Allocated c s s₁ ids) (h' : Allocated c s₁ s₂ ids') : Allocated c s s₂ (ids ++ ids') := by
  -- a table of the second list was not live, a table of the first was
  have hapart : ∀ t ∈ ids, t ∉ ids' := fun t ht ht' => h.live ht (h'.fresh t ht')
  refine ⟨?_, ?_, ?_, ?_⟩
  · exact List.Nodup.append h.nodup h'.nodup fun t ht ht' => hapart t ht ht'
  · intro t ht
    rcases mem_append.mp ht with ht | ht
    · exact h.fresh t ht
    · rw [← h.outside t fun hmem => hapart t hmem ht]
      exact h'.fresh t ht
  · rw [h'.owned, h.owned]
    ext t
    simp [or_assoc]
  · intro t ht
    rw [mem_append, not_or] at ht
    rw [h'.outside t ht.2, h.outside t ht.1]

/-- Writing one of the new tables. -/
theorem Allocated.write {s s₁ : σ} (h : Allocated c s s₁ ids) (ht : t ∈ ids)
    (hlive : c.tables s₁ t = some table) (slot : Fin 512) (entry : BitVec 64) : Allocated c s (m.write s₁ t slot entry) ids := by
  have hwrite := c.write s₁ t table slot entry hlive
  refine ⟨h.nodup, h.fresh, hwrite.2.trans h.owned, ?_⟩
  intro u hu
  have hne : u ≠ t := by
    rintro rfl
    exact hu ht
  rw [hwrite.1, update_of_ne hne]
  exact h.outside u hu

/-- Giving back what was allocated restores the memory. -/
theorem Allocated.released {s s₁ s₂ : σ} (h : Allocated c s s₁ ids)
    (hreleased : Released c s₁ s₂ ids) : c.tables s₂ = c.tables s ∧ c.owned s₂ = c.owned s := by
  constructor
  · funext t
    by_cases ht : t ∈ ids
    · rw [hreleased.gone t ht, h.fresh t ht]
    · rw [hreleased.outside t ht, h.outside t ht]
  · rw [hreleased.owned, h.owned]
    ext t
    show (t ∈ c.owned s ∨ t ∈ ids) ∧ t ∉ ids ↔ t ∈ c.owned s
    constructor
    · intro ht
      exact ht.1.resolve_right ht.2
    · intro ht
      exact ⟨.inl ht, fun hmem => c.ownedLive s t ht (h.fresh t hmem)⟩

theorem Released.refl (s : σ) : Released c s s [] where
  gone := fun _ h => absurd h not_mem_nil
  owned := by simp
  outside := fun _ _ => rfl

theorem Released.append {s s₁ s₂ : σ} (h : Released c s s₁ ids) (h' : Released c s₁ s₂ ids') : Released c s s₂ (ids ++ ids') := by
  refine ⟨?_, ?_, ?_⟩
  · intro t ht
    by_cases hlast : t ∈ ids'
    · exact h'.gone t hlast
    · rw [h'.outside t hlast]
      exact h.gone t ((mem_append.mp ht).resolve_right hlast)
  · rw [h'.owned, h.owned]
    ext t
    simp [and_assoc]
  · intro t ht
    rw [mem_append, not_or] at ht
    rw [h'.outside t ht.2, h.outside t ht.1]

theorem Released.one {s : σ} (ht : t ∈ c.owned s) :
    Released c s (m.release s t) [t] := by
  have hrelease := c.release s t ht
  refine ⟨?_, ?_, ?_⟩
  · intro u hu
    rw [mem_singleton.mp hu, hrelease.1, update_self]
  · rw [hrelease.2]
    ext u
    simp
  · intro u hu
    rw [hrelease.1, update_of_ne fun heq => hu (mem_singleton.mpr heq)]

theorem Released.perm {s s' : σ} (h : Released c s s' ids) (hperm : ids.Perm ids') : Released c s s' ids' := by
  refine ⟨fun t ht => h.gone t (hperm.mem_iff.mpr ht), ?_,
    fun t ht => h.outside t fun hmem => ht (hperm.mem_iff.mp hmem)⟩
  rw [h.owned]
  ext t
  show t ∈ c.owned s ∧ t ∉ ids ↔ t ∈ c.owned s ∧ t ∉ ids'
  rw [hperm.mem_iff]

theorem Released.still_owned {s s' : σ} (h : Released c s s' ids) (ht : t ∈ c.owned s)
    (hout : t ∉ ids) : t ∈ c.owned s' := by
  rw [h.owned]
  exact ⟨ht, hout⟩

end Memory

/-! ## §3. Trees of tables. -/

/-- The trees below these slots of a table use the tables `ids`, in order.
`Child` relates the address of a child to its tables. -/
inductive BuiltSlots (Child : BitVec 64 → List (BitVec 64) → Prop) (level : Nat) (table : Table) :
    List (Fin 512) → List (BitVec 64) → Prop
  | nil : BuiltSlots Child level table [] []
  | skip {slot slots ids}
      (hnone : has (table slot) present = false ∨ isLeaf level (table slot) = true)
      (hrest : BuiltSlots Child level table slots ids) :
      BuiltSlots Child level table (slot :: slots) ids
  | table {slot slots below ids} (hpresent : has (table slot) present = true)
      (htable : isLeaf level (table slot) = false)
      (hbelow : Child (table slot &&& addressMask) below)
      (hrest : BuiltSlots Child level table slots ids) :
      BuiltSlots Child level table (slot :: slots) (below ++ ids)

/-- The tree uses exactly the tables `ids`, none of them twice. -/
def Built (tables : BitVec 64 → Option Table) : Nat → BitVec 64 → List (BitVec 64) → Prop
  | 0, _, _ => False
  | level + 1, root, ids => ∃ table below, tables root = some table ∧ ids = root :: below
      ∧ BuiltSlots (Built tables level) (level + 1) table allSlots below

section Trees

variable {Child Child' : BitVec 64 → List (BitVec 64) → Prop} {level : Nat} {table : Table}
  {slots slots' : List (Fin 512)} {ids ids' : List (BitVec 64)}

theorem BuiltSlots.imp (h : BuiltSlots Child level table slots ids)
    (himp : ∀ child below, (∀ t ∈ below, t ∈ ids) → Child child below → Child' child below) :
    BuiltSlots Child' level table slots ids := by
  induction h with
  | nil => exact .nil
  | skip hnone _ ih => exact .skip hnone (ih himp)
  | table hpresent htable hbelow _ ih =>
    refine .table hpresent htable ?_ (ih ?_)
    · exact himp _ _ (fun t ht => mem_append_left _ ht) hbelow
    · intro child below hsub
      exact himp child below fun t ht => mem_append_right _ (hsub t ht)

theorem BuiltSlots.append (h : BuiltSlots Child level table slots ids)
    (h' : BuiltSlots Child level table slots' ids') :
    BuiltSlots Child level table (slots ++ slots') (ids ++ ids') := by
  induction h with
  | nil => exact h'
  | skip hnone _ ih => exact .skip hnone ih
  | table hpresent htable hbelow _ ih =>
    rw [append_assoc]
    exact .table hpresent htable hbelow ih

/-- Slots that were not written hold no tables. -/
theorem BuiltSlots.zero (hzero : ∀ slot ∈ slots, table slot = 0) :
    BuiltSlots Child level table slots [] := by
  induction slots with
  | nil => exact .nil
  | cons slot slots ih =>
    refine .skip (.inl ?_) (ih fun slot hslot => hzero slot (mem_cons_of_mem _ hslot))
    rw [hzero slot mem_cons_self]
    exact zero_has present

/-- At level 1 there is nothing below the table. -/
theorem BuiltSlots.level_one (h : BuiltSlots Child 1 table slots ids) : ids = [] := by
  induction h with
  | nil => rfl
  | skip _ _ ih => exact ih
  | table _ htable _ _ _ =>
    unfold isLeaf at htable
    cases htable

variable (h : BuiltSlots Child level table slots ids)

include h

/-- The tree of a child is among the trees below. -/
theorem BuiltSlots.child {slot : Fin 512} (hslot : slot ∈ slots)
    (hpresent : has (table slot) present = true) (htable : isLeaf level (table slot) = false) :
    ∃ below, Child (table slot &&& addressMask) below ∧ ∀ t ∈ below, t ∈ ids := by
  induction h with
  | nil => exact absurd hslot not_mem_nil
  | skip hnone _ ih =>
    rcases mem_cons.mp hslot with rfl | hslot
    · rw [hpresent, htable] at hnone
      simp at hnone
    · exact ih hslot
  | @table _ _ below ids _ _ hbelow _ ih =>
    rcases mem_cons.mp hslot with rfl | hslot
    · exact ⟨below, hbelow, fun t ht => mem_append_left _ ht⟩
    · obtain ⟨below', hchild, hsub⟩ := ih hslot
      exact ⟨below', hchild, fun t ht => mem_append_right _ (hsub t ht)⟩

/-- A table below is of the tree of a child. -/
theorem BuiltSlots.exists_child (ht : t ∈ ids) :
    ∃ slot, has (table slot) present = true ∧ isLeaf level (table slot) = false
      ∧ ∃ below, Child (table slot &&& addressMask) below ∧ t ∈ below := by
  induction h with
  | nil => exact absurd ht not_mem_nil
  | skip _ _ ih => exact ih ht
  | table hpresent htable hbelow _ ih =>
    rcases mem_append.mp ht with ht | ht
    · exact ⟨_, hpresent, htable, _, hbelow, ht⟩
    · exact ih ht

theorem BuiltSlots.congr {table' : Table} (hsame : ∀ slot ∈ slots, table' slot = table slot) :
    BuiltSlots Child level table' slots ids := by
  induction h with
  | nil => exact .nil
  | @skip slot _ _ hnone _ ih =>
    have hslot := hsame slot mem_cons_self
    refine .skip ?_ (ih fun slot hmem => hsame slot (mem_cons_of_mem _ hmem))
    rw [hslot]
    exact hnone
  | @table slot _ _ _ hpresent htable hbelow _ ih =>
    have hslot := hsame slot mem_cons_self
    rw [← hslot] at hpresent htable hbelow
    exact .table hpresent htable hbelow
      (ih fun slot hmem => hsame slot (mem_cons_of_mem _ hmem))

end Trees

section Frames

variable {tables tables' : BitVec 64 → Option Table}

/-- A tree depends on its own tables only. -/
theorem Built.frame (h : Built tables level root ids) (hsame : ∀ t ∈ ids, tables' t = tables t) :
    Built tables' level root ids := by
  induction level generalizing root ids with
  | zero => exact h
  | succ level ih =>
    obtain ⟨table, below, hroot, rfl, hslots⟩ := h
    refine ⟨table, below, ?_, rfl, ?_⟩
    · rw [hsame root mem_cons_self]
      exact hroot
    · refine hslots.imp fun child ids hsub hchild => ih hchild ?_
      intro t ht
      exact hsame t (mem_cons_of_mem _ (hsub t ht))

theorem BuiltSlots.frame {upper : Nat} {slots : List (Fin 512)}
    (h : BuiltSlots (Built tables level) upper table slots ids)
    (hsame : ∀ t ∈ ids, tables' t = tables t) :
    BuiltSlots (Built tables' level) upper table slots ids :=
  h.imp fun _ _ hsub hchild => hchild.frame fun t ht => hsame t (hsub t ht)

/-- The translation through an entry depends on the translation of its child. -/
theorem translateEntry_congr {below below' : BitVec 64 → Option Translation}
    {entry : BitVec 64} (h : has entry present = true → isLeaf level entry = false →
      below' (entry &&& addressMask) = below (entry &&& addressMask)) :
    translateEntry below' level entry = translateEntry below level entry := by
  unfold translateEntry
  cases hpresent : has entry present with
  | false => rfl
  | true =>
    cases hleaf : isLeaf level entry with
    | true => rfl
    | false => rw [h hpresent hleaf]

theorem Built.translate_frame (h : Built tables level root ids)
    (hsame : ∀ t ∈ ids, tables' t = tables t) (address : BitVec 64) :
    translate tables' address level root = translate tables address level root := by
  induction level generalizing root ids with
  | zero => rfl
  | succ level ih =>
    obtain ⟨table, below, hroot, rfl, hslots⟩ := h
    unfold translate
    rw [hsame root mem_cons_self, hroot]
    apply translateEntry_congr
    intro hpresent htable
    obtain ⟨ids, hchild, hsub⟩ := hslots.child (mem_allSlots _) hpresent htable
    exact ih hchild fun t ht => hsame t (mem_cons_of_mem _ (hsub t ht))

theorem BuiltSlots.translateEntry_frame {upper : Nat} {slots : List (Fin 512)}
    (h : BuiltSlots (Built tables level) upper table slots ids)
    (hsame : ∀ t ∈ ids, tables' t = tables t) {slot : Fin 512} (hslot : slot ∈ slots)
    (address : BitVec 64) :
    translateEntry (translate tables' address level) upper (table slot)
      = translateEntry (translate tables address level) upper (table slot) := by
  apply translateEntry_congr
  intro hpresent htable
  obtain ⟨ids, hchild, hsub⟩ := h.child hslot hpresent htable
  exact hchild.translate_frame (fun t ht => hsame t (hsub t ht)) address

/-- The list of a tree holds its tables. -/
theorem Built.tablesOf (h : Built tables level root ids) : tablesOf tables level root = { t | t ∈ ids } := by
  induction level generalizing root ids with
  | zero => exact h.elim
  | succ level ih =>
    obtain ⟨table, below, hroot, rfl, hslots⟩ := h
    ext t
    constructor
    · rintro (rfl | ⟨table', slot, hroot', hpresent, htable, ht⟩)
      · exact mem_cons_self
      obtain rfl : table = table' := Option.some.inj (hroot.symm.trans hroot')
      obtain ⟨ids, hchild, hsub⟩ := hslots.child (mem_allSlots slot) hpresent htable
      rw [ih hchild] at ht
      exact mem_cons_of_mem _ (hsub t ht)
    · intro ht
      rcases mem_cons.mp ht with rfl | ht
      · exact .inl rfl
      obtain ⟨slot, hpresent, htable, ids, hchild, hmem⟩ := hslots.exists_child ht
      refine .inr ⟨table, slot, hroot, hpresent, htable, ?_⟩
      rw [ih hchild]
      exact hmem

/-- The tables of a valid tree are live. -/
theorem ValidTree.live (h : ValidTree tables level root) (ht : t ∈ tablesOf tables level root) : tables t ≠ none := by
  induction level generalizing root with
  | zero => exact h.elim
  | succ level ih =>
    obtain ⟨table, hroot, hslots⟩ := h
    rcases ht with rfl | ⟨table', slot, hroot', hpresent, htable, ht⟩
    · rw [hroot]
      nofun
    · obtain rfl : table = table' := Option.some.inj (hroot.symm.trans hroot')
      exact ih ((hslots slot hpresent).2 htable) ht

end Frames

/-! ## §4. Releasing a tree. -/

section Release

variable {σ : Type} {m : TableMemory σ} {c : Contract m}

/-- The test of `release_clone` above level 1 finds the children. -/
theorem releases_iff (hlevel : 1 < level) (entry : BitVec 64) :
    (has entry present && !(decide (level ≤ 3) && has entry huge)) = true
      ↔ has entry present = true ∧ isLeaf level entry = false := by
  have hone : (level == 1) = false := beq_eq_false_iff_ne.mpr (by omega)
  unfold isLeaf
  rw [hone, Bool.false_or, Bool.and_eq_true, Bool.not_eq_true']

/-- Releasing the children of the remaining slots. -/
theorem releaseSlots_released (hlevel : 1 < level)
    {releaseChild : BitVec 64 → σ → σ} {below : Nat}
    (hchild : ∀ (s : σ) (root : BitVec 64) (ids : List (BitVec 64)),
      Built (c.tables s) below root ids → ids.Nodup → (∀ t ∈ ids, t ∈ c.owned s) →
        Released c s (releaseChild root s) ids)
     (slots : List (Fin 512)) (ids : List (BitVec 64)) (s : σ)
    (hroot : c.tables s root = some table) (hout : root ∉ ids) (hnodup : ids.Nodup)
    (howned : ∀ t ∈ ids, t ∈ c.owned s)
    (hslots : BuiltSlots (Built (c.tables s) below) level table slots ids) :
    Released c s (releaseSlots m level releaseChild root slots s) ids := by
  induction slots generalizing s ids with
  | nil =>
    cases hslots
    exact .refl s
  | cons slot slots ih =>
    unfold releaseSlots
    rw [c.read s root table slot hroot]
    dsimp only
    cases hslots with
    | skip hnone hrest =>
      have htest : ¬(has (table slot) present
          && !(decide (level ≤ 3) && has (table slot) huge)) = true := by
        rw [releases_iff hlevel]
        rcases hnone with hnone | hnone
        · simp [hnone]
        · simp [hnone]
      rw [if_neg htest]
      exact ih ids s hroot hout hnodup howned hrest
    | @table _ _ first ids hpresent htable hbelow hrest =>
      rw [if_pos ((releases_iff hlevel _).mpr ⟨hpresent, htable⟩)]
      rw [nodup_append] at hnodup
      obtain ⟨hfirst, hlater, hapart⟩ := hnodup
      rw [mem_append, not_or] at hout
      have hgone := hchild s _ first hbelow hfirst
        fun t ht => howned t (mem_append_left _ ht)
      have hkeeps : ∀ t ∈ ids, t ∉ first := fun t ht hmem => hapart t hmem t ht rfl
      refine hgone.append (ih ids _ ?_ hout.2 hlater ?_ ?_)
      · rw [hgone.outside root hout.1]
        exact hroot
      · intro t ht
        exact hgone.still_owned (howned t (mem_append_right _ ht)) (hkeeps t ht)
      · exact hrest.frame fun t ht => hgone.outside t (hkeeps t ht)

/-- `release_clone` gives back the tables of a tree, and only those. -/
theorem releaseClone_released (level : Nat) (s : σ) (root : BitVec 64) (ids : List (BitVec 64))
    (hbuilt : Built (c.tables s) level root ids) (hnodup : ids.Nodup)
    (howned : ∀ t ∈ ids, t ∈ c.owned s) : Released c s (releaseClone m level root s) ids := by
  induction level generalizing s root ids with
  | zero => exact hbuilt.elim
  | succ level ih =>
    obtain ⟨table, below, hroot, rfl, hslots⟩ := hbuilt
    have hmine := howned root mem_cons_self
    cases level with
    | zero =>
      cases hslots.level_one
      exact .one hmine
    | succ level =>
      rw [nodup_cons] at hnodup
      have hloop := releaseSlots_released (by omega) ih allSlots below s hroot
        hnodup.1 hnodup.2 (fun t ht => howned t (mem_cons_of_mem _ ht)) hslots
      have hall := hloop.append (.one (hloop.still_owned hmine hnodup.1))
      -- the root goes last, after its children
      exact hall.perm (perm_append_singleton root below)

end Release

end GenOS.PageTable
