/-
  GenOS.Paging.Ownership — the invariant of user address spaces.

  Every live user table has a place: its level and the first address it maps.
  The invariant is local to a table: a non-zero entry links a table or a page
  of the same owner whose place is the one the entry stands for.  So the place
  of a frame determines the only entry that may link it, and no frame is
  linked twice (`Owned.link_unique`).
-/
import GenOS.Paging.Entries

namespace GenOS.Paging

open GenOS.Lib GenOS.Memory
open GenOS.Lib.Masks (has has_eq_false)

variable {words n : Nat} {m m' : MemoryState words n}

/-! ## §1. Frames of an owner. -/

/-- Frame `t` is a live table of `o`. -/
def Tab (m : MemoryState words n) (o : Owner) (t : Nat) : Prop :=
  ∃ slot r, m.grants.Held slot r ∧ r.address = t ∧ r.owner = o ∧ r.kind = .table

/-- Frame `f` is a live page of `o`, bound to address `va` (`0` if unbound). -/
def Usr (m : MemoryState words n) (o : Owner) (f va : Nat) : Prop :=
  ∃ slot r, m.grants.Held slot r ∧ r.address = f ∧ r.owner = o ∧ r.kind = .user ∧ r.mappedAt = va

section Frames

variable {o o' : Owner} {t f va va' : Nat}

variable (h : MemInv m)

include h

theorem Tab.live (ht : Tab m o t) : LiveAt m.allocator t := by
  obtain ⟨slot, r, hr, haddress, -⟩ := ht
  exact (h.coupled t).mpr ⟨slot, r, hr, haddress⟩

theorem Tab.owner_unique (ht : Tab m o t) (ht' : Tab m o' t) : o = o' := by
  obtain ⟨slot, r, hr, haddress, howner, -⟩ := ht
  obtain ⟨slot', r', hr', haddress', howner', -⟩ := ht'
  have := (h.held_unique hr hr' (haddress.trans haddress'.symm)).2
  rw [← howner, ← howner', this]

theorem Tab.not_usr (ht : Tab m o t) : ¬ Usr m o' t va := by
  intro hu
  obtain ⟨slot, r, hr, haddress, -, hkind⟩ := ht
  obtain ⟨slot', r', hr', haddress', -, hkind', -⟩ := hu
  have := (h.held_unique hr hr' (haddress.trans haddress'.symm)).2
  rw [this, hkind'] at hkind
  cases hkind

theorem Usr.unique (hu : Usr m o f va) (hu' : Usr m o' f va') : o = o' ∧ va = va' := by
  obtain ⟨slot, r, hr, haddress, howner, -, hmapped⟩ := hu
  obtain ⟨slot', r', hr', haddress', howner', -, hmapped'⟩ := hu'
  have := (h.held_unique hr hr' (haddress.trans haddress'.symm)).2
  exact ⟨by rw [← howner, ← howner', this], by rw [← hmapped, ← hmapped', this]⟩

theorem Usr.live (hu : Usr m o f va) : LiveAt m.allocator f := by
  obtain ⟨slot, r, hr, haddress, -⟩ := hu
  exact (h.coupled f).mpr ⟨slot, r, hr, haddress⟩

end Frames

/-! ## §2. Places. -/

/-- The place of a table: its level and the first address it maps. -/
abbrev Place := Nat → Nat × Nat

/-- Places that occur: a root maps everything, the tables below it map the
user range. -/
structure BaseOk (level base : Nat) : Prop where
  level_pos : 1 ≤ level
  level_le : level ≤ 4
  root : level = 4 → base = 0
  aligned : level ≠ 4 → base % (512 * span level) = 0
  low : level ≠ 4 → userBase ≤ base
  high : level ≠ 4 → base + 512 * span level ≤ userBase + 2 ^ 39

/-- The slots a root shares with the kernel. -/
def Shared (level : Nat) (s : Fin 512) : Prop := level = 4 ∧ s ≠ userPml4Index

/-- What an entry of a table at `(level, base)` may be. -/
def EntryOk (m : MemoryState words n) (place : Place) (o : Owner) (level base : Nat) (s : Fin 512)
    (e : BitVec 64) : Prop :=
  e = 0#64
    ∨ (level = 1 ∧ ∃ f w x, e = leafEntry f w x ∧ ¬ (w = true ∧ x = true)
      ∧ Usr m o f (base + s * span 1))
    ∨ (2 ≤ level ∧ ∃ c, e = tableEntry c ∧ Tab m o c
      ∧ place c = (level - 1, base + s * span level))

structure TableOk (m : MemoryState words n) (place : Place) (o : Owner) (t : Nat) : Prop where
  base : BaseOk (place t).1 (place t).2
  shared : ∀ s, Shared (place t).1 s → has (m.contents t s) user = false
  entries : ∀ s, ¬ Shared (place t).1 s →
    EntryOk m place o (place t).1 (place t).2 s (m.contents t s)

variable {place : Place} {e e' : BitVec 64} {root : Nat} {kernel : Nat → Nat → Prop}

/-- A table stays well formed while its page and what it links stay. -/
theorem TableOk.mono {place' : Place} {o : Owner} {t : Nat} (h : TableOk m place o t)
    (hcontents : m'.contents t = m.contents t) (hplace : place' t = place t)
    (hchild : ∀ s c, m.contents t s = tableEntry c → Tab m o c →
      Tab m' o c ∧ place' c = place c)
    (hleaf : ∀ s f w x va, m.contents t s = leafEntry f w x → Usr m o f va → Usr m' o f va) :
    TableOk m' place' o t := by
  constructor
  · rw [hplace]
    exact h.base
  · intro s hs
    rw [hplace] at hs
    rw [hcontents]
    exact h.shared s hs
  · intro s hs
    rw [hplace] at hs ⊢
    rw [hcontents]
    rcases h.entries s hs with hzero | ⟨hlevel, f, w, x, he, hwx, hu⟩ | ⟨hlevel, c, he, hc, hp⟩
    · exact .inl hzero
    · exact .inr (.inl ⟨hlevel, f, w, x, he, hwx, hleaf s f w x _ he hu⟩)
    · obtain ⟨hc', hp'⟩ := hchild s c he hc
      exact .inr (.inr ⟨hlevel, c, he, hc', hp'.trans hp⟩)

/-! ## §3. The supervisor tables. -/

/-- An entry of a supervisor table may change in its write bit only. -/
def Tweaked (e e' : BitVec 64) : Prop :=
  e' = e ∨ (has e present = true ∧ e' &&& ~~~writable = e &&& ~~~writable)

theorem Tweaked.and_flag {flag : BitVec 64} (h : Tweaked e e')
    (hflag : ~~~writable &&& flag = flag) : e' &&& flag = e &&& flag := by
  rcases h with rfl | ⟨-, h⟩
  · rfl
  · rw [← hflag, ← BitVec.and_assoc, h, BitVec.and_assoc]

theorem Tweaked.has {flag : BitVec 64} (h : Tweaked e e') (hflag : ~~~writable &&& flag = flag) : has e' flag = has e flag := by
  unfold Masks.has
  rw [h.and_flag hflag]

theorem Tweaked.frameOf (h : Tweaked e e') : frameOf e' = frameOf e := by
  unfold Paging.frameOf
  rw [h.and_flag (by decide)]

section Flags

variable {e e' : BitVec 64} (h : Tweaked e e')

include h

theorem Tweaked.has_present : Masks.has e' present = Masks.has e present := h.has (by decide)

theorem Tweaked.has_user : Masks.has e' user = Masks.has e user := h.has (by decide)

theorem Tweaked.has_noExecute : Masks.has e' noExecute = Masks.has e noExecute :=
  h.has (by decide)

theorem Tweaked.has_plain :
    Masks.has e' (user ||| hugeOrPat) = Masks.has e (user ||| hugeOrPat) := h.has (by decide)

end Flags

/-- The tables below the sealed root, by level. -/
structure KernelTree (m : MemoryState words n) (root : Nat) (kernel : Nat → Nat → Prop) :
    Prop where
  top : kernel 4 root
  held : ∀ level t, kernel level t → Tab m .kernel t
  child : ∀ level t s, kernel (level + 1) t → 1 ≤ level → has (m.contents t s) present = true →
    has (m.contents t s) (user ||| hugeOrPat) = false → kernel level (frameOf (m.contents t s))
  supervisor : ∀ s, has (m.contents root s) user = false
  vacant : has (m.contents root userPml4Index) present = false →
    m.contents root userPml4Index = 0#64

/-- The supervisor tables stay, up to write bits. -/
def SameKernel (m m' : MemoryState words n) : Prop :=
  ∀ t, Tab m .kernel t → Tab m' .kernel t ∧ ∀ s, Tweaked (m.contents t s) (m'.contents t s)

section

variable (h : KernelTree m root kernel)

include h

theorem KernelTree.mono (hs : SameKernel m m') : KernelTree m' root kernel := by
  constructor
  · exact h.top
  · exact fun level t ht => (hs t (h.held level t ht)).1
  · intro level t s ht hlevel hpresent hplain
    have htweak := (hs t (h.held _ t ht)).2 s
    rw [htweak.has_present] at hpresent
    rw [htweak.has_plain] at hplain
    rw [htweak.frameOf]
    exact h.child level t s ht hlevel hpresent hplain
  · intro s
    rw [((hs root (h.held 4 root h.top)).2 s).has_user]
    exact h.supervisor s
  · intro habsent
    have htweak := (hs root (h.held 4 root h.top)).2 userPml4Index
    rw [htweak.has_present] at habsent
    rcases htweak with hsame | ⟨hpresent, -⟩
    · rw [hsame]
      exact h.vacant habsent
    · rw [habsent] at hpresent
      cases hpresent

/-- The alias walk stays inside the supervisor tables. -/
theorem aliasTable_kernel (frame : Nat) : ∀ (shifts : List Nat) (current table : Nat),
      kernel (shifts.length + 1) current → aliasTable m frame shifts current = some table →
      kernel 1 table := by
  intro shifts
  induction shifts with
  | nil =>
    intro current table hk hwalk
    cases hwalk
    exact hk
  | cons shift rest ih =>
    intro current table hk hwalk
    simp only [aliasTable] at hwalk
    split at hwalk
    · cases hwalk
    rename_i hgood
    simp only [not_or, Bool.not_eq_false, Bool.not_eq_true] at hgood
    exact ih _ table (h.child _ current _ hk (Nat.succ_le_succ (Nat.zero_le _)) hgood.1
      hgood.2) hwalk

/-- The alias walk does not depend on write bits. -/
theorem aliasTable_congr (hs : SameKernel m m') (frame : Nat) :
    ∀ (shifts : List Nat) (current : Nat),
      kernel (shifts.length + 1) current →
      aliasTable m' frame shifts current = aliasTable m frame shifts current := by
  intro shifts
  induction shifts with
  | nil => exact fun _ _ => rfl
  | cons shift rest ih =>
    intro current hk
    have htweak := (hs current (h.held _ current hk)).2 (index frame shift)
    simp only [aliasTable, htweak.has_present, htweak.has_plain, htweak.frameOf]
    split
    · rfl
    rename_i hgood
    simp only [not_or, Bool.not_eq_false, Bool.not_eq_true] at hgood
    exact ih _ (h.child _ current _ hk (Nat.succ_le_succ (Nat.zero_le _)) hgood.1 hgood.2)

theorem aliasSlot_congr (hs : SameKernel m m') (frame : Nat) :
    aliasSlot m' (some root) frame = aliasSlot m (some root) frame := by
  unfold aliasSlot
  simp only [aliasTable_congr h hs frame [39, 30, 21] root h.top]
  cases hwalk : aliasTable m frame [39, 30, 21] root with
  | none => rfl
  | some table =>
    have hk := aliasTable_kernel h frame [39, 30, 21] root table h.top hwalk
    have htweak := (hs table (h.held _ table hk)).2 (index frame 12)
    simp only [htweak.has_present, htweak.has_user, htweak.has_noExecute, htweak.frameOf]

/-- The alias entry is a present entry of a supervisor table. -/
theorem aliasSlot_some {frame t : Nat} {s : Fin 512}
    (hslot : aliasSlot m (some root) frame = some (t, s)) :
    Tab m .kernel t ∧ has (m.contents t s) present = true := by
  unfold aliasSlot at hslot
  simp only at hslot
  split at hslot
  · cases hslot
  rename_i table hwalk
  split at hslot
  · cases hslot
  rename_i hgood
  simp only [Option.some.injEq, Prod.mk.injEq] at hslot
  obtain ⟨rfl, rfl⟩ := hslot
  simp only [not_or, Bool.not_eq_false] at hgood
  exact ⟨h.held 1 table (aliasTable_kernel h frame [39, 30, 21] root table h.top hwalk), hgood.1⟩

end

/-! ## §4. The invariant. -/

structure SpaceOk (m : MemoryState words n) (place : Place) (sp : AddressSpace) : Prop where
  root : sp.authority.address = sp.root
  owner : sp.authority.owner = sp.owner
  kind : sp.authority.kind = .table
  notKernel : sp.owner ≠ .kernel
  issued : sp.owner.id < m.grants.nextOwner
  older : sp.authority.generation < m.grants.nextGeneration
  placed : m.grants.isLive sp.authority = true → place sp.root = (4, 0)

/-- The record of a live authority. -/
theorem SpaceOk.authority_held {sp : AddressSpace} (hok : SpaceOk m place sp)
    (hlive : m.grants.isLive sp.authority = true) :
    ∃ r, m.grants.Held sp.authority.slot r ∧ r.grant sp.authority.slot = sp.authority
      ∧ r.address = sp.root ∧ r.owner = sp.owner ∧ r.kind = .table := by
  obtain ⟨r, hr, hrg⟩ := Ledger.isLive_iff.mp hlive
  refine ⟨r, hr, hrg, ?_, ?_, ?_⟩
  · rw [← hok.root, ← hrg]
    rfl
  · rw [← hok.owner, ← hrg]
    rfl
  · rw [← hok.kind, ← hrg]
    rfl

theorem SpaceOk.tab {sp : AddressSpace} (hok : SpaceOk m place sp)
    (hlive : m.grants.isLive sp.authority = true) : Tab m sp.owner sp.root := by
  obtain ⟨r, hr, -, hrest⟩ := hok.authority_held hlive
  exact ⟨_, r, hr, hrest⟩

/-- The invariant of all user address spaces that were created. -/
structure Owned (m : MemoryState words n) (root : Nat) (kernel : Nat → Nat → Prop)
    (place : Place) (spaces : List AddressSpace) : Prop where
  mem : MemInv m
  -- sealing refuses memory at or above the user range
  low : ∀ f ∈ pagesOf m.allocator.regions, f < userBase
  tables : ∀ o t, o ≠ .kernel → Tab m o t → TableOk m place o t
  unique : ∀ o t t', o ≠ .kernel → Tab m o t → Tab m o t' → place t = place t' → t = t'
  bound : ∀ o f va, va ≠ 0 → Usr m o f va → (aliasSlot m (some root) f).isSome = true
  owners : ∀ slot r, m.grants.Held slot r → r.owner.id < m.grants.nextOwner
  nextOwner : 0 < m.grants.nextOwner
  spacesOk : ∀ sp ∈ spaces, SpaceOk m place sp
  distinct : spaces.Pairwise (fun sp sp' => sp.owner ≠ sp'.owner)
  kernelOk : KernelTree m root kernel

/-- Frame `f` of `o` stands for position `p`: a table for its place, a page for
the address it is bound to. -/
def Stands (m : MemoryState words n) (place : Place) (o : Owner) (f : Nat) (p : Nat × Nat) :
    Prop :=
  (Tab m o f ∧ place f = p) ∨ ∃ va, Usr m o f va ∧ p = (0, va)

section Invariant

variable {root : Nat} {kernel : Nat → Nat → Prop} {place : Place} {spaces : List AddressSpace}
variable {o o' : Owner} {t t' f : Nat} {s s' : Fin 512}

theorem Owned.frameOk (h : Owned m root kernel place spaces) (hf : LiveAt m.allocator f) :
    FrameOk f := by
  obtain ⟨i, hi, -⟩ := hf
  have haligned := (h.mem.allocator.page_aligned hi).1
  have hlow := h.low f (List.mem_of_getElem? hi)
  unfold pageSize at haligned
  unfold userBase at hlow
  exact ⟨haligned, by omega⟩

theorem Stands.unique (h : MemInv m) {p p' : Nat × Nat} (hs : Stands m place o f p)
    (hs' : Stands m place o' f p') : o = o' ∧ p = p' := by
  rcases hs with ⟨ht, hp⟩ | ⟨va, hu, hp⟩
  · rcases hs' with ⟨ht', hp'⟩ | ⟨va', hu', -⟩
    · exact ⟨ht.owner_unique h ht', hp.symm.trans hp'⟩
    · exact absurd hu' (ht.not_usr h)
  · rcases hs' with ⟨ht', -⟩ | ⟨va', hu', hp'⟩
    · exact absurd hu (ht'.not_usr h)
    · obtain ⟨ho, hva⟩ := hu.unique h hu'
      exact ⟨ho, by rw [hp, hp', hva]⟩

/-- A non-zero entry links a frame that stands for the entry's position. -/
theorem Owned.link (h : Owned m root kernel place spaces) (ho : o ≠ .kernel) (ht : Tab m o t)
    (hs : ¬ Shared (place t).1 s) (he : m.contents t s ≠ 0#64) :
    Stands m place o (frameOf (m.contents t s))
      ((place t).1 - 1, (place t).2 + s * span (place t).1) := by
  rcases (h.tables o t ho ht).entries s hs with hzero | ⟨hlevel, f, w, x, hval, -, hu⟩
    | ⟨hlevel, c, hval, hc, hp⟩
  · exact absurd hzero he
  · rw [hval, frameOf_leafEntry (h.frameOk (hu.live h.mem)), hlevel]
    exact .inr ⟨_, hu, rfl⟩
  · rw [hval, frameOf_tableEntry (h.frameOk (hc.live h.mem))]
    exact .inl ⟨hc, hp⟩

/-- A position determines the table and the slot that stand above it. -/
theorem slot_unique {level base base' : Nat} (hb : BaseOk level base) (hb' : BaseOk level base')
    (hs : ¬ Shared level s) (hs' : ¬ Shared level s')
    (heq : base + s * span level = base' + s' * span level) : base = base' ∧ s = s' := by
  have hlt := s.isLt
  have hlt' := s'.isLt
  by_cases hroot : level = 4
  · have hslot : ∀ x : Fin 512, ¬ Shared level x → x = userPml4Index := by
      intro x hx
      by_contra hne
      exact hx ⟨hroot, hne⟩
    rw [hb.root hroot, hb'.root hroot, hslot s hs, hslot s' hs']
    exact ⟨rfl, rfl⟩
  · have h1 := hb.aligned hroot
    have h2 := hb'.aligned hroot
    have hpos := hb.level_pos
    have hle := hb.level_le
    have hcases : level = 1 ∨ level = 2 ∨ level = 3 := by omega
    have hval : base = base' ∧ s.val = s'.val := by
      rcases hcases with rfl | rfl | rfl
      all_goals
        simp only [span] at *
        omega
    exact ⟨hval.1, Fin.ext hval.2⟩

/-- **No frame is linked twice.** -/
theorem Owned.link_unique (h : Owned m root kernel place spaces) (ho : o ≠ .kernel)
    (ho' : o' ≠ .kernel) (ht : Tab m o t) (ht' : Tab m o' t') (hs : ¬ Shared (place t).1 s)
    (hs' : ¬ Shared (place t').1 s') (he : m.contents t s ≠ 0#64) (he' : m.contents t' s' ≠ 0#64)
    (hframe : frameOf (m.contents t s) = frameOf (m.contents t' s')) :
    o = o' ∧ t = t' ∧ s = s' := by
  have hlink := h.link ho ht hs he
  have hlink' := h.link ho' ht' hs' he'
  rw [hframe] at hlink
  obtain ⟨howner, hpos⟩ := hlink.unique h.mem hlink'
  subst howner
  have hb := (h.tables o t ho ht).base
  have hb' := (h.tables o t' ho ht').base
  simp only [Prod.mk.injEq] at hpos
  have hlevel : (place t).1 = (place t').1 := by
    have := hb.level_pos
    have := hb'.level_pos
    omega
  rw [← hlevel] at hb' hs' hpos
  obtain ⟨hbase, hslot⟩ := slot_unique hb hb' hs hs' hpos.2
  exact ⟨rfl, h.unique o t t' ho ht ht' (Prod.ext hlevel hbase), hslot⟩

/-- Every table but a root is linked by its parent. -/
def Rooted (m : MemoryState words n) (place : Place) : Prop :=
  ∀ o c, o ≠ .kernel → Tab m o c → (place c).1 = 4
    ∨ ∃ t s, Tab m o t ∧ ¬ Shared (place t).1 s ∧ m.contents t s = tableEntry c

section

variable (h : Owned m root kernel place spaces)

include h

/-- The parent of a table is the one its place determines. -/
theorem Owned.parent (hrooted : Rooted m place) (ho : o ≠ .kernel) (ht : Tab m o t) {c : Nat}
    (hc : Tab m o c) {s : Fin 512} (hs : ¬ Shared (place t).1 s) (hlevel : 2 ≤ (place t).1)
    (hplace : place c = ((place t).1 - 1, (place t).2 + s * span (place t).1)) :
    m.contents t s = tableEntry c := by
  have hb := (h.tables o t ho ht).base
  have hle := hb.level_le
  rcases hrooted o c ho hc with hroot | ⟨t', s', ht', hs', he⟩
  · rw [hplace] at hroot
    simp only at hroot
    omega
  · have hok := h.frameOk (hc.live h.mem)
    have hlink := h.link ho ht' hs' (by rw [he]; exact tableEntry_ne_zero hok)
    rw [he, frameOf_tableEntry hok] at hlink
    have hpos := (hlink.unique h.mem (.inl ⟨hc, hplace⟩)).2
    simp only [Prod.mk.injEq] at hpos
    have hb' := (h.tables o t' ho ht').base
    have hsame : (place t').1 = (place t).1 := by
      have := hb'.level_pos
      omega
    rw [hsame] at hb' hs' hpos
    obtain ⟨hbase, hslot⟩ := slot_unique hb' hb hs' hs hpos.2
    rw [← h.unique o t' t ho ht' ht (Prod.ext hsame hbase), ← hslot]
    exact he

/-- An entry of a user table that is not present is zero. -/
theorem Owned.entry_zero (ho : o ≠ .kernel) (ht : Tab m o t) (hs : ¬ Shared (place t).1 s)
    (habsent : has (m.contents t s) present = false) : m.contents t s = 0#64 := by
  rcases (h.tables o t ho ht).entries s hs with hzero | ⟨-, f, w, x, he, -, hu⟩ | ⟨-, c, he, hc, -⟩
  · exact hzero
  · rw [he, leafEntry_present (h.frameOk (hu.live h.mem))] at habsent
    cases habsent
  · rw [he, tableEntry_present (h.frameOk (hc.live h.mem))] at habsent
    cases habsent

/-- A present entry above the last level is an edge. -/
theorem Owned.entry_edge (ho : o ≠ .kernel) (ht : Tab m o t) (hs : ¬ Shared (place t).1 s)
    (hlevel : 2 ≤ (place t).1) (hpresent : has (m.contents t s) present = true) :
    ∃ c, m.contents t s = tableEntry c ∧ Tab m o c
      ∧ place c = ((place t).1 - 1, (place t).2 + s * span (place t).1) := by
  rcases (h.tables o t ho ht).entries s hs with hzero | ⟨hone, -⟩ | ⟨-, hedge⟩
  · rw [hzero, has_zero] at hpresent
    cases hpresent
  · omega
  · exact hedge

end

/-- No entry of a user table links the frame. -/
def Unlinked (m : MemoryState words n) (place : Place) (f : Nat) : Prop :=
  ∀ o t s, o ≠ .kernel → Tab m o t → ¬ Shared (place t).1 s → m.contents t s ≠ 0#64 →
    frameOf (m.contents t s) ≠ f

end Invariant

end GenOS.Paging
