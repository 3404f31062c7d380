/-
  GenOS.Paging.UserRuns — user address spaces over whole runs.

  A run starts when the supervisor mappings are sealed and nothing belongs to
  a user.  It is any sequence of operations on the spaces created so far,
  with any address, any grant and any permissions; between them users write
  to their pages and the CPU switches roots.
-/
import GenOS.Paging.CreateUser
import Mathlib.Data.List.Pairwise

namespace GenOS.Paging

open GenOS.Lib GenOS.Memory
open GenOS.Lib.Masks (has has_eq_false)

variable {words n : Nat} {m m' : MemoryState words n}
variable {root : Nat} {kernel : Nat → Nat → Prop} {place : Place} {spaces : List AddressSpace}
variable {o : Owner} {t va : Nat}

/-! ## §1. What the hardware sees. -/

/-- The user leaf for an address and its level: every entry on the way is
present and a user entry. -/
def userLeaf (m : MemoryState words n) (va : Nat) : Nat → Nat → Option (Nat × BitVec 64)
  | 0, _ => none
  | level + 1, t =>
    let e := m.contents t (index va (12 + 9 * level))
    if has e present = false ∨ has e user = false then none
    else if level = 0 ∨ has e hugeOrPat then some (level + 1, e)
    else userLeaf m va level (frameOf e)

/-- The leaf is a page of `o` that is bound to the address, and it is not both
writable and executable. -/
def LeafOk (m : MemoryState words n) (o : Owner) (va level : Nat) (e : BitVec 64) : Prop :=
  level = 1 ∧ Usr m o (frameOf e) va ∧ ¬ (has e writable = true ∧ has e noExecute = false)

theorem userLeaf_below (h : Owned m root kernel place spaces) (ho : o ≠ .kernel)
    (hva : UserAddress va) : ∀ (level t base : Nat), level < 3 → Tab m o t →
      place t = (level + 1, base) → Covers (level + 1) base va →
      ∀ {l e}, userLeaf m va (level + 1) t = some (l, e) → LeafOk m o va l e := by
  intro level
  induction level with
  | zero =>
    intro t base _ ht hplace hcovers l e hleaf
    have htable := h.tables o t ho ht
    have hs : ¬ Shared (place t).1 (index va 12) := by
      rw [hplace]
      exact not_shared (show (1 : Nat) ≠ 4 by decide)
    have hb : BaseOk 1 base := by
      have := htable.base
      rw [hplace] at this
      exact this
    unfold userLeaf at hleaf
    simp only [true_or, if_true] at hleaf
    split at hleaf
    · cases hleaf
    rename_i hgood
    cases hleaf
    rcases htable.entries (index va 12) hs with hzero | ⟨-, f, w, x, he, hwx, hu⟩ | ⟨htwo, -⟩
    · have hpresent : has (m.contents t (index va 12)) present = false := by
        rw [hzero]
        exact has_zero present
      exact absurd (.inl hpresent) hgood
    · have hok := h.frameOk (hu.live h.mem)
      rw [hplace, leaf_position hb hva hcovers] at hu
      refine ⟨rfl, ?_, ?_⟩
      · show Usr m o (frameOf (m.contents t (index va 12))) va
        rw [he, frameOf_leafEntry hok]
        exact hu
      · show ¬ (has (m.contents t (index va 12)) writable = true
          ∧ has (m.contents t (index va 12)) noExecute = false)
        rw [he, leafEntry_writable hok, leafEntry_noExecute hok]
        intro ⟨hw, hx⟩
        exact hwx ⟨hw, by simpa using hx⟩
    · rw [hplace] at htwo
      exact absurd htwo (show ¬ 2 ≤ 1 by decide)
  | succ level ih =>
    intro t base hlevel ht hplace hcovers l e hleaf
    have htable := h.tables o t ho ht
    have hb : BaseOk (level + 2) base := by
      have := htable.base
      rw [hplace] at this
      exact this
    obtain ⟨hs, -, hcovers'⟩ := descend_position hb (by omega) hva hcovers
    rw [userLeaf] at hleaf
    split at hleaf
    · cases hleaf
    rename_i hgood
    simp only [not_or, Bool.not_eq_false] at hgood
    obtain ⟨c, he, hc, hplace'⟩ := h.entry_edge ho ht (by rw [hplace]; exact hs)
      (by rw [hplace]; exact Nat.le_add_left 2 level) hgood.1
    have hok := h.frameOk (hc.live h.mem)
    rw [he, tableEntry_huge hok, frameOf_tableEntry hok] at hleaf
    simp only [Nat.succ_ne_zero, Bool.false_eq_true, or_self, if_false] at hleaf
    rw [hplace] at hplace'
    exact ih c _ (by omega) hc hplace' hcovers' hleaf

/-- **Every user leaf of a live space is a page bound to its address.** -/
theorem userLeaf_owned (h : Owned m root kernel place spaces) {space : AddressSpace}
    (hspace : space ∈ spaces) (hlive : m.grants.isLive space.authority = true)
    (haligned : va % pageSize = 0) (hlt : va < 2 ^ 48) {l : Nat} {e : BitVec 64}
    (hleaf : userLeaf m va 4 space.root = some (l, e)) : LeafOk m space.owner va l e := by
  have hok := h.spacesOk space hspace
  have ho := hok.notKernel
  have ht := hok.tab hlive
  have hplace := hok.placed hlive
  rw [userLeaf] at hleaf
  split at hleaf
  · cases hleaf
  rename_i hgood
  simp only [not_or, Bool.not_eq_false] at hgood
  -- the shared half has no user entry, so the address is a user address
  have hs : ¬ Shared (place space.root).1 (index va (12 + 9 * 3)) := by
    intro hs
    have := (h.tables _ _ ho ht).shared _ hs
    rw [this] at hgood
    exact absurd hgood.2 (by decide)
  have hslot : (index va (12 + 9 * 3)).val = 128 := by
    by_contra hne
    refine hs ⟨by rw [hplace], fun heq => hne ?_⟩
    rw [heq]
    rfl
  have hva : UserAddress va := by
    rw [index_val] at hslot
    refine ⟨haligned, ?_, ?_⟩
    all_goals
      unfold userBase
      omega
  have hroot : Covers (3 + 1) 0 va := fun hne => absurd rfl hne
  obtain ⟨-, -, hcovers⟩ := descend_position baseOk_root (by decide) hva hroot
  obtain ⟨c, he, hc, hplace'⟩ := h.entry_edge ho ht hs (by rw [hplace]; decide) hgood.1
  have hcok := h.frameOk (hc.live h.mem)
  rw [he, tableEntry_huge hcok, frameOf_tableEntry hcok] at hleaf
  simp only [Bool.false_eq_true, or_false] at hleaf
  rw [if_neg (by decide)] at hleaf
  rw [hplace] at hplace'
  exact userLeaf_below h ho hva 2 c _ (by decide) hc hplace' hcovers hleaf

/-! ## §2. Runs. -/

/-- The machine after the supervisor mappings were sealed. -/
structure Booted (c : Machine words n) (root : Nat) : Prop where
  sealed : c.sealedRoot = some root
  mem : MemInv c.memory
  -- sealing protects every usable page and refuses pages of the user range
  low : ∀ f ∈ pagesOf c.memory.allocator.regions, f < userBase
  supervisor : ∀ slot r, c.memory.grants.Held slot r → r.owner = .kernel ∧ r.mappedAt = 0
  nextOwner : 0 < c.memory.grants.nextOwner
  tree : ∃ kernel, KernelTree c.memory root kernel

/-- `c` follows from `c₀`; `spaces` are the spaces created since, also those
destroyed again. -/
inductive UserRun (c₀ : Machine words n) : Machine words n → List AddressSpace → Prop
  | start : UserRun c₀ c₀ []
  | create {c c' spaces space} : UserRun c₀ c spaces →
      createUserAddressSpace c = some (c', .ok space) → UserRun c₀ c' (space :: spaces)
  | createFails {c c' spaces e} : UserRun c₀ c spaces →
      createUserAddressSpace c = some (c', .error e) → UserRun c₀ c' spaces
  | allocate {c c' spaces space result} : UserRun c₀ c spaces → space ∈ spaces →
      allocateZeroedFrame c space = some (c', result) → UserRun c₀ c' spaces
  | map {c c' spaces space va g w x result} : UserRun c₀ c spaces → space ∈ spaces →
      mapUserPage c space va g w x = some (c', result) → UserRun c₀ c' spaces
  | destroy {c c' spaces space result} : UserRun c₀ c spaces → space ∈ spaces →
      destroyUserAddressSpace c space = some (c', result) → UserRun c₀ c' spaces
  | free {c spaces g} : UserRun c₀ c spaces → g.kind = .user → g.owner ≠ .kernel →
      UserRun c₀ { c with memory := (c.memory.freeFrame g).1 } spaces
  | store {c spaces o f va} (page : Page) : UserRun c₀ c spaces → Usr c.memory o f va →
      UserRun c₀ { c with memory := setPage c.memory f page } spaces
  | switch {c spaces} (active : Nat) : UserRun c₀ c spaces →
      UserRun c₀ { c with activeRoot := active } spaces

theorem Booted.secure {c : Machine words n} (h : Booted c root)
    (htree : KernelTree c.memory root kernel) (place : Place) :
    Secure c root kernel place [] := by
  have hnone : ∀ o t, o ≠ .kernel → ¬ Tab c.memory o t := by
    intro o t ho ⟨slot, r, hr, _, howner, _⟩
    exact ho (howner ▸ (h.supervisor slot r hr).1)
  refine ⟨⟨h.mem, h.low, fun o t ho ht => absurd ht (hnone o t ho),
    fun o t t' ho ht => absurd ht (hnone o t ho), ?_, ?_, h.nextOwner,
    fun sp hsp => absurd hsp List.not_mem_nil, List.Pairwise.nil, htree⟩,
    fun o c' ho hc => absurd hc (hnone o c' ho), h.sealed⟩
  · intro o f va hva ⟨slot, r, hr, _, _, _, hmapped⟩
    exact absurd (hmapped.symm.trans (h.supervisor slot r hr).2) hva
  · intro slot r hr
    rw [(h.supervisor slot r hr).1]
    exact h.nextOwner

/-- The invariant along a run. -/
theorem UserRun.secure {c₀ c : Machine words n} (hrun : UserRun c₀ c spaces)
    (h₀ : Booted c₀ root) : ∃ kernel place, Secure c root kernel place spaces := by
  obtain ⟨kernel, htree⟩ := h₀.tree
  refine ⟨kernel, ?_⟩
  induction hrun with
  | start => exact ⟨fun _ => (0, 0), h₀.secure htree _⟩
  | create _ hval ih =>
    obtain ⟨place, h⟩ := ih
    obtain ⟨c', ⟨e, hval', -⟩ | ⟨space, place', hval', h'⟩⟩ := createUserAddressSpace_spec h
    · rw [hval] at hval'
      cases hval'
    · rw [hval] at hval'
      cases hval'
      exact ⟨place', h'⟩
  | createFails _ hval ih =>
    obtain ⟨place, h⟩ := ih
    obtain ⟨c', ⟨e, hval', h'⟩ | ⟨space, place', hval', -⟩⟩ := createUserAddressSpace_spec h
    · rw [hval] at hval'
      cases hval'
      exact ⟨place, h'⟩
    · rw [hval] at hval'
      cases hval'
  | allocate _ hspace hval ih =>
    obtain ⟨place, h⟩ := ih
    obtain ⟨c', result, hval', h'⟩ := allocateZeroedFrame_spec h hspace
    rw [hval] at hval'
    cases hval'
    exact ⟨place, h'⟩
  | map _ hspace hval ih =>
    obtain ⟨place, h⟩ := ih
    obtain ⟨m', result, hval', hcases⟩ :=
      mapUserPage_spec h.owned h.rooted h.sealed hspace _ _ _ _
    rw [hval] at hval'
    cases hval'
    rcases hcases with ⟨e, -, hm', hs⟩ | ⟨-, place', howned, hrooted⟩
    · exact ⟨place, h.same hs hm'⟩
    · exact ⟨place', howned, hrooted, h.sealed⟩
  | destroy _ hspace hval ih =>
    obtain ⟨place, h⟩ := ih
    rcases destroyUserAddressSpace_spec h.owned h.rooted h.sealed hspace with
      ⟨e, hval'⟩ | ⟨m', hval', hdestroyed⟩
    · rw [hval] at hval'
      cases hval'
      exact ⟨place, h⟩
    · rw [hval] at hval'
      cases hval'
      exact ⟨place, hdestroyed.owned, hdestroyed.rooted, h.sealed⟩
  | free _ hkind howner ih =>
    obtain ⟨place, h⟩ := ih
    exact ⟨place, freeFrame_secure h hkind howner⟩
  | store page _ hu ih =>
    obtain ⟨place, h⟩ := ih
    exact ⟨place, store_secure h hu page⟩
  | switch active _ ih =>
    obtain ⟨place, h⟩ := ih
    exact ⟨place, h.owned, h.rooted, h.sealed⟩

/-! ## §3. User page ownership. -/

/-- All tables, grants and frame counts are as before. -/
structure Unaltered (m m' : MemoryState words n) : Prop where
  contents : ∀ f, LiveAt m.allocator f → m'.contents f = m.contents f
  records : m'.grants.records = m.grants.records
  recordCount : m'.grants.live = m.grants.live
  frames : ∀ f, LiveAt m'.allocator f ↔ LiveAt m.allocator f
  frameCount : m'.allocator.allocatedFrames = m.allocator.allocatedFrames

theorem Same.unaltered (hs : Same m m') (h : MemInv m) (h' : MemInv m') : Unaltered m m' := by
  refine ⟨hs.contents, hs.records, ?_, fun f => hs.live h h', ?_⟩
  · rw [h.grants.count, h'.grants.count, hs.records]
  · exact h'.allocator.allocatedFrames_congr h.allocator hs.regions (fun f => hs.live h h')

/-- Three usable pages, the first of them an empty sealed root. -/
def sealedMachine : Machine 1 4 :=
  ⟨((threePages.allocFrame .kernel .table).map Prod.fst).getD threePages, some 0x1000, 0x1000, true⟩

theorem sealedMachine_booted : Booted sealedMachine 0x1000 := by
  have hboot : MemInv threePages := .boot _ _
  have hempty : ∀ slot r, ¬ threePages.grants.Held slot r := by
    intro slot r hr
    have : r = .empty := List.eq_of_mem_replicate (List.mem_of_getElem? hr.1)
    exact hr.2 (by rw [this]; rfl)
  have hgrant : (threePages.allocFrame .kernel .table).map Prod.snd
      = some (some ⟨0x1000, 1, .kernel, 0, .table⟩) := by decide +kernel
  rcases allocFrame_cases hboot .kernel .table with ⟨m', hval, -⟩ | ⟨m', g, hval, hm', hg⟩
  · rw [hval] at hgrant
    cases hgrant
  · rw [hval] at hgrant
    cases hgrant
    have hmemory : sealedMachine.memory = m' := by
      simp only [sealedMachine, hval, Option.map_some, Option.getD_some]
    have hzero : ∀ s, m'.contents 0x1000 s = 0#64 := by
      intro s
      have hpages : m'.contents = Function.update threePages.contents 0x1000 zeroPage := hg.contents
      rw [hpages, Function.update_self]
      rfl
    refine ⟨rfl, by rw [hmemory]; exact hm', ?_, ?_, ?_,
      fun level t => level = 4 ∧ t = 0x1000, ?_⟩
    · rw [hmemory, hg.regions]
      decide +kernel
    · intro slot r hr
      rw [hmemory] at hr
      rcases hg.held_cases hr with hr | ⟨-, rfl⟩
      · exact absurd hr (hempty slot r)
      · exact ⟨rfl, rfl⟩
    · rw [hmemory, hg.grants]
      decide +kernel
    · rw [hmemory]
      refine ⟨⟨rfl, rfl⟩, fun level t ht => ?_, fun level t s ht _ hpresent _ => ?_, fun s => ?_,
        fun _ => hzero _⟩
      · rw [ht.2]
        exact ⟨_, _, hg.held_new hm', rfl, rfl, rfl⟩
      · rw [ht.2, hzero s, has_zero] at hpresent
        cases hpresent
      · rw [hzero s]
        exact has_zero user

end GenOS.Paging
