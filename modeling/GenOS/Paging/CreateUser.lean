/-
  GenOS.Paging.CreateUser — creating a space and the frames around it.

  A new space gets an owner that was never used, so its root is the only
  table of that owner and the supervisor half is a copy of the sealed root.
  Frames are granted to a space, given back unmapped, and written to while
  they are pages; none of this touches a table.
-/
import GenOS.Memory.Layers
import GenOS.Paging.DestroyUser
import GenOS.Paging.MapUser

namespace GenOS.Paging

open GenOS.Lib GenOS.Memory
open GenOS.Lib.Masks (has has_eq_false)

variable {words n : Nat} {m m' : MemoryState words n}
variable {root : Nat} {kernel : Nat → Nat → Prop} {place : Place} {spaces : List AddressSpace}
variable {o : Owner} {t f va : Nat} {g : Grant}

/-! ## §1. Creating. -/

/-- The page that was written before the release does not matter. -/
theorem released_setPage {page : Page} (hrel : Released (setPage m g.address page) g m') :
    Released m g m' := by
  refine ⟨hrel.regions, hrel.live, hrel.grants, ?_⟩
  rw [hrel.contents]
  exact Function.update_idem _ _ _

theorem baseOk_root : BaseOk 4 0 :=
  ⟨by decide, by decide, fun _ => rfl, fun h => absurd rfl h, fun h => absurd rfl h,
    fun h => absurd rfl h⟩

/-- The root of a new space: a copy of the sealed root, with a free user slot. -/
theorem Owned.newRoot {m₁ : MemoryState words n} (h : Owned m root kernel place spaces)
    (ho : o ≠ .kernel) (hid : o.id < m.grants.nextOwner) (hfresh : ∀ t, ¬ Tab m o t)
    (hnew : ∀ sp ∈ spaces, sp.owner ≠ o) (hg : Granted m o .table g m₁) (h₁ : MemInv m₁)
    (hfree : has (m₁.contents root userPml4Index) present = false) :
    Owned (setPage m₁ g.address (m₁.contents root)) root kernel
      (Function.update place g.address (4, 0)) (⟨g.address, g, o⟩ :: spaces) := by
  have h₂ := h.grantTable hg h₁ hid (p := (4, 0)) baseOk_root (fun t ht => absurd ht (hfresh t))
  have hself : Function.update place g.address (4, 0) g.address = (4, 0) :=
    Function.update_self _ _ _
  have htab : Tab m₁ o g.address := ⟨_, _, hg.held_new h₁, rfl, rfl, rfl⟩
  have hkernel : ¬ Tab m₁ .kernel g.address := fun hk => ho (htab.owner_unique h₁ hk)
  have h₃ : Owned (setPage m₁ g.address (m₁.contents root)) root kernel
      (Function.update place g.address (4, 0)) spaces := by
    refine h₂.overwrite hkernel _ (fun o' _ _ => ⟨?_, fun s _ => ?_, fun s hs => .inl ?_⟩)
    · rw [hself]
      exact baseOk_root
    · rw [setPage_contents_self]
      exact h₂.kernelOk.supervisor s
    · -- the only slot of its own is empty in the sealed root
      rw [hself] at hs
      have hslot : s = userPml4Index := by
        by_contra hne
        exact hs ⟨rfl, hne⟩
      rw [setPage_contents_self, hslot]
      exact h₂.kernelOk.vacant hfree
  refine ⟨h₃.mem, h₃.low, h₃.tables, h₃.unique, h₃.bound, h₃.owners, h₃.nextOwner, ?_, ?_,
    h₃.kernelOk⟩
  · intro sp hsp
    rcases List.mem_cons.mp hsp with rfl | hsp
    · refine ⟨rfl, hg.ownedBy, hg.ofKind, ho, ?_, ?_, fun _ => hself⟩
      · show o.id < m₁.grants.nextOwner
        rw [hg.grants]
        exact hid
      · show g.generation < m₁.grants.nextGeneration
        rw [hg.grants, hg.generation]
        exact Nat.lt_succ_self _
    · exact h₃.spacesOk sp hsp
  · exact List.pairwise_cons.mpr ⟨fun sp hsp => (hnew sp hsp).symm, h₃.distinct⟩

section Machines

variable {c : Machine words n}

/-- The invariant of a machine whose supervisor mappings are sealed. -/
structure Secure (c : Machine words n) (root : Nat) (kernel : Nat → Nat → Prop) (place : Place)
    (spaces : List AddressSpace) : Prop where
  owned : Owned c.memory root kernel place spaces
  rooted : Rooted c.memory place
  sealed : c.sealedRoot = some root

theorem Secure.same (h : Secure c root kernel place spaces) (hs : Same c.memory m)
    (hm : MemInv m) : Secure { c with memory := m } root kernel place spaces :=
  ⟨h.owned.same hs hm, h.rooted.same hs h.owned.mem, h.sealed⟩

/-- What `new_owner` can do. -/
theorem newOwner_cases (h : MemInv m) :
    m.newOwner = (m, none)
      ∨ ∃ m', m.newOwner = (m', some ⟨m.grants.nextOwner⟩) ∧ MemInv m' ∧ Same m m'
        ∧ m.grants.nextOwner < m'.grants.nextOwner := by
  unfold MemoryState.newOwner Ledger.newOwner Ledger.checkedSucc
  by_cases hlt : m.grants.nextOwner + 1 < 2 ^ 64
  · rw [if_pos hlt]
    exact .inr ⟨_, rfl, ⟨h.allocator, h.grants.congr rfl rfl rfl, h.coupled⟩,
      ⟨rfl, rfl, Nat.le_refl _, Nat.le_succ _, fun _ _ => rfl⟩, Nat.lt_succ_self _⟩
  · exact .inl (by rw [if_neg hlt])

variable (h : Secure c root kernel place spaces)

include h

/-- **Creating a space.**  The call never fails an assertion; it adds a space
or leaves the old ones as they are. -/
theorem createUserAddressSpace_spec :
    ∃ c', (∃ e, createUserAddressSpace c = some (c', .error e)
        ∧ Secure c' root kernel place spaces)
      ∨ ∃ space place', createUserAddressSpace c = some (c', .ok space)
        ∧ Secure c' root kernel place' (space :: spaces) := by
  rcases newOwner_cases h.owned.mem with hnone | ⟨m₀, hsome, hinv, hs, hissued⟩
  · refine ⟨c, .inl ⟨.outOfMemory, ?_, h⟩⟩
    simp only [createUserAddressSpace, h.sealed, hnone]
    rw [← h.sealed]
  -- the owner is new: nothing is recorded for it
  have h₁ := h.same hs hinv
  have ho : (⟨c.memory.grants.nextOwner⟩ : Owner) ≠ .kernel := by
    intro heq
    have : c.memory.grants.nextOwner = 0 := congrArg Owner.id heq
    exact absurd h.owned.nextOwner (by omega)
  have hfresh : ∀ t, ¬ Tab m₀ ⟨c.memory.grants.nextOwner⟩ t := by
    intro t ⟨slot, r, hr, _, howner, _⟩
    have := h.owned.owners slot r (hs.held.mp hr)
    rw [howner] at this
    exact Nat.lt_irrefl _ this
  have hnew : ∀ sp ∈ spaces, sp.owner ≠ ⟨c.memory.grants.nextOwner⟩ := by
    intro sp hsp heq
    have := (h.owned.spacesOk sp hsp).issued
    rw [heq] at this
    exact Nat.lt_irrefl _ this
  rcases allocFrame_cases hinv ⟨c.memory.grants.nextOwner⟩ .table with
    ⟨m', hval, hm', hq⟩ | ⟨m₁, g, hval, hm₁, hg⟩
  · refine ⟨{ c with memory := m' }, .inl ⟨.outOfMemory, ?_, h₁.same (quiet_same hq) hm'⟩⟩
    simp only [createUserAddressSpace, h.sealed, hsome, hval]
  cases hpresent : has (m₁.contents root userPml4Index) present with
  | true =>
    -- the user slot is taken: the root is given back
    obtain ⟨m₂, hfree, hm₂, hrel⟩ := freeFrame_held
      (setPage_inv hm₁ g.address (m₁.contents root)) (hg.held_new hm₁) (granted_record hg) rfl
    have hback := granted_released_same hinv hg (.refl m₁) (released_setPage hrel)
    refine ⟨{ c with memory := m₂ }, .inl ⟨.addressInUse, ?_, h₁.same hback hm₂⟩⟩
    have hfree' : MemoryState.freeFrame { m₁ with
        contents := Function.update m₁.contents g.address (m₁.contents root) } g
        = (m₂, true) := hfree
    simp only [createUserAddressSpace, h.sealed, hsome, hval, hpresent, if_true, hfree']
  | false =>
    refine ⟨{ c with memory := setPage m₁ g.address (m₁.contents root) },
      .inr ⟨⟨g.address, g, ⟨c.memory.grants.nextOwner⟩⟩,
        Function.update place g.address (4, 0), ?_, ?_, ?_, h.sealed⟩⟩
    · simp only [createUserAddressSpace, h.sealed, hsome, hval, hpresent, Bool.false_eq_true,
        if_false]
      rfl
    · exact h₁.owned.newRoot ho hissued hfresh hnew hg hm₁ hpresent
    refine h₁.rooted.grant hinv hg (fun _ _ => Iff.rfl) (fun _ t _ _ ht _ he => ?_) (.inl rfl)
    have hne : t ≠ g.address := fun heq => hg.fresh (heq ▸ ht.live hinv)
    rw [setPage_contents_of_ne hne, granted_contents hg (ht.live hinv)]
    exact he

/-! ## §2. Frames of a space. -/

theorem allocateZeroedFrame_spec {space : AddressSpace} (hspace : space ∈ spaces) :
    ∃ c' result, allocateZeroedFrame c space = some (c', result)
      ∧ Secure c' root kernel place spaces := by
  by_cases hdead : c.memory.grants.isLive space.authority = false
  · exact ⟨c, .error .invalidAddress, by rw [allocateZeroedFrame, if_pos hdead], h⟩
  rcases allocFrame_cases h.owned.mem space.owner .user with
    ⟨m', hval, hm', hq⟩ | ⟨m', g, hval, hm', hg⟩
  · exact ⟨{ c with memory := m' }, .error .outOfMemory,
      by simp only [allocateZeroedFrame, if_neg hdead, hval], h.same (quiet_same hq) hm'⟩
  · have hok := h.owned.spacesOk space hspace
    refine ⟨{ c with memory := m' }, .ok g, by simp only [allocateZeroedFrame, if_neg hdead, hval],
      h.owned.grantUser hg hm' hok.issued, ?_, h.sealed⟩
    -- a page is not a table
    refine h.rooted.mono (fun o c => ⟨fun hc => ?_, granted_tab hg⟩)
      (fun o t s c _ ht _ he => by
        rw [granted_contents hg (ht.live h.owned.mem)]
        exact he)
    rcases granted_tab_cases hg hc with hc | ⟨-, hkind, -⟩
    · exact hc
    · cases hkind

/-- A page is given back, or the call is refused. -/
theorem freeFrame_secure {g : Grant} (hkind : g.kind = .user) (howner : g.owner ≠ .kernel) :
    Secure { c with memory := (c.memory.freeFrame g).1 } root kernel place spaces := by
  rcases freeFrame_cases h.owned.mem g with hval | ⟨m', r, hr, hrg, hmapped, hval, hm', hrel⟩
  · rw [hval]
    exact h.same (quiet_same (.deny _))
      ⟨h.owned.mem.allocator, h.owned.mem.grants.congr rfl rfl rfl, h.owned.mem.coupled⟩
  · rw [hval]
    have hrkind : r.kind = .user := by
      rw [← hkind, ← hrg]
      rfl
    have hrowner : r.owner ≠ .kernel := by
      rw [← hrg] at howner
      exact howner
    have hu : Usr c.memory r.owner r.address 0 := ⟨_, r, hr, rfl, rfl, hrkind, hmapped⟩
    refine ⟨h.owned.release hrel hr hrg hm' hrowner (h.owned.unlinked_unbound hu), ?_, h.sealed⟩
    refine h.rooted.mono (fun o c => ?_) (fun o t s c _ ht _ he => ?_)
    · rw [released_tab hrel hr h.owned.mem]
      exact ⟨fun hc => hc.1, fun hc => ⟨hc, fun heq => hc.not_usr h.owned.mem (heq ▸ hu)⟩⟩
    · rw [released_contents hrel hrg (fun heq => ht.not_usr h.owned.mem (heq ▸ hu))]
      exact he

/-- A user writes to one of its pages. -/
theorem store_secure (hu : Usr c.memory o f va) (page : Page) :
    Secure { c with memory := setPage c.memory f page } root kernel place spaces :=
  ⟨h.owned.overwrite (fun hk => hk.not_usr h.owned.mem hu) page
      (fun _ _ ht => absurd hu (ht.not_usr h.owned.mem)),
    h.rooted.mono (fun _ _ => Iff.rfl) (fun o t s c _ ht _ he => by
      rw [setPage_contents_of_ne (fun heq => ht.not_usr h.owned.mem (heq ▸ hu))]
      exact he),
    h.sealed⟩

end Machines

end GenOS.Paging
