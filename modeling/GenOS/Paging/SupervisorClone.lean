/-
  GenOS.Paging.SupervisorClone — a supervisor clone translates as its source does.

  The loop of `clone_supervisor` keeps `Progress`, whether it ends or stops at a
  child whose allocation failed, so both outcomes follow from one induction on
  the level (`cloneSupervisor_outcome`).  A memory that remembers failures
  (`TableMemory.watched`) tells that the clone is refused exactly when one of its
  allocations was.
-/
import GenOS.Paging.CloneTrees

namespace GenOS.PageTable

open List Function

open GenOS.Lib.Masks (has has_eq_false)

/-! ## §1. The entries of a clone. -/

section Translations

variable {below below' : BitVec 64 → Option Translation} {level : Nat} {entry : BitVec 64}

theorem translateEntry_absent (h : has entry present = false) :
    translateEntry below level entry = none := by
  unfold translateEntry
  rw [if_pos h]

section

variable (hpresent : has entry present = true)

include hpresent

theorem translateEntry_leaf (hleaf : isLeaf level entry = true) :
    translateEntry below level entry = some ⟨[], entry, level⟩ := by
  unfold translateEntry
  rw [hpresent, hleaf, if_neg Bool.noConfusion, if_pos rfl]

theorem translateEntry_table (htable : isLeaf level entry = false) :
    translateEntry below level entry = (below (entry &&& addressMask)).map fun t =>
      { t with path := (entry &&& ~~~addressMask) :: t.path } := by
  unfold translateEntry
  rw [hpresent, htable, if_neg Bool.noConfusion, if_neg Bool.noConfusion]

/-- A copied leaf translates as its source without the user bit. -/
theorem translateEntry_supervisor (hleaf : isLeaf level entry = true) :
    translateEntry below' level (entry &&& ~~~user)
      = (translateEntry below level entry).map Translation.supervisor := by
  rw [translateEntry_leaf hpresent hleaf,
    translateEntry_leaf ((supervisor_present entry).trans hpresent)
      ((isLeaf_supervisor level entry).trans hleaf)]
  rfl

end

variable {child : BitVec 64}

variable (haligned : child &&& addressMask = child)

include haligned

theorem childEntry_present : has (childEntry child entry) present = has entry present :=
  childEntry_flag haligned (by decide) (by decide) (by decide)

theorem isLeaf_childEntry : isLeaf level (childEntry child entry) = isLeaf level entry :=
  isLeaf_congr (childEntry_flag haligned (by decide) (by decide) (by decide))

/-- An entry for a cloned child translates as its source without the user bit. -/
theorem translateEntry_childEntry (hpresent : has entry present = true)
    (htable : isLeaf level entry = false)
    (hchild : below' child = (below (entry &&& addressMask)).map Translation.supervisor) :
    translateEntry below' level (childEntry child entry)
      = (translateEntry below level entry).map Translation.supervisor := by
  rw [translateEntry_table hpresent htable,
    translateEntry_table ((childEntry_present haligned).trans hpresent)
      ((isLeaf_childEntry haligned).trans htable),
    childEntry_address haligned, childEntry_flags haligned, hchild, Option.map_map, Option.map_map]
  rfl

end Translations

/-! ## §2. The loop. -/

section Clone

variable {σ : Type} {m : TableMemory σ} (c : Contract m) (source : BitVec 64 → Option Table)

/-- What a successful clone of the tree at `root` has done: `ids` are the new
tables, and the tree they form translates as the source does. -/
structure Cloned (level : Nat) (root : BitVec 64) (s : σ) (clone : BitVec 64) (s' : σ)
    (ids : List (BitVec 64)) : Prop where
  allocated : Allocated c s s' ids
  built : Built (c.tables s') level clone ids
  aligned : clone &&& addressMask = clone
  translates : ∀ address, translate (c.tables s') address level clone
    = (translate source address level root).map Translation.supervisor

/-- The loop of `clone_supervisor` has handled the slots `handled`: the new table
is `copy`, and `ids` are the tables below it. -/
structure Progress (level : Nat) (table : Table) (s₀ : σ) (clone : BitVec 64)
    (handled : List (Fin 512)) (s : σ) (copy : Table) (ids : List (BitVec 64)) : Prop where
  allocated : Allocated c s₀ s (clone :: ids)
  live : c.tables s clone = some copy
  built : BuiltSlots (Built (c.tables s) level) (level + 1) copy handled ids
  copied : ∀ slot ∈ handled, ∀ address,
    translateEntry (translate (c.tables s) address level) (level + 1) (copy slot)
      = (translateEntry (translate source address level) (level + 1) (table slot)).map
          Translation.supervisor
  zero : ∀ slot, slot ∉ handled → copy slot = 0

variable {c source} {level : Nat} {table copy : Table} {s₀ s s' : σ} {clone : BitVec 64}
  {handled : List (Fin 512)} {ids : List (BitVec 64)} {slot : Fin 512}

/-- The loop starts with a zeroed table. -/
theorem Progress.start (h : m.allocate s₀ = (some clone, s)) :
    Progress c source level table s₀ clone [] s (fun _ => 0) [] where
  allocated := .one h
  live := by rw [(c.allocateSome s₀ s clone h).2.2.1, update_self]
  built := .nil
  copied := fun _ hslot => absurd hslot not_mem_nil
  zero := fun _ _ => rfl

section

variable (h : Progress c source level table s₀ clone handled s copy ids)

include h

section

variable (hslot : slot ∉ handled)

include hslot

/-- An entry that is not present is left zero. -/
theorem Progress.skip (habsent : has (table slot) present = false) :
    Progress c source level table s₀ clone (handled ++ [slot]) s copy ids := by
  have hzero : has (copy slot) present = false := by
    rw [h.zero slot hslot]
    exact zero_has present
  refine ⟨h.allocated, h.live, ?_, ?_, ?_⟩
  · rw [← append_nil ids]
    exact h.built.append (.skip (.inl hzero) .nil)
  · intro other hother address
    rcases mem_append.mp hother with hother | hother
    · exact h.copied other hother address
    rw [mem_singleton.mp hother, translateEntry_absent hzero,
      translateEntry_absent habsent]
    rfl
  · intro other hother
    exact h.zero other fun hmem => hother (mem_append_left _ hmem)

/-- Writing the entry of the next slot, after the tables below it were allocated. -/
theorem Progress.write {new : List (BitVec 64)} (hnew : Allocated c s s' new) {entry : BitVec 64}
    (hbuilt : BuiltSlots (Built (c.tables s') level) (level + 1) (fun _ => entry) [slot] new)
    (hcopied : ∀ address,
      translateEntry (translate (c.tables s') address level) (level + 1) entry
        = (translateEntry (translate source address level) (level + 1) (table slot)).map
            Translation.supervisor) :
    Progress c source level table s₀ clone (handled ++ [slot]) (m.write s' clone slot entry)
      (update copy slot entry) (ids ++ new) := by
  -- the clone and the tables below it were live before the new ones were allocated
  have hold : ∀ t ∈ clone :: ids, t ∉ new := fun t ht hmem =>
    h.allocated.live ht (hnew.fresh t hmem)
  have hclone := hold clone mem_cons_self
  have hlive : c.tables s' clone = some copy := (hnew.outside clone hclone).trans h.live
  have hwrite := (c.write s' clone copy slot entry hlive).1
  have hothers : ∀ t, t ≠ clone → c.tables (m.write s' clone slot entry) t = c.tables s' t := by
    intro t ht
    rw [hwrite, update_of_ne ht]
  have hids : ∀ t ∈ ids, c.tables (m.write s' clone slot entry) t = c.tables s t := by
    intro t ht
    rw [hothers t (by rintro rfl; exact (nodup_cons.mp h.allocated.nodup).1 ht)]
    exact hnew.outside t (hold t (mem_cons_of_mem _ ht))
  have hfresh : ∀ t ∈ new, c.tables (m.write s' clone slot entry) t = c.tables s' t := by
    intro t ht
    exact hothers t (by rintro rfl; exact hclone ht)
  have hbefore : ∀ other ∈ handled, update copy slot entry other = copy other := by
    intro other hother
    exact update_of_ne (by rintro rfl; exact hslot hother) _ _
  refine ⟨?_, ?_, ?_, ?_, ?_⟩
  · exact (h.allocated.append hnew).write mem_cons_self hlive slot entry
  · rw [hwrite, update_self]
  · refine ((h.built.frame hids).congr hbefore).append ((hbuilt.frame hfresh).congr ?_)
    intro other hother
    rw [mem_singleton.mp hother, update_self]
  · intro other hother address
    rcases mem_append.mp hother with hother | hother
    · rw [hbefore other hother, h.built.translateEntry_frame hids hother address]
      exact h.copied other hother address
    · rw [mem_singleton.mp hother, update_self, ← hcopied address]
      exact hbuilt.translateEntry_frame hfresh mem_cons_self address
  · intro other hother
    rw [mem_append, not_or, mem_singleton] at hother
    rw [update_of_ne hother.2]
    exact h.zero other hother.1

theorem Progress.leaf (hpresent : has (table slot) present = true)
    (hleaf : isLeaf (level + 1) (table slot) = true) :
    Progress c source level table s₀ clone (handled ++ [slot])
      (m.write s clone slot (table slot &&& ~~~user))
      (update copy slot (table slot &&& ~~~user)) ids := by
  have hstep := h.write hslot (.none rfl rfl)
    (.skip (.inr ((isLeaf_supervisor _ _).trans hleaf)) .nil)
    fun _ => translateEntry_supervisor hpresent hleaf
  rwa [append_nil] at hstep

theorem Progress.child (hpresent : has (table slot) present = true)
    (htable : isLeaf (level + 1) (table slot) = false) {child : BitVec 64} {new : List (BitVec 64)}
    (hchild : Cloned c source level (table slot &&& addressMask) s child s' new) :
    Progress c source level table s₀ clone (handled ++ [slot])
      (m.write s' clone slot (childEntry child (table slot)))
      (update copy slot (childEntry child (table slot))) (ids ++ new) := by
  have haligned := hchild.aligned
  refine h.write hslot hchild.allocated ?_ ?_
  · rw [← append_nil new]
    refine .table ((childEntry_present haligned).trans hpresent)
      ((isLeaf_childEntry haligned).trans htable) ?_ .nil
    rw [childEntry_address haligned]
    exact hchild.built
  · intro address
    exact translateEntry_childEntry haligned hpresent htable (hchild.translates address)

end

/-- Progress speaks of the tables only. -/
theorem Progress.same (htables : c.tables s' = c.tables s) (howned : c.owned s' = c.owned s) :
    Progress c source level table s₀ clone handled s' copy ids where
  allocated := by
    have hall := h.allocated.append (.none htables howned)
    rwa [append_nil] at hall
  live := by rw [htables]; exact h.live
  built := by rw [htables]; exact h.built
  copied := by rw [htables]; exact h.copied
  zero := h.zero

/-- Whatever has been handled, the tables form a tree. -/
theorem Progress.tree {slots : List (Fin 512)} (hsplit : handled ++ slots = allSlots) :
    Built (c.tables s) (level + 1) clone (clone :: ids) := by
  refine ⟨copy, ids, h.live, rfl, ?_⟩
  have hnodup : (handled ++ slots).Nodup := hsplit ▸ nodup_allSlots
  rw [← hsplit, ← append_nil ids]
  refine h.built.append (.zero ?_)
  intro slot hslot
  exact h.zero slot fun hmem => (nodup_append.mp hnodup).2.2 slot hmem slot hslot rfl

/-- A loop that stopped is undone by `release_clone`. -/
theorem Progress.undone {slots : List (Fin 512)} (hsplit : handled ++ slots = allSlots) :
    c.tables (releaseClone m (level + 1) clone s) = c.tables s₀
      ∧ c.owned (releaseClone m (level + 1) clone s) = c.owned s₀ := by
  apply h.allocated.released
  refine releaseClone_released (level + 1) s clone _ (h.tree hsplit) h.allocated.nodup ?_
  intro t ht
  rw [h.allocated.owned]
  exact .inr ht

end

/-- A loop that handled every slot has cloned the tree. -/
theorem Progress.cloned {root : BitVec 64} (hroot : source root = some table)
    (haligned : clone &&& addressMask = clone)
    (h : Progress c source level table s₀ clone allSlots s copy ids) :
    Cloned c source (level + 1) root s₀ clone s (clone :: ids) where
  allocated := h.allocated
  built := h.tree (append_nil _)
  aligned := haligned
  translates := by
    intro address
    unfold translate
    rw [h.live, hroot]
    exact h.copied _ (mem_allSlots _) address

/-- The live tables include those of the source view. -/
def Extends (c : Contract m) (source : BitVec 64 → Option Table) (s : σ) : Prop :=
  ∀ t table, source t = some table → c.tables s t = some table

theorem Extends.allocated (h : Extends c source s) {ids : List (BitVec 64)}
    (hnew : Allocated c s s' ids) : Extends c source s' := by
  intro t table ht
  have hlive := h t table ht
  rw [hnew.outside t fun hmem => by rw [hnew.fresh t hmem] at hlive; cases hlive]
  exact hlive

/-- What `clone_supervisor` does, in both of its outcomes. -/
def Outcome (c : Contract m) (source : BitVec 64 → Option Table) (level : Nat) (root : BitVec 64)
    (s : σ) : Option (BitVec 64) × σ → Prop
  | (none, s') => c.tables s' = c.tables s ∧ c.owned s' = c.owned s
  | (some clone, s') => ∃ ids, Cloned c source level root s clone s' ids

/-- The loop of `clone_supervisor` keeps `Progress` to its end, or to the slot
whose child could not be cloned. -/
theorem cloneSlots_progress {root : BitVec 64} (hroot : source root = some table)
    (hvalid : ∀ slot, has (table slot) present = true → isLeaf (level + 1) (table slot) = false →
      ValidTree source level (table slot &&& addressMask))
    {cloneChild : BitVec 64 → σ → Option (BitVec 64) × σ}
    (hchild : ∀ (child : BitVec 64) (s : σ), ValidTree source level child → Extends c source s →
      Outcome c source level child s (cloneChild child s))
    (hextends : Extends c source s₀) (slots : List (Fin 512)) (s : σ) (copy : Table)
    (ids : List (BitVec 64)) (handled : List (Fin 512))
    (hsplit : handled ++ slots = allSlots)
    (h : Progress c source level table s₀ clone handled s copy ids) :
    ∃ handled' slots' copy' ids', handled' ++ slots' = allSlots
      ∧ Progress c source level table s₀ clone handled'
          (cloneSlots m (level + 1) cloneChild root clone slots s).2 copy' ids'
      ∧ ((cloneSlots m (level + 1) cloneChild root clone slots s).1 = true → slots' = []) := by
  induction slots generalizing s copy ids handled with
  | nil => exact ⟨handled, [], copy, ids, hsplit, h, fun _ => rfl⟩
  | cons slot slots ih =>
    have hnodup : (handled ++ slot :: slots).Nodup := hsplit ▸ nodup_allSlots
    have hslot : slot ∉ handled := fun hmem =>
      (nodup_append.mp hnodup).2.2 slot hmem slot mem_cons_self rfl
    have hnext : (handled ++ [slot]) ++ slots = allSlots := by
      rw [append_assoc]
      exact hsplit
    have hnow := hextends.allocated h.allocated
    unfold cloneSlots
    rw [c.read s root table slot (hnow root table hroot)]
    dsimp only
    by_cases habsent : has (table slot) present = false
    · rw [if_pos habsent]
      exact ih s copy ids _ hnext (h.skip hslot habsent)
    rw [if_neg habsent]
    rw [Bool.not_eq_false] at habsent
    by_cases hleaf : isLeaf (level + 1) (table slot) = true
    · rw [if_pos hleaf]
      exact ih _ _ ids _ hnext (h.leaf hslot habsent hleaf)
    rw [if_neg hleaf]
    rw [Bool.not_eq_true] at hleaf
    have hout := hchild _ s (hvalid slot habsent hleaf) hnow
    generalize cloneChild (table slot &&& addressMask) s = result at hout ⊢
    obtain ⟨child | child, s'⟩ := result
    · -- the child undid its own allocations, so the loop stands where it stood
      refine ⟨handled, slot :: slots, copy, ids, hsplit, ?_, nofun⟩
      exact h.same hout.1 hout.2
    · obtain ⟨new, hcloned⟩ := hout
      exact ih _ _ _ _ hnext (h.child hslot habsent hleaf hcloned)

/-- `clone_supervisor` clones the tree or leaves the memory as it was. -/
theorem cloneSupervisor_outcome (level : Nat) (root : BitVec 64) (s : σ)
    (hvalid : ValidTree source level root) (hextends : Extends c source s) :
    Outcome c source level root s (cloneSupervisor m level root s) := by
  induction level generalizing root s with
  | zero => exact hvalid.elim
  | succ level ih =>
    obtain ⟨table, hroot, hslots⟩ := hvalid
    show Outcome c source (level + 1) root s
      (cloneTable m (level + 1) (cloneSupervisor m level) root s)
    unfold cloneTable
    by_cases hdeep : level + 1 < 1 ∨ 4 < level + 1
    · rw [if_pos hdeep]
      exact ⟨rfl, rfl⟩
    rw [if_neg hdeep]
    cases hallocate : m.allocate s with
    | mk clone s₁ =>
      cases clone with
      | none => exact c.allocateNone s s₁ hallocate
      | some clone =>
        have hloop := cloneSlots_progress hroot (fun slot hp => (hslots slot hp).2)
          ih hextends allSlots s₁ _ [] [] (nil_append _) (.start hallocate)
        dsimp only
        generalize cloneSlots m (level + 1) (cloneSupervisor m level) root clone allSlots s₁
          = result at hloop ⊢
        obtain ⟨handled, slots, copy, ids, hsplit, hprogress, hdone⟩ := hloop
        obtain ⟨done | done, s₂⟩ := result
        · exact hprogress.undone hsplit
        cases hdone rfl
        rw [append_nil] at hsplit
        rw [hsplit] at hprogress
        exact ⟨clone :: ids,
          hprogress.cloned hroot (c.allocateSome s s₁ clone hallocate).2.1⟩

end Clone

/-! ## §3. Failed allocations. -/

/-- The same memory, which remembers whether an allocation has failed. -/
def TableMemory.watched {σ : Type} (m : TableMemory σ) : TableMemory (σ × Bool) where
  allocate := fun s => ((m.allocate s.1).1, (m.allocate s.1).2, s.2 || (m.allocate s.1).1.isNone)
  read := fun s => m.read s.1
  write := fun s table slot entry => (m.write s.1 table slot entry, s.2)
  release := fun s table => (m.release s.1 table, s.2)

section Watched

variable {σ : Type} {m : TableMemory σ}

theorem watched_read (s : σ) (failed : Bool) : m.watched.read (s, failed) = m.read s := rfl

theorem watched_allocate (s : σ) (failed : Bool) : m.watched.allocate (s, failed)
    = ((m.allocate s).1, (m.allocate s).2, failed || (m.allocate s).1.isNone) := rfl

/-- The loop of `release_clone` runs in a watched memory as it does without. -/
theorem releaseSlots_watched {level : Nat} {releaseChild : BitVec 64 → σ → σ}
    {releaseChild' : BitVec 64 → σ × Bool → σ × Bool}
    (hchild : ∀ root s failed, releaseChild' root (s, failed) = (releaseChild root s, failed))
    (root : BitVec 64) (slots : List (Fin 512)) (s : σ) (failed : Bool) :
    releaseSlots m.watched level releaseChild' root slots (s, failed)
      = (releaseSlots m level releaseChild root slots s, failed) := by
  induction slots generalizing s with
  | nil => rfl
  | cons slot slots ih =>
    unfold releaseSlots
    rw [watched_read]
    dsimp only
    split
    · rw [hchild]
      exact ih _
    · exact ih _

/-- Releasing allocates nothing. -/
theorem releaseClone_watched (level : Nat) (root : BitVec 64) (s : σ) (failed : Bool) :
    releaseClone m.watched level root (s, failed) = (releaseClone m level root s, failed) := by
  induction level generalizing root s failed with
  | zero => rfl
  | succ level ih =>
    cases level with
    | zero => rfl
    | succ level =>
      show m.watched.release (releaseSlots m.watched _ _ _ _ _) root = _
      rw [releaseSlots_watched ih]
      rfl

/-- A watched run of `clone`: the same result, and a failure exactly when there
is no clone. -/
def Watches (clone : BitVec 64 → σ → Option (BitVec 64) × σ)
    (clone' : BitVec 64 → σ × Bool → Option (BitVec 64) × (σ × Bool)) : Prop :=
  ∀ root s failed,
    clone' root (s, failed) = ((clone root s).1, (clone root s).2, failed || (clone root s).1.isNone)

/-- The loop stops only at a child that could not be cloned. -/
theorem cloneSlots_watched {level : Nat} {clone : BitVec 64 → σ → Option (BitVec 64) × σ}
    {clone' : BitVec 64 → σ × Bool → Option (BitVec 64) × (σ × Bool)}
    (hchild : level ≠ 1 → Watches clone clone') (source destination : BitVec 64)
    (slots : List (Fin 512)) (s : σ) (failed : Bool) :
    cloneSlots m.watched level clone' source destination slots (s, failed)
      = ((cloneSlots m level clone source destination slots s).1,
          (cloneSlots m level clone source destination slots s).2,
          failed || !(cloneSlots m level clone source destination slots s).1) := by
  induction slots generalizing s with
  | nil => simp [cloneSlots]
  | cons slot slots ih =>
    unfold cloneSlots
    rw [watched_read]
    dsimp only
    split
    · exact ih s
    split
    · exact ih _
    rename_i hleaf
    -- at level 1 every entry is a leaf, so there is a child level
    have hlevel : level ≠ 1 := by
      rintro rfl
      exact hleaf rfl
    rw [hchild hlevel]
    cases hclone : clone (m.read s source slot &&& addressMask) s with
    | mk child s' =>
      cases child with
      | none => simp
      | some child =>
        have hnext := ih (m.write s' destination slot
          (child ||| (m.read s source slot &&& ~~~addressMask &&& ~~~user)))
        simp only [Option.isNone_some, Bool.or_false]
        exact hnext

/-- A clone of depth 1 to 4 is refused exactly when one of its allocations was. -/
theorem cloneSupervisor_watched (level : Nat) (hlevel : 1 ≤ level ∧ level ≤ 4) :
    Watches (cloneSupervisor m level) (cloneSupervisor m.watched level) := by
  induction level with
  | zero => omega
  | succ level ih =>
    intro root s failed
    show cloneTable m.watched (level + 1) (cloneSupervisor m.watched level) root (s, failed)
      = ((cloneTable m (level + 1) (cloneSupervisor m level) root s).1,
        (cloneTable m (level + 1) (cloneSupervisor m level) root s).2,
        failed || (cloneTable m (level + 1) (cloneSupervisor m level) root s).1.isNone)
    have hdepth : ¬(level + 1 < 1 ∨ 4 < level + 1) := by omega
    unfold cloneTable
    rw [if_neg hdepth, if_neg hdepth, watched_allocate]
    cases hallocate : m.allocate s with
    | mk destination s₁ =>
      cases destination with
      | none => rfl
      | some destination =>
        have hbelow : level + 1 ≠ 1 →
            Watches (cloneSupervisor m level) (cloneSupervisor m.watched level) :=
          fun hone => ih ⟨by omega, by omega⟩
        have hloop := cloneSlots_watched (m := m) hbelow root destination allSlots s₁
          (failed || (some destination).isNone)
        dsimp only
        rw [hloop]
        generalize cloneSlots m (level + 1) (cloneSupervisor m level) root destination
          allSlots s₁ = result
        obtain ⟨done | done, s₂⟩ := result
        · show (none, releaseClone m.watched (level + 1) destination (s₂, _)) = _
          rw [releaseClone_watched]
          simp
        · simp

end Watched

/-! ## §4. The clone and its source. -/

/-- Clearing the user bit keeps the address. -/
theorem Translation.physical_supervisor (t : Translation) (address : BitVec 64) :
    t.supervisor.physical address = t.physical address := by
  unfold physical supervisor
  rw [clear_and (by decide)]

section Equivalence

variable {σ : Type} {m : TableMemory σ} (c : Contract m)

/-- A clone that can stand for its source: it maps every address to the same
memory without the user bit, its tables are new, everything that was live is
unchanged, and `release_clone` gives back those tables and nothing else. -/
structure Equivalent (level : Nat) (root : BitVec 64) (s : σ) (clone : BitVec 64) (s' : σ) :
    Prop where
  translates : ∀ address, translate (c.tables s') address level clone
    = (translate (c.tables s) address level root).map Translation.supervisor
  physical : ∀ address, (translate (c.tables s') address level clone).map (·.physical address)
    = (translate (c.tables s) address level root).map (·.physical address)
  apart : Disjoint (tablesOf (c.tables s') level clone) (tablesOf (c.tables s) level root)
  unchanged : ∀ t table, c.tables s t = some table → c.tables s' t = some table
  allocated : c.owned s' = c.owned s ∪ tablesOf (c.tables s') level clone
  released : c.owned (releaseClone m level clone s')
    = c.owned s' \ tablesOf (c.tables s') level clone
  restored : c.tables (releaseClone m level clone s') = c.tables s
    ∧ c.owned (releaseClone m level clone s') = c.owned s

/-- The two ends of `clone_supervisor`: nothing has changed, or there is a clone
that is equivalent to its source. -/
def AllOrNothing (level : Nat) (root : BitVec 64) (s : σ) : Option (BitVec 64) × σ → Prop
  | (none, s') => c.tables s' = c.tables s ∧ c.owned s' = c.owned s
  | (some clone, s') => Equivalent c level root s clone s'

variable {c}

theorem Cloned.equivalent {level : Nat} {root clone : BitVec 64} {s s' : σ}
    {ids : List (BitVec 64)} (hvalid : ValidTree (c.tables s) level root)
    (h : Cloned c (c.tables s) level root s clone s' ids) :
    Equivalent c level root s clone s' := by
  have htables := h.built.tablesOf
  have howned : ∀ t ∈ ids, t ∈ c.owned s' := by
    intro t ht
    rw [h.allocated.owned]
    exact .inr ht
  have hreleased := releaseClone_released level s' clone ids h.built h.allocated.nodup howned
  refine ⟨h.translates, ?_, ?_, ?_, ?_, ?_, h.allocated.released hreleased⟩
  · intro address
    rw [h.translates, Option.map_map]
    exact congrArg (fun f => Option.map f _)
      (funext fun t => Translation.physical_supervisor t address)
  · rw [htables, Set.disjoint_left]
    intro t ht hsource
    exact hvalid.live hsource (h.allocated.fresh t ht)
  · intro t table ht
    exact Extends.allocated (fun _ _ h => h) h.allocated t table ht
  · rw [htables, h.allocated.owned]
    rfl
  · rw [htables, hreleased.owned]
    rfl

/-- For every allocator and every valid tree of depth 1 to 4, `clone_supervisor`
is refused exactly when one of its allocations failed, and then nothing has
changed; otherwise the clone is equivalent to its source. -/
theorem supervisor_clone_equivalence (c : Contract m) (level : Nat) (hlevel : 1 ≤ level ∧ level ≤ 4)
    (root : BitVec 64) (s : σ) (hvalid : ValidTree (c.tables s) level root) :
    ((cloneSupervisor m level root s).1 = none
      ↔ (cloneSupervisor m.watched level root (s, false)).2.2 = true)
    ∧ AllOrNothing c level root s (cloneSupervisor m level root s) := by
  constructor
  · rw [cloneSupervisor_watched level hlevel]
    exact Option.isNone_iff_eq_none.symm
  · have hout := cloneSupervisor_outcome level root s hvalid fun _ _ h => h
    generalize cloneSupervisor m level root s = result at hout ⊢
    obtain ⟨clone | clone, s'⟩ := result
    · exact hout
    · obtain ⟨ids, hcloned⟩ := hout
      exact hcloned.equivalent hvalid

end Equivalence

/-! ## §5. A memory with a pool of tables. -/

/-- Tables, those allocated, and the numbers still free. -/
structure Pool where
  tables : BitVec 64 → Option Table
  owned : List (BitVec 64)
  free : List (BitVec 64)
  ownedLive : ∀ t ∈ owned, tables t ≠ none
  fresh : ∀ t ∈ free, tables t = none
  aligned : ∀ t ∈ free, t &&& addressMask = t
  nodup : free.Nodup

namespace Pool

/-- The pool with one table put in the place of a live one. -/
def put (p : Pool) (t : BitVec 64) (table : Table) (h : p.tables t ≠ none) : Pool where
  tables := Function.update p.tables t (some table)
  owned := p.owned
  free := p.free
  ownedLive := by
    intro u hu
    by_cases heq : u = t
    · rw [heq, Function.update_self]
      nofun
    · rw [Function.update_of_ne heq]
      exact p.ownedLive u hu
  fresh := by
    intro u hu
    rw [Function.update_of_ne (by rintro rfl; exact h (p.fresh u hu))]
    exact p.fresh u hu
  aligned := p.aligned
  nodup := p.nodup

/-- Take the next free number. -/
def allocate (p : Pool) : Option (BitVec 64) × Pool :=
  match h : p.free with
  | [] => (none, p)
  | t :: free => (some t,
    { tables := Function.update p.tables t (some fun _ => 0)
      owned := t :: p.owned
      free := free
      ownedLive := by
        intro u hu
        by_cases heq : u = t
        · rw [heq, Function.update_self]
          nofun
        · rw [Function.update_of_ne heq]
          exact p.ownedLive u ((List.mem_cons.mp hu).resolve_left heq)
      fresh := by
        intro u hu
        have hnodup := h ▸ p.nodup
        rw [Function.update_of_ne (by rintro rfl; exact (List.nodup_cons.mp hnodup).1 hu)]
        exact p.fresh u (h ▸ List.mem_cons_of_mem t hu)
      aligned := fun u hu => p.aligned u (h ▸ List.mem_cons_of_mem t hu)
      nodup := (List.nodup_cons.mp (h ▸ p.nodup)).2 })

/-- Forget a table. -/
def release (p : Pool) (t : BitVec 64) : Pool where
  tables := Function.update p.tables t none
  owned := p.owned.filter (· ≠ t)
  free := p.free
  ownedLive := by
    intro u hu
    rw [List.mem_filter, decide_eq_true_eq] at hu
    rw [Function.update_of_ne hu.2]
    exact p.ownedLive u hu.1
  fresh := by
    intro u hu
    by_cases heq : u = t
    · rw [heq, Function.update_self]
    · rw [Function.update_of_ne heq]
      exact p.fresh u hu
  aligned := p.aligned
  nodup := p.nodup

/-- The pool as a memory of tables. -/
def memory : TableMemory Pool where
  allocate := allocate
  read := fun p t slot => match p.tables t with
    | some table => table slot
    | none => 0
  write := fun p t slot entry => match h : p.tables t with
    | some table => p.put t (Function.update table slot entry) (by rw [h]; nofun)
    | none => p
  release := release

/-- The pool keeps the contract. -/
def contract : Contract memory where
  tables := tables
  owned := fun p => { t | t ∈ p.owned }
  ownedLive := fun p => p.ownedLive
  allocateSome := by
    intro p p' t h
    unfold memory allocate at h
    dsimp only at h
    split at h
    · cases h
    rename_i free hfree
    cases h
    have ht : t ∈ p.free := hfree ▸ List.mem_cons_self
    refine ⟨p.fresh t ht, p.aligned t ht, rfl, ?_⟩
    ext u
    exact List.mem_cons
  allocateNone := by
    intro p p' h
    unfold memory allocate at h
    dsimp only at h
    split at h
    · cases h
      exact ⟨rfl, rfl⟩
    · cases h
  read := by
    intro p t table slot h
    unfold memory
    dsimp only
    rw [h]
  write := by
    intro p t table slot entry h
    unfold memory
    dsimp only
    split
    · rename_i table' h'
      obtain rfl : table' = table := Option.some.inj (h'.symm.trans h)
      exact ⟨rfl, rfl⟩
    · rename_i h'
      rw [h] at h'
      cases h'
  release := by
    intro p t _
    refine ⟨rfl, ?_⟩
    ext u
    show u ∈ p.owned.filter (· ≠ t) ↔ u ∈ p.owned ∧ u ∉ ({t} : Set (BitVec 64))
    rw [List.mem_filter, decide_eq_true_eq, Set.mem_singleton_iff]

/-- A root at `0x1000` over one table at `0x2000`, which maps one page. -/
def sample : Pool where
  tables := fun t =>
    if t = 0x1000 then some fun slot => if slot = 0 then 0x2007 else 0
    else if t = 0x2000 then some fun slot => if slot = 5 then 0x9007 else 0
    else none
  owned := []
  free := [0x3000, 0x4000]
  ownedLive := nofun
  fresh := by
    intro t ht
    have hother : t ≠ 0x1000 ∧ t ≠ 0x2000 := by
      rcases List.mem_pair.mp ht with rfl | rfl
      · decide
      · decide
    rw [if_neg hother.1, if_neg hother.2]
  aligned := by
    intro t ht
    rcases List.mem_pair.mp ht with rfl | rfl
    · decide
    · decide
  nodup := by decide

theorem sample_valid : ValidTree sample.tables 2 0x1000 := by
  refine ⟨_, rfl, ?_⟩
  intro slot hpresent
  refine ⟨nofun, fun _ => ?_⟩
  by_cases hslot : slot = 0
  · subst hslot
    refine ⟨_, rfl, fun slot _ => ⟨nofun, nofun⟩⟩
  · rw [if_neg hslot] at hpresent
    cases hpresent

end Pool

/-- The sample is cloned into the two free tables. -/
theorem supervisor_clone_sample :
    (cloneSupervisor Pool.memory 2 0x1000 Pool.sample).1 = some 0x3000
    ∧ ((cloneSupervisor Pool.memory 2 0x1000 Pool.sample).1 = none
      ↔ (cloneSupervisor Pool.memory.watched 2 0x1000 (Pool.sample, false)).2.2 = true)
    ∧ AllOrNothing Pool.contract 2 0x1000 Pool.sample
        (cloneSupervisor Pool.memory 2 0x1000 Pool.sample) :=
  ⟨by decide +kernel,
    supervisor_clone_equivalence Pool.contract 2 (by decide) 0x1000 Pool.sample Pool.sample_valid⟩

end GenOS.PageTable
