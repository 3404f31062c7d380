/-
  GenOS.Paging.OwnershipSteps — the changes the operations are made of.

  A user table or page is granted, a page of memory is overwritten, the write
  bit of the supervisor alias changes, a binding changes, a frame is released.
  Each of these keeps the ownership invariant, under the condition it needs:
  a frame may be released or rebound only when no entry links it.
-/
import GenOS.Paging.Ownership

namespace GenOS.Paging

open GenOS.Lib GenOS.Memory Function Ledger
open GenOS.Lib.Masks (has has_eq_false)

variable {words n : Nat} {m m' : MemoryState words n}
variable {root : Nat} {kernel : Nat → Nat → Prop} {place : Place} {spaces : List AddressSpace}
variable {o o' : Owner} {t f va : Nat} {g : Grant} {r : Record} {slot : Nat}

/-! ## §1. What every change keeps. -/

/-- What a change does to the records and the supervisor tables, whatever it is
for: no authority that was given out comes to life again. -/
structure Advance (m m' : MemoryState words n) : Prop where
  mem : MemInv m'
  regions : m'.allocator.regions = m.allocator.regions
  kernel : SameKernel m m'
  generation : m.grants.nextGeneration ≤ m'.grants.nextGeneration
  nextOwner : m.grants.nextOwner ≤ m'.grants.nextOwner
  live : ∀ g : Grant, g.generation < m.grants.nextGeneration → m'.grants.isLive g = true →
    m.grants.isLive g = true

/-- Besides, a change has to account for its tables and its pages. -/
theorem Owned.step {place' : Place} (h : Owned m root kernel place spaces) (ha : Advance m m')
    (hplace : ∀ o t, Tab m o t → place' t = place t)
    (htables : ∀ o t, o ≠ .kernel → Tab m' o t → TableOk m' place' o t)
    (hunique : ∀ o t t', o ≠ .kernel → Tab m' o t → Tab m' o t' → place' t = place' t' → t = t')
    (hbound : ∀ o f va, va ≠ 0 → Usr m' o f va → (aliasSlot m (some root) f).isSome = true)
    (howners : ∀ slot r, m'.grants.Held slot r → r.owner.id < m.grants.nextOwner) :
    Owned m' root kernel place' spaces where
  mem := ha.mem
  low := by
    rw [ha.regions]
    exact h.low
  tables := htables
  unique := hunique
  bound := by
    intro o f va hva hu
    rw [aliasSlot_congr h.kernelOk ha.kernel]
    exact hbound o f va hva hu
  owners := fun slot r hr => Nat.lt_of_lt_of_le (howners slot r hr) ha.nextOwner
  nextOwner := Nat.lt_of_lt_of_le h.nextOwner ha.nextOwner
  spacesOk := by
    intro sp hsp
    have hok := h.spacesOk sp hsp
    refine ⟨hok.root, hok.owner, hok.kind, hok.notKernel,
      Nat.lt_of_lt_of_le hok.issued ha.nextOwner, Nat.lt_of_lt_of_le hok.older ha.generation,
      fun hlive => ?_⟩
    have hlive := ha.live _ hok.older hlive
    rw [hplace _ _ (hok.tab hlive)]
    exact hok.placed hlive
  distinct := h.distinct
  kernelOk := h.kernelOk.mono ha.kernel

section Records

variable (hrecords : m'.grants.records = m.grants.records)

include hrecords

theorem held_of_records {x : Record} : m'.grants.Held slot x ↔ m.grants.Held slot x := by
  unfold Ledger.Held
  rw [hrecords]

theorem tab_of_records : Tab m' o t ↔ Tab m o t := by
  unfold Tab
  simp only [held_of_records hrecords]

theorem usr_of_records : Usr m' o f va ↔ Usr m o f va := by
  unfold Usr
  simp only [held_of_records hrecords]

/-- A change of memory alone has to keep the tables. -/
theorem Owned.steady (h : Owned m root kernel place spaces) (hm : MemInv m')
    (hregions : m'.allocator.regions = m.allocator.regions) (hkernel : SameKernel m m')
    (hgeneration : m.grants.nextGeneration ≤ m'.grants.nextGeneration)
    (hnext : m.grants.nextOwner ≤ m'.grants.nextOwner)
    (htables : ∀ o t, o ≠ .kernel → Tab m o t → TableOk m' place o t) :
    Owned m' root kernel place spaces := by
  have hlive : ∀ g, m'.grants.isLive g = m.grants.isLive g := by
    intro g
    unfold Ledger.isLive
    rw [hrecords]
  refine h.step ⟨hm, hregions, hkernel, hgeneration, hnext, fun g _ hg => (hlive g).symm.trans hg⟩
    (fun _ _ _ => rfl) ?_ ?_ ?_ ?_
  · exact fun o t ho ht => htables o t ho ((tab_of_records hrecords).mp ht)
  · intro o t t' ho ht ht'
    exact h.unique o t t' ho ((tab_of_records hrecords).mp ht) ((tab_of_records hrecords).mp ht')
  · exact fun o f va hva hu => h.bound o f va hva ((usr_of_records hrecords).mp hu)
  · exact fun slot r hr => h.owners slot r ((held_of_records hrecords).mp hr)

end Records

/-- The records and the live memory are the same; counters may have advanced. -/
structure Same (m m' : MemoryState words n) : Prop where
  regions : m'.allocator.regions = m.allocator.regions
  records : m'.grants.records = m.grants.records
  generation : m.grants.nextGeneration ≤ m'.grants.nextGeneration
  nextOwner : m.grants.nextOwner ≤ m'.grants.nextOwner
  contents : ∀ f, LiveAt m.allocator f → m'.contents f = m.contents f

theorem Same.refl (m : MemoryState words n) : Same m m :=
  ⟨rfl, rfl, Nat.le_refl _, Nat.le_refl _, fun _ _ => rfl⟩

theorem quiet_same (hq : Quiet m m') : Same m m' :=
  ⟨hq.regions, hq.records, Nat.le_of_eq hq.generation.symm, hq.owner, fun f _ => by
    rw [hq.contents]⟩

section

variable (hs : Same m m')

include hs

theorem Same.held {x : Record} :
    m'.grants.Held slot x ↔ m.grants.Held slot x := held_of_records hs.records

theorem Same.tab : Tab m' o t ↔ Tab m o t := tab_of_records hs.records

theorem Same.usr : Usr m' o f va ↔ Usr m o f va := usr_of_records hs.records

theorem Same.live (h : MemInv m) (h' : MemInv m') :
    LiveAt m'.allocator f ↔ LiveAt m.allocator f := by
  rw [h.coupled, h'.coupled]
  unfold Ledger.Holds
  simp only [hs.held]

theorem Same.trans {m'' : MemoryState words n} (hs' : Same m' m'') (h : MemInv m) (h' : MemInv m') :
    Same m m'' := by
  refine ⟨hs'.regions.trans hs.regions, hs'.records.trans hs.records,
    Nat.le_trans hs.generation hs'.generation, Nat.le_trans hs.nextOwner hs'.nextOwner, ?_⟩
  intro f hf
  rw [hs'.contents f ((hs.live h h').mpr hf), hs.contents f hf]

theorem Same.sameKernel (h : MemInv m) : SameKernel m m' := by
  intro t ht
  refine ⟨hs.tab.mpr ht, fun s => .inl ?_⟩
  rw [hs.contents t (ht.live h)]

end

theorem Owned.same (h : Owned m root kernel place spaces) (hs : Same m m') (hm : MemInv m') :
    Owned m' root kernel place spaces := by
  refine h.steady hs.records hm hs.regions (hs.sameKernel h.mem) hs.generation hs.nextOwner ?_
  intro o t ho ht
  exact (h.tables o t ho ht).mono (hs.contents t (ht.live h.mem)) rfl
    (fun s c _ hc => ⟨hs.tab.mpr hc, rfl⟩) (fun s f w x va _ hu => hs.usr.mpr hu)

/-! ## §2. A new frame. -/

section Grants

variable {k : Kind}

section

variable (hg : Granted m o k g m')

include hg

theorem granted_tab (ht : Tab m o' t) : Tab m' o' t := by
  obtain ⟨slot, r, hr, hrest⟩ := ht
  exact ⟨slot, r, hg.held_old hr, hrest⟩

theorem granted_usr (hu : Usr m o' f va) : Usr m' o' f va := by
  obtain ⟨slot, r, hr, hrest⟩ := hu
  exact ⟨slot, r, hg.held_old hr, hrest⟩

theorem granted_tab_cases (ht : Tab m' o' t) :
    Tab m o' t ∨ (o' = o ∧ k = .table ∧ t = g.address) := by
  obtain ⟨slot, r, hr, haddress, howner, hkind⟩ := ht
  rcases hg.held_cases hr with hr | ⟨-, rfl⟩
  · exact .inl ⟨slot, r, hr, haddress, howner, hkind⟩
  · exact .inr ⟨howner.symm, hkind, haddress.symm⟩

theorem granted_usr_cases (hu : Usr m' o' f va) : Usr m o' f va ∨ va = 0 := by
  obtain ⟨slot, r, hr, haddress, howner, hkind, hmapped⟩ := hu
  rcases hg.held_cases hr with hr | ⟨-, rfl⟩
  · exact .inl ⟨slot, r, hr, haddress, howner, hkind, hmapped⟩
  · exact .inr hmapped.symm

theorem granted_contents (hf : LiveAt m.allocator f) : m'.contents f = m.contents f := by
  have hne : f ≠ g.address := fun h => hg.fresh (h ▸ hf)
  rw [hg.contents, update_of_ne hne]

theorem granted_sameKernel (h : MemInv m) : SameKernel m m' := by
  intro t ht
  refine ⟨granted_tab hg ht, fun s => .inl ?_⟩
  rw [granted_contents hg (ht.live h)]

theorem granted_advance (h : MemInv m) (hm : MemInv m') : Advance m m' := by
  refine ⟨hm, hg.regions, granted_sameKernel hg h, ?_, ?_, fun g' hold hlive => ?_⟩
  · rw [hg.grants]
    exact Nat.le_succ _
  · rw [hg.grants]
    exact Nat.le_refl _
  · -- the authority is older than the new grant
    obtain ⟨y, hy, hyg⟩ := isLive_iff.mp hlive
    rcases hg.held_cases hy with hy | ⟨-, rfl⟩
    · exact isLive_iff.mpr ⟨y, hy, hyg⟩
    · rw [← hyg] at hold
      exact absurd (hg.generation ▸ hold) (Nat.lt_irrefl _)

end

variable (h : Owned m root kernel place spaces)

include h

/-- A new frame; a table needs a good page and a place of its own. -/
theorem Owned.grant {place' : Place} (hg : Granted m o k g m') (hm : MemInv m')
    (ho : o.id < m.grants.nextOwner) (hplace : ∀ o' t, Tab m o' t → place' t = place t)
    (htable : k = .table → TableOk m' place' o g.address)
    (hfree : k = .table → ∀ t, Tab m o t → place t ≠ place' g.address) :
    Owned m' root kernel place' spaces := by
  refine h.step (granted_advance hg h.mem hm) hplace ?_ ?_ ?_ ?_
  · intro o' t ho' ht
    rcases granted_tab_cases hg ht with ht | ⟨rfl, hk, rfl⟩
    · exact (h.tables o' t ho' ht).mono (granted_contents hg (ht.live h.mem)) (hplace o' t ht)
        (fun s c _ hc => ⟨granted_tab hg hc, hplace o' c hc⟩)
        (fun s f w x va _ hu => granted_usr hg hu)
    · exact htable hk
  · intro o' t t' ho' ht ht' heq
    rcases granted_tab_cases hg ht with ht | ⟨ho₁, hk, rfl⟩
    · rcases granted_tab_cases hg ht' with ht' | ⟨ho₂, hk, rfl⟩
      · rw [hplace o' t ht, hplace o' t' ht'] at heq
        exact h.unique o' t t' ho' ht ht' heq
      · rw [hplace o' t ht] at heq
        exact absurd heq (hfree hk t (ho₂ ▸ ht))
    · rcases granted_tab_cases hg ht' with ht' | ⟨ho₂, -, rfl⟩
      · rw [hplace o' t' ht'] at heq
        exact absurd heq.symm (hfree hk t' (ho₁ ▸ ht'))
      · rfl
  · intro o' f va hva hu
    rcases granted_usr_cases hg hu with hu | hzero
    · exact h.bound o' f va hva hu
    · exact absurd hzero hva
  · intro slot r hr
    rcases hg.held_cases hr with hr | ⟨-, rfl⟩
    · exact h.owners slot r hr
    · exact ho

/-- A new page for a user. -/
theorem Owned.grantUser (hg : Granted m o .user g m') (hm : MemInv m')
    (ho : o.id < m.grants.nextOwner) : Owned m' root kernel place spaces :=
  h.grant hg hm ho (fun _ _ _ => rfl) (fun hk => nomatch hk) (fun hk => nomatch hk)

/-- A new table at a place that is not taken. -/
theorem Owned.grantTable (hg : Granted m o .table g m') (hm : MemInv m')
    (ho : o.id < m.grants.nextOwner) {p : Nat × Nat} (hp : BaseOk p.1 p.2)
    (hfree : ∀ t, Tab m o t → place t ≠ p) :
    Owned m' root kernel (Function.update place g.address p) spaces := by
  have hnew : Function.update place g.address p g.address = p := update_self _ _ _
  refine h.grant hg hm ho (fun o' t ht => ?_) (fun _ => ?_)
    (fun _ t ht => by rw [hnew]; exact hfree t ht)
  · exact update_of_ne (fun heq : t = g.address => hg.fresh (heq ▸ ht.live h.mem)) _ _
  -- the page of the new table is zero
  have hzero : ∀ s, m'.contents g.address s = 0#64 := by
    intro s
    rw [hg.contents, update_self]
    rfl
  refine ⟨by rw [hnew]; exact hp, fun s _ => ?_, fun s _ => .inl (hzero s)⟩
  rw [hzero s]
  exact has_zero user

end Grants

/-! ## §3. Memory is overwritten. -/

/-- One page of memory, as a whole. -/
def setPage (m : MemoryState words n) (f : Nat) (page : Page) : MemoryState words n :=
  { m with contents := Function.update m.contents f page }

theorem setPage_inv (h : MemInv m) (f : Nat) (page : Page) : MemInv (setPage m f page) :=
  ⟨h.allocator, h.grants, h.coupled⟩

theorem setPage_contents_of_ne {f f' : Nat} (hne : f' ≠ f) (page : Page) :
    (setPage m f page).contents f' = m.contents f' := update_of_ne hne _ _

theorem setPage_contents_self (f : Nat) (page : Page) : (setPage m f page).contents f = page :=
  update_self _ _ _

theorem writeEntry_eq (m : MemoryState words n) (t : Nat) (s : Fin 512) (e : BitVec 64) :
    writeEntry m t s e = setPage m t (Function.update (m.contents t) s e) := rfl

theorem writeEntry_self (t : Nat) (s : Fin 512) (e : BitVec 64) :
    (writeEntry m t s e).contents t s = e := by
  rw [writeEntry_eq, setPage_contents_self, update_self]

theorem writeEntry_other {t' : Nat} {s s' : Fin 512} (h : ¬ (t' = t ∧ s' = s)) (e : BitVec 64) :
    (writeEntry m t s e).contents t' s' = m.contents t' s' := by
  rw [writeEntry_eq]
  by_cases htt : t' = t
  · subst htt
    rw [setPage_contents_self, update_of_ne (fun hss => h ⟨rfl, hss⟩)]
  · rw [setPage_contents_of_ne htt]

theorem sameKernel_setPage (hkernel : ¬ Tab m .kernel f) (page : Page) :
    SameKernel m (setPage m f page) := by
  intro t ht
  refine ⟨ht, fun s => .inl ?_⟩
  rw [setPage_contents_of_ne (fun heq : t = f => hkernel (heq ▸ ht))]

/-- A page may be overwritten if it is not a table, or stays a good one. -/
theorem Owned.overwrite (h : Owned m root kernel place spaces) (hkernel : ¬ Tab m .kernel f)
    (page : Page)
    (htable : ∀ o, o ≠ .kernel → Tab m o f → TableOk (setPage m f page) place o f) :
    Owned (setPage m f page) root kernel place spaces := by
  have hrecords : (setPage m f page).grants.records = m.grants.records := rfl
  refine h.steady hrecords (setPage_inv h.mem f page) rfl (sameKernel_setPage hkernel page)
    (Nat.le_refl _) (Nat.le_refl _) ?_
  intro o t ho ht
  by_cases hft : t = f
  · subst hft
    exact htable o ho ht
  · exact (h.tables o t ho ht).mono (setPage_contents_of_ne hft page) rfl
      (fun s c _ hc => ⟨hc, rfl⟩) (fun s f w x va _ hu => hu)

/-- One entry of a user table. -/
theorem Owned.write (h : Owned m root kernel place spaces) (ho : o ≠ .kernel)
    (ht : Tab m o t) {s : Fin 512} {e : BitVec 64} (hs : ¬ Shared (place t).1 s)
    (he : EntryOk m place o (place t).1 (place t).2 s e) :
    Owned (writeEntry m t s e) root kernel place spaces := by
  have hkernel : ¬ Tab m .kernel t := fun hk => ho (ht.owner_unique h.mem hk)
  rw [writeEntry_eq]
  refine h.overwrite hkernel _ (fun o' ho' ht' => ?_)
  have howner := ht.owner_unique h.mem ht'
  subst howner
  have hold := h.tables o t ho ht
  refine ⟨hold.base, fun s' hs' => ?_, fun s' hs' => ?_⟩
  · rw [setPage_contents_self]
    have hne : s' ≠ s := fun heq => hs (heq ▸ hs')
    rw [update_of_ne hne]
    exact hold.shared s' hs'
  · rw [setPage_contents_self]
    by_cases hss : s' = s
    · subst hss
      rw [update_self]
      exact he
    · rw [update_of_ne hss]
      exact hold.entries s' hs'

/-! ## §4. The supervisor alias. -/

/-- What setting the write bit of an alias does. -/
structure AliasSet (m m' : MemoryState words n) : Prop where
  allocator : m'.allocator = m.allocator
  grants : m'.grants = m.grants
  contents : ∀ f, ¬ Tab m .kernel f → m'.contents f = m.contents f
  kernel : SameKernel m m'

theorem setUserAliasWritable_spec (hkernel : KernelTree m root kernel) {w : Bool}
    (hset : setUserAliasWritable m (some root) f w = some m') : AliasSet m m' := by
  unfold setUserAliasWritable at hset
  split at hset
  · cases hset
  rename_i t s hslot
  obtain ⟨ht, hpresent⟩ := aliasSlot_some hkernel hslot
  simp only [Option.some.injEq] at hset
  subst hset
  refine ⟨rfl, rfl, fun f hf => ?_, fun t' ht' => ⟨ht', fun s' => ?_⟩⟩
  · exact setPage_contents_of_ne (fun heq : f = t => hf (heq ▸ ht)) _
  by_cases hsame : t' = t ∧ s' = s
  · obtain ⟨rfl, rfl⟩ := hsame
    rw [writeEntry_self]
    refine .inr ⟨hpresent, ?_⟩
    cases w with
    | false => rw [if_neg Bool.false_ne_true, BitVec.and_assoc, BitVec.and_self]
    | true =>
      rw [if_pos rfl]
      apply BitVec.eq_of_getLsbD_eq
      intro i hi
      rw [BitVec.getLsbD_and, BitVec.getLsbD_or, BitVec.getLsbD_not, BitVec.getLsbD_and,
        BitVec.getLsbD_not]
      cases writable.getLsbD i <;> simp
  · exact .inl (writeEntry_other hsame _)

section

variable (ha : AliasSet m m')

include ha

theorem AliasSet.records : m'.grants.records = m.grants.records := by
  rw [ha.grants]

theorem AliasSet.tab : Tab m' o t ↔ Tab m o t := tab_of_records ha.records

theorem AliasSet.inv (h : MemInv m) : MemInv m' := by
  refine ⟨?_, ?_, ?_⟩
  · rw [ha.allocator]
    exact h.allocator
  · rw [ha.grants]
    exact h.grants
  · rw [ha.allocator, ha.grants]
    exact h.coupled

theorem AliasSet.user_contents (h : MemInv m) (ho : o ≠ .kernel) (ht : Tab m o t) :
    m'.contents t = m.contents t :=
  ha.contents t (fun hk => ho (ht.owner_unique h hk))

end

theorem Owned.aliasSet (h : Owned m root kernel place spaces) (ha : AliasSet m m') :
    Owned m' root kernel place spaces := by
  refine h.steady ha.records (ha.inv h.mem) (by rw [ha.allocator]) ha.kernel
    (by rw [ha.grants]) (by rw [ha.grants]) ?_
  intro o t ho ht
  exact (h.tables o t ho ht).mono (ha.user_contents h.mem ho ht) rfl
    (fun s c _ hc => ⟨ha.tab.mpr hc, rfl⟩)
    (fun s f w x va _ hu => (usr_of_records ha.records).mpr hu)

/-! ## §5. A binding changes. -/

/-- The binding of the page recorded in `slot`. -/
def setBinding (m : MemoryState words n) (slot va : Nat) : MemoryState words n :=
  { m with grants := m.grants.setMappedAt slot va }

section Bindings

variable (hr : m.grants.Held slot r)

include hr

theorem held_setBinding {s : Nat} {x : Record} :
    (setBinding m slot va).grants.Held s x
      ↔ if s = slot then x = { r with mappedAt := va } ∧ r.address ≠ 0 else m.grants.Held s x := by
  unfold setBinding setMappedAt
  rw [hr.record]
  exact held_put hr.lt

/-- The records that differ from the rebound one in kind or address stay. -/
theorem exists_held_setBinding {P : Record → Prop} (hold : ¬ P r)
    (hnew : ¬ P { r with mappedAt := va }) :
    (∃ s x, (setBinding m slot va).grants.Held s x ∧ P x) ↔ ∃ s x, m.grants.Held s x ∧ P x := by
  constructor
  · intro ⟨s, x, hx, hP⟩
    rw [held_setBinding hr] at hx
    split at hx
    · exact absurd (hx.1 ▸ hP) hnew
    · exact ⟨s, x, hx, hP⟩
  · intro ⟨s, x, hx, hP⟩
    have hs : s ≠ slot := by
      intro hs
      subst hs
      exact hold (hx.unique hr ▸ hP)
    refine ⟨s, x, ?_, hP⟩
    rw [held_setBinding hr, if_neg hs]
    exact hx

theorem tab_setBinding (hkind : r.kind = .user) : Tab (setBinding m slot va) o t ↔ Tab m o t := by
  have hnot : ¬ r.kind = .table := by
    rw [hkind]
    decide
  exact exists_held_setBinding hr (fun h => hnot h.2.2) (fun h => hnot h.2.2)

theorem usr_setBinding_of_ne {v : Nat} (hne : f ≠ r.address) :
    Usr (setBinding m slot va) o f v ↔ Usr m o f v :=
  exists_held_setBinding hr (fun h => hne h.1.symm) (fun h => hne h.1.symm)

theorem usr_setBinding_self (hkind : r.kind = .user) :
    Usr (setBinding m slot va) r.owner r.address va := by
  refine ⟨slot, { r with mappedAt := va }, ?_, rfl, rfl, hkind, rfl⟩
  rw [held_setBinding hr, if_pos rfl]
  exact ⟨rfl, hr.2⟩

/-- A page that no entry links may be bound or unbound. -/
theorem Owned.rebind (h : Owned m root kernel place spaces) (hkind : r.kind = .user)
    (hunlinked : Unlinked m place r.address) (haligned : va ≠ 0 → va % pageSize = 0)
    (halias : va ≠ 0 → (aliasSlot m (some root) r.address).isSome = true) :
    Owned (setBinding m slot va) root kernel place spaces := by
  have hmem : MemInv (setBinding m slot va) :=
    h.mem.setMappedAt hr (fun hva => ⟨hkind, haligned hva⟩)
  have hsame : SameKernel m (setBinding m slot va) :=
    fun t ht => ⟨(tab_setBinding hr hkind).mpr ht, fun s => .inl rfl⟩
  refine h.step ⟨hmem, rfl, hsame, Nat.le_refl _, Nat.le_refl _, fun g _ hlive => ?_⟩
    (fun _ _ _ => rfl) ?_ ?_ ?_ ?_
  · rw [← isLive_setMappedAt hr va]
    exact hlive
  · intro o t ho ht
    have ht := (tab_setBinding hr hkind).mp ht
    refine (h.tables o t ho ht).mono rfl rfl
      (fun s c _ hc => ⟨(tab_setBinding hr hkind).mpr hc, rfl⟩) (fun s f w x v he hu => ?_)
    -- the entry links another page
    refine (usr_setBinding_of_ne hr (fun hf => ?_)).mpr hu
    have hok := h.frameOk (hu.live h.mem)
    have hshared : ¬ Shared (place t).1 s := by
      intro hs
      have := (h.tables o t ho ht).shared s hs
      rw [he, leafEntry_user hok] at this
      cases this
    refine hunlinked o t s ho ht hshared (by rw [he]; exact leafEntry_ne_zero hok) ?_
    rw [he, frameOf_leafEntry hok, hf]
  · intro o t t' ho ht ht'
    exact h.unique o t t' ho ((tab_setBinding hr hkind).mp ht) ((tab_setBinding hr hkind).mp ht')
  · intro o f v hv hu
    by_cases hf : f = r.address
    · subst hf
      have hva := (hu.unique hmem (usr_setBinding_self hr hkind)).2
      rw [hva] at hv
      exact halias hv
    · exact h.bound o f v hv ((usr_setBinding_of_ne hr hf).mp hu)
  · intro s x hx
    rw [held_setBinding hr] at hx
    split at hx
    · rw [hx.1]
      exact h.owners slot r hr
    · exact h.owners s x hx

end Bindings

/-! ## §6. A frame is released. -/

theorem released_contents (hrel : Released m g m') (hrg : r.grant slot = g)
    (hne : f ≠ r.address) : m'.contents f = m.contents f := by
  have haddress : r.address = g.address := by
    rw [← hrg]
    rfl
  rw [haddress] at hne
  rw [hrel.contents, update_of_ne hne]

section Releases

variable (hrel : Released m g m') (hr : m.grants.Held g.slot r) (hrg : r.grant g.slot = g)

include hrel hr

/-- The records of other frames stay. -/
theorem exists_held_released (h : MemInv m) {a : Nat} {P : Record → Prop} :
    (∃ s x, m'.grants.Held s x ∧ x.address = a ∧ P x)
      ↔ (∃ s x, m.grants.Held s x ∧ x.address = a ∧ P x) ∧ a ≠ r.address := by
  constructor
  · intro ⟨s, x, hx, haddress, hrest⟩
    obtain ⟨hs, hx⟩ := (hrel.held_iff hr).mp hx
    refine ⟨⟨s, x, hx, haddress, hrest⟩, fun heq => hs ?_⟩
    exact (h.held_unique hx hr (haddress.trans heq)).1
  · intro ⟨⟨s, x, hx, haddress, hrest⟩, hne⟩
    refine ⟨s, x, (hrel.held_iff hr).mpr ⟨fun hs => hne ?_, hx⟩, haddress, hrest⟩
    subst hs
    rw [← haddress, hx.unique hr]

theorem released_tab (h : MemInv m) : Tab m' o t ↔ Tab m o t ∧ t ≠ r.address :=
  exists_held_released hrel hr h

theorem released_usr (h : MemInv m) : Usr m' o f va ↔ Usr m o f va ∧ f ≠ r.address :=
  exists_held_released hrel hr h

include hrg

/-- A frame that no entry links may be released. -/
theorem Owned.release (h : Owned m root kernel place spaces) (hm : MemInv m')
    (howner : r.owner ≠ .kernel) (hunlinked : Unlinked m place r.address) :
    Owned m' root kernel place spaces := by
  have hsame : SameKernel m m' := by
    intro t ht
    have hne : t ≠ r.address := by
      intro heq
      obtain ⟨s, x, hx, haddress, hxowner, -⟩ := ht
      have := (h.mem.held_unique hx hr (haddress.trans heq)).2
      rw [this] at hxowner
      exact howner hxowner
    refine ⟨(released_tab hrel hr h.mem).mpr ⟨ht, hne⟩, fun s => .inl ?_⟩
    rw [released_contents hrel hrg hne]
  refine h.step ⟨hm, hrel.regions, hsame, by rw [hrel.grants]; exact Nat.le_refl _,
    by rw [hrel.grants]; exact Nat.le_refl _, fun g' _ hlive => ?_⟩ (fun _ _ _ => rfl) ?_ ?_ ?_ ?_
  · rw [hrel.grants] at hlive
    exact isLive_of_vacate hr hlive
  · intro o t ho ht
    obtain ⟨ht, hne⟩ := (released_tab hrel hr h.mem).mp ht
    have hentry : ∀ s, m.contents t s ≠ 0#64 → has (m.contents t s) user = true →
        frameOf (m.contents t s) ≠ r.address := by
      intro s he huser
      refine hunlinked o t s ho ht (fun hs => ?_) he
      rw [(h.tables o t ho ht).shared s hs] at huser
      cases huser
    refine (h.tables o t ho ht).mono (released_contents hrel hrg hne) rfl
      (fun s c he hc => ⟨(released_tab hrel hr h.mem).mpr ⟨hc, ?_⟩, rfl⟩)
      (fun s f w x v he hu => (released_usr hrel hr h.mem).mpr ⟨hu, ?_⟩)
    · have hok := h.frameOk (hc.live h.mem)
      have := hentry s (by rw [he]; exact tableEntry_ne_zero hok)
        (by rw [he]; exact tableEntry_user hok)
      rw [he, frameOf_tableEntry hok] at this
      exact this
    · have hok := h.frameOk (hu.live h.mem)
      have := hentry s (by rw [he]; exact leafEntry_ne_zero hok)
        (by rw [he]; exact leafEntry_user hok)
      rw [he, frameOf_leafEntry hok] at this
      exact this
  · intro o t t' ho ht ht'
    exact h.unique o t t' ho ((released_tab hrel hr h.mem).mp ht).1
      ((released_tab hrel hr h.mem).mp ht').1
  · intro o f v hv hu
    exact h.bound o f v hv ((released_usr hrel hr h.mem).mp hu).1
  · intro s x hx
    exact h.owners s x ((hrel.held_iff hr).mp hx).2

end Releases

end GenOS.Paging
