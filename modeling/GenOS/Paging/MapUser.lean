/-
  GenOS.Paging.MapUser — mapping a user page is a transaction.

  The walk makes the missing tables and records their parent edges (`Grown`).
  If anything fails the edges are taken back, and what is left is the state
  before the call (`rollback_spec`).  Otherwise the new leaf extends the
  ownership invariant (`publishLeaf_spec`).
-/
import GenOS.Paging.OwnershipSteps

namespace GenOS.Paging

open GenOS.Lib GenOS.Memory Function
open GenOS.Lib.Masks (has has_eq_false)

variable {words n : Nat} {m m' m₀ : MemoryState words n}
variable {root : Nat} {kernel : Nat → Nat → Prop} {place : Place} {spaces : List AddressSpace}
variable {o : Owner} {t f va : Nat} {g : Grant} {r : Record} {slot : Nat} {s : Fin 512}

/-! ## §1. Taking edges back. -/

/-- `edges` were made since `m₀`, the last one first. -/
inductive Grown (o : Owner) (m₀ : MemoryState words n) : List Edge → MemoryState words n → Prop
  | start {m : MemoryState words n} : MemInv m → Same m₀ m → Grown o m₀ [] m
  | edge {edges : List Edge} {m m₁ m₂ : MemoryState words n} {g : Grant} {t : Nat} {s : Fin 512} :
      Grown o m₀ edges m → MemInv m → Granted m o .table g m₁ → MemInv m₁ →
      LiveAt m.allocator t → m.contents t s = 0#64 →
      Same (writeEntry m₁ t s (tableEntry g.address)) m₂ → MemInv m₂ →
      Grown o m₀ (⟨t, s, g.address⟩ :: edges) m₂

theorem Grown.same {edges : List Edge} (hgrown : Grown o m₀ edges m) (h₀ : MemInv m₀)
    (hs : Same m m') (h' : MemInv m') : Grown o m₀ edges m' := by
  cases hgrown with
  | start h hsame => exact .start h' (hsame.trans hs h₀ h)
  | edge hbefore h hg h₁ ht hzero hsame h₂ =>
    exact .edge hbefore h hg h₁ ht hzero (hsame.trans hs (setPage_inv h₁ _ _) h₂) h'

/-- The record that a grant makes is the record of the grant. -/
theorem granted_record {k : Kind} (hg : Granted m o k g m') :
    (⟨g.address, g.generation, o, 0, k⟩ : Record).grant g.slot = g := by
  obtain ⟨address, generation, owner, slot, kind⟩ := g
  cases hg.ownedBy
  cases hg.ofKind
  rfl

/-- A frame that is granted and released again leaves nothing behind. -/
theorem granted_released_same {k : Kind} {m₁ m₂ m₃ : MemoryState words n} (h : MemInv m)
    (hg : Granted m o k g m₁) (hs : Same m₁ m₂) (hrel : Released m₂ g m₃) : Same m m₃ := by
  refine ⟨hrel.regions.trans (hs.regions.trans hg.regions), ?_, ?_, ?_, ?_⟩
  · -- the slot was empty, and is empty again
    obtain ⟨x, hx, hxzero⟩ := hg.admitted.free
    have hempty := h.grants.vacant hx hxzero
    obtain ⟨hlt, hat⟩ := List.getElem?_eq_some_iff.mp hx
    rw [hrel.grants]
    show m₂.grants.records.set g.slot .empty = m.grants.records
    rw [hs.records, hg.grants]
    show (m.grants.records.set g.slot _).set g.slot .empty = m.grants.records
    rw [List.set_set, ← hempty, ← hat]
    exact List.set_getElem_self hlt
  · have hnext := hs.generation
    rw [hg.grants] at hnext
    rw [hrel.grants]
    exact Nat.le_of_succ_le hnext
  · have hnext := hs.nextOwner
    rw [hg.grants] at hnext
    rw [hrel.grants]
    exact hnext
  · intro f hf
    have hne : f ≠ g.address := fun heq => hg.fresh (heq ▸ hf)
    rw [hrel.contents, update_of_ne hne, hs.contents f ((hg.live f).mpr (.inr hf)),
      granted_contents hg hf]

/-- Taking back the last edge restores the state before it. -/
theorem release_edge {m₁ m₂ : MemoryState words n} (h : MemInv m)
    (hg : Granted m o .table g m₁) (h₁ : MemInv m₁) (ht : LiveAt m.allocator t)
    (hzero : m.contents t s = 0#64) (hs : Same (writeEntry m₁ t s (tableEntry g.address)) m₂)
    (h₂ : MemInv m₂) :
    ∃ m₃, releaseOwnedTable (writeEntry m₂ t s 0#64) o g.address = (m₃, true)
      ∧ MemInv m₃ ∧ Same m m₃ := by
  -- the record of the table is found, and it is unmapped
  have hheld : m₂.grants.Held g.slot ⟨g.address, g.generation, o, 0, .table⟩ :=
    hs.held.mpr (hg.held_new h₁)
  have hinv : MemInv (writeEntry m₂ t s 0#64) := setPage_inv h₂ _ _
  have hfind := h₂.grants.find_held hheld
  obtain ⟨m₃, hfree, h₃, hrel⟩ := freeFrame_held hinv hheld (granted_record hg) rfl
  refine ⟨m₃, ?_, h₃, ?_⟩
  · have hfind' : (writeEntry m₂ t s 0#64).grants.find o g.address .table = some g :=
      granted_record hg ▸ hfind
    simp only [releaseOwnedTable, hfind', hfree]
  · have hback : Same m₁ (writeEntry m₂ t s 0#64) := by
      refine ⟨hs.regions, hs.records, hs.generation, hs.nextOwner, fun f hf => ?_⟩
      have hsame := hs.contents f hf
      by_cases hft : f = t
      · subst hft
        rw [writeEntry_eq, setPage_contents_self, hsame, writeEntry_eq, setPage_contents_self,
          update_idem, ← hzero, ← granted_contents hg ht]
        exact update_eq_self _ _
      · rw [writeEntry_eq, setPage_contents_of_ne hft, hsame, writeEntry_eq,
          setPage_contents_of_ne hft]
    exact granted_released_same h hg hback hrel

/-- **Rollback restores the state before the transaction.** -/
theorem rollback_spec (h₀ : MemInv m₀) (edges : List Edge) :
    ∀ {m : MemoryState words n}, Grown o m₀ edges m →
      ∃ m', rollback o edges m = some m' ∧ MemInv m' ∧ Same m₀ m' := by
  induction edges with
  | nil =>
    intro m hgrown
    cases hgrown with
    | start h hsame => exact ⟨m, rfl, h, hsame⟩
  | cons edge rest ih =>
    intro m₂ hgrown
    cases hgrown with
    | edge hbefore h hg h₁ ht hzero hsame h₂ =>
      obtain ⟨m₃, hval, h₃, hback⟩ := release_edge h hg h₁ ht hzero hsame h₂
      obtain ⟨m', hrest, h', hs'⟩ := ih (hbefore.same h₀ hback h₃)
      exact ⟨m', by simp only [rollback, hval, hrest], h', hs'⟩

/-! ## §2. Positions along the walk. -/

/-- The table at `(level, base)` maps the address. -/
def Covers (level base va : Nat) : Prop := level ≠ 4 → base ≤ va ∧ va < base + 512 * span level

/-- A page address of the user range. -/
structure UserAddress (va : Nat) : Prop where
  aligned : va % pageSize = 0
  low : userBase ≤ va
  high : va < userBase + 2 ^ 39

variable {base : Nat}

/-- The slot the walk takes leads to the table that maps the address. -/
theorem descend_position {level : Nat} (hb : BaseOk (level + 1) base) (hlevel : 1 ≤ level)
    (hva : UserAddress va) (hcovers : Covers (level + 1) base va) :
    ¬ Shared (level + 1) (index va (12 + 9 * level))
      ∧ BaseOk level (base + (index va (12 + 9 * level)) * span (level + 1))
      ∧ Covers level (base + (index va (12 + 9 * level)) * span (level + 1)) va := by
  have hlow := hva.low
  have hhigh := hva.high
  have hle := hb.level_le
  have hcases : (level = 1 ∨ level = 2) ∨ level = 3 := by omega
  unfold Covers at hcovers ⊢
  rcases hcases with hlower | rfl
  · have h1 := hb.aligned (by omega)
    have h2 := hb.low (by omega)
    have h3 := hb.high (by omega)
    have h4 := hcovers (by omega)
    refine ⟨fun h => absurd h.1 (by omega), ⟨by omega, by omega, by omega, fun _ => ?_,
      fun _ => ?_, fun _ => ?_⟩, fun _ => ?_⟩
    all_goals
      rcases hlower with rfl | rfl <;> simp only [index_val, span, userBase] at * <;> omega
  · have hroot := hb.root rfl
    have hslot : (index va (12 + 9 * 3)).val = 128 := by
      rw [index_val]
      unfold userBase at hlow hhigh
      omega
    rw [hslot]
    refine ⟨fun h => h.2 (Fin.ext hslot), ⟨by omega, by omega, by omega, fun _ => ?_,
      fun _ => ?_, fun _ => ?_⟩, fun _ => ?_⟩
    all_goals (simp only [span, userBase] at *; omega)

/-- At the last level the slot is the page. -/
theorem leaf_position (hb : BaseOk 1 base) (hva : UserAddress va) (hcovers : Covers 1 base va) : base + (index va 12) * span 1 = va := by
  have h1 := hb.aligned (by decide)
  have h2 := hcovers (by decide)
  have h3 := hva.aligned
  simp only [index_val, span, pageSize] at *
  omega

/-! ## §3. The walk. -/

theorem checkChild_ok (h : MemInv m) {c : Nat} (hc : Tab m o c) (hok : FrameOk c) :
    checkChild m o (tableEntry c) = .ok c := by
  obtain ⟨slot, r, hr, rfl, rfl, hkind⟩ := hc
  have hfind := h.grants.find_held hr
  rw [hkind] at hfind
  unfold checkChild
  rw [frameOf_tableEntry hok, hfind]
  rfl

/-- The links between tables stay when no edge is overwritten. -/
theorem Rooted.mono (hrooted : Rooted m place) (htab : ∀ o c, Tab m' o c ↔ Tab m o c)
    (hedge : ∀ o t s c, o ≠ .kernel → Tab m o t → Tab m o c → m.contents t s = tableEntry c →
      m'.contents t s = tableEntry c) : Rooted m' place := by
  intro o c ho hc
  have hc := (htab o c).mp hc
  rcases hrooted o c ho hc with hroot | ⟨t, s, ht, hs, he⟩
  · exact .inl hroot
  · exact .inr ⟨t, s, (htab o t).mpr ht, hs, hedge o t s c ho ht hc he⟩

theorem Rooted.same (hrooted : Rooted m place) (hs : Same m m') (h : MemInv m) :
    Rooted m' place :=
  hrooted.mono (fun _ _ => hs.tab) (fun _ t _ _ _ ht _ he => by
    rw [hs.contents t (ht.live h)]
    exact he)

/-- A write to an empty entry keeps every link. -/
theorem writeEntry_link {t' c : Nat} {s' : Fin 512} {e : BitVec 64} (hok : FrameOk c)
    (hzero : m.contents t s = 0#64) (he : m.contents t' s' = tableEntry c) :
    (writeEntry m t s e).contents t' s' = tableEntry c := by
  rw [writeEntry_other, he]
  rintro ⟨rfl, rfl⟩
  exact tableEntry_ne_zero hok (he.symm.trans hzero)

/-- A new table is a root, or it is linked; the other links stay. -/
theorem Rooted.grant {m₁ : MemoryState words n} {p : Nat × Nat} (hrooted : Rooted m place)
    (h : MemInv m) (hg : Granted m o .table g m₁) (htab : ∀ o c, Tab m' o c ↔ Tab m₁ o c)
    (hlinks : ∀ o t s c, Tab m o t → Tab m o c → m.contents t s = tableEntry c →
      m'.contents t s = tableEntry c)
    (hnew : p.1 = 4 ∨ ∃ t s, Tab m o t ∧ ¬ Shared (place t).1 s
      ∧ m'.contents t s = tableEntry g.address) :
    Rooted m' (update place g.address p) := by
  have hold : ∀ {o' c}, Tab m o' c → update place g.address p c = place c := by
    intro o' c hc
    exact update_of_ne (fun heq : c = g.address => hg.fresh (heq ▸ hc.live h)) _ _
  have hkept : ∀ {o' c}, Tab m o' c → Tab m' o' c := fun hc => (htab _ _).mpr (granted_tab hg hc)
  intro o' c ho' hc
  rcases granted_tab_cases hg ((htab o' c).mp hc) with hc | ⟨rfl, -, rfl⟩
  · rw [hold hc]
    rcases hrooted o' c ho' hc with hroot | ⟨t, s, ht, hs, he⟩
    · exact .inl hroot
    · exact .inr ⟨t, s, hkept ht, by rw [hold ht]; exact hs, hlinks o' t s c ht hc he⟩
  · rw [update_self]
    rcases hnew with hroot | ⟨t, s, ht, hs, he⟩
    · exact .inl hroot
    · exact .inr ⟨t, s, hkept ht, by rw [hold ht]; exact hs, he⟩

section Attach

variable {m₁ : MemoryState words n}

/-- A new table under a zero entry. -/
theorem Owned.attach (h : Owned m root kernel place spaces) (hrooted : Rooted m place)
    (ho : o ≠ .kernel) (hid : o.id < m.grants.nextOwner) (ht : Tab m o t)
    (hs : ¬ Shared (place t).1 s) (hlevel : 2 ≤ (place t).1) (hzero : m.contents t s = 0#64)
    {p : Nat × Nat} (hp : p = ((place t).1 - 1, (place t).2 + s * span (place t).1))
    (hbase : BaseOk p.1 p.2) (hg : Granted m o .table g m₁) (h₁ : MemInv m₁) :
    Owned (writeEntry m₁ t s (tableEntry g.address)) root kernel
        (update place g.address p) spaces
      ∧ Rooted (writeEntry m₁ t s (tableEntry g.address)) (update place g.address p) := by
  have hfree : ∀ c, Tab m o c → place c ≠ p := by
    intro c hc hplace
    have he := h.parent hrooted ho ht hc hs hlevel (hplace.trans hp)
    rw [hzero] at he
    exact tableEntry_ne_zero (h.frameOk (hc.live h.mem)) he.symm
  have h₂ := h.grantTable hg h₁ hid hbase hfree
  have ht₁ : Tab m₁ o t := granted_tab hg ht
  have hnew : Tab m₁ o g.address := ⟨_, _, hg.held_new h₁, rfl, rfl, rfl⟩
  have hold : ∀ {o' c}, Tab m o' c → update place g.address p c = place c := by
    intro o' c hc
    exact update_of_ne (fun heq : c = g.address => hg.fresh (heq ▸ hc.live h.mem)) _ _
  have hself : update place g.address p g.address = p := update_self _ _ _
  refine ⟨?_, ?_⟩
  · refine h₂.write ho ht₁ (by rw [hold ht]; exact hs) ?_
    rw [hold ht]
    exact .inr (.inr ⟨hlevel, g.address, rfl, hnew, hself.trans hp⟩)
  · refine hrooted.grant h.mem hg (fun _ _ => Iff.rfl) (fun o' t' s' c ht' hc he => ?_)
      (.inr ⟨t, s, ht, hs, writeEntry_self t s _⟩)
    refine writeEntry_link (h.frameOk (hc.live h.mem)) ?_ ?_
    · rw [granted_contents hg (ht.live h.mem)]
      exact hzero
    · rw [granted_contents hg (ht'.live h.mem)]
      exact he

/-- **What `ensure_user_table` can do** on an entry above the last level. -/
theorem ensureUserTable_cases (h : Owned m root kernel place spaces)
    (ho : o ≠ .kernel) (ht : Tab m o t) (hs : ¬ Shared (place t).1 s) (hlevel : 2 ≤ (place t).1) :
    (∃ c, ensureUserTable m t s o = some (m, .ok c) ∧ has (m.contents t s) present = true
        ∧ Tab m o c ∧ place c = ((place t).1 - 1, (place t).2 + s * span (place t).1))
      ∨ (m.contents t s = 0#64 ∧ has (m.contents t s) present = false
        ∧ ((∃ m', ensureUserTable m t s o = some (m', .error .outOfMemory) ∧ MemInv m' ∧ Quiet m m')
          ∨ ∃ m₁ g, Granted m o .table g m₁ ∧ MemInv m₁ ∧ ensureUserTable m t s o
            = some (writeEntry m₁ t s (tableEntry g.address), .ok g.address))) := by
  cases hpresent : has (m.contents t s) present with
  | true =>
    obtain ⟨c, he, hc, hplace⟩ := h.entry_edge ho ht hs hlevel hpresent
    have hok := h.frameOk (hc.live h.mem)
    refine .inl ⟨c, ?_, rfl, hc, hplace⟩
    simp only [ensureUserTable, he, tableEntry_present hok, tableEntry_huge hok,
      tableEntry_user hok, tableEntry_writable hok, tableEntry_noExecute hok,
      checkChild_ok h.mem hc hok, Bool.true_eq_false, Bool.false_eq_true, or_self, if_false]
  | false =>
    have hzero := h.entry_zero ho ht hs hpresent
    refine .inr ⟨hzero, rfl, ?_⟩
    rcases allocFrame_cases h.mem o .table with ⟨m', hval, hm', hq⟩ | ⟨m₁, g, hval, h₁, hg⟩
    · exact .inl ⟨m', by simp only [ensureUserTable, hpresent, hval, if_true], hm', hq⟩
    have hnew : Tab (writeEntry m₁ t s (tableEntry g.address)) o g.address :=
      ⟨_, _, hg.held_new h₁, rfl, rfl, rfl⟩
    have hok : FrameOk g.address := by
      obtain ⟨i, hi, -⟩ := hnew.live (setPage_inv h₁ _ _)
      have haligned := (h₁.allocator.page_aligned hi).1
      have hmem := List.mem_of_getElem? hi
      have hlow := h.low g.address (by rw [← hg.regions]; exact hmem)
      unfold pageSize at haligned
      unfold userBase at hlow
      exact ⟨haligned, by omega⟩
    have hcheck := checkChild_ok (setPage_inv h₁ _ _) hnew hok
    refine .inr ⟨m₁, g, hg, h₁, ?_⟩
    simp only [ensureUserTable, hpresent, hval, if_true]
    exact congrArg (fun x => some (writeEntry m₁ t s (tableEntry g.address), x)) hcheck

end Attach

/-- The shifts of a walk that starts at level `level + 1`. -/
def shiftsFrom : Nat → List Nat
  | 0 => []
  | level + 1 => (12 + 9 * (level + 1)) :: shiftsFrom level

/-- **The walk ends at the level-1 table of the address, or fails**, and in
both cases every new table is on record. -/
theorem descend_spec (h₀ : MemInv m₀) (ho : o ≠ .kernel) (hva : UserAddress va) (level : Nat) :
    ∀ {m : MemoryState words n} {place : Place} {t base : Nat} {edges : List Edge},
      Owned m root kernel place spaces → Rooted m place → o.id < m.grants.nextOwner →
      Grown o m₀ edges m → Tab m o t → place t = (level + 1, base) →
      Covers (level + 1) base va →
      ∃ m' edges' result place', descend o va (shiftsFrom level) t edges m
          = some (m', edges', result)
        ∧ Grown o m₀ edges' m' ∧ Owned m' root kernel place' spaces ∧ Rooted m' place'
        ∧ (∀ slot r, m.grants.Held slot r → m'.grants.Held slot r)
        ∧ ∀ t', result = .ok t' → Tab m' o t' ∧ ∃ base', place' t' = (1, base')
          ∧ Covers 1 base' va := by
  induction level with
  | zero =>
    intro m place t base edges h hrooted _ hgrown ht hplace hcovers
    refine ⟨m, edges, .ok t, place, rfl, hgrown, h, hrooted, fun _ _ hr => hr, ?_⟩
    intro t' ht'
    cases ht'
    exact ⟨ht, base, hplace, hcovers⟩
  | succ level ih =>
    intro m place t base edges h hrooted hid hgrown ht hplace hcovers
    have hb := (h.tables o t ho ht).base
    rw [hplace] at hb
    obtain ⟨hshared, hbase, hnext⟩ := descend_position hb (Nat.succ_le_succ (Nat.zero_le _)) hva
      hcovers
    obtain ⟨s, hsdef⟩ : ∃ s, s = index va (12 + 9 * (level + 1)) := ⟨_, rfl⟩
    rw [← hsdef] at hshared hbase hnext
    have hs : ¬ Shared (place t).1 s := by
      rw [hplace]
      exact hshared
    have hlevel : 2 ≤ (place t).1 := by
      rw [hplace]
      exact Nat.succ_le_succ (Nat.succ_le_succ (Nat.zero_le _))
    rcases ensureUserTable_cases h ho ht hs hlevel with ⟨c, hval, hpresent, hc, hpc⟩
      | ⟨hzero, habsent, ⟨m', hval, hm', hq⟩ | ⟨m₁, g, hg, h₁, hval⟩⟩
    · -- the table is there
      rw [hplace] at hpc
      obtain ⟨m', edges', result, place', hwalk, hrest⟩ :=
        ih h hrooted hid hgrown hc hpc hnext
      refine ⟨m', edges', result, place', ?_, hrest⟩
      simp only [shiftsFrom, descend, ← hsdef, hval, hpresent, Bool.true_eq_false, if_false]
      exact hwalk
    · -- no memory for it
      have hsame := quiet_same hq
      refine ⟨m', edges, .error .outOfMemory, place, ?_, hgrown.same h₀ hsame hm',
        h.same hsame hm', hrooted.same hsame h.mem, fun slot r hr => hsame.held.mpr hr,
        fun t' ht' => by cases ht'⟩
      simp only [shiftsFrom, descend, ← hsdef, hval]
    · -- a new table
      obtain ⟨h₂, hrooted₂⟩ := h.attach hrooted ho hid ht hs hlevel hzero rfl
        (by rw [hplace]; exact hbase) hg h₁
      have hgrown₂ : Grown o m₀ (⟨t, s, g.address⟩ :: edges)
          (writeEntry m₁ t s (tableEntry g.address)) :=
        .edge hgrown h.mem hg h₁ (ht.live h.mem) hzero (.refl _) (setPage_inv h₁ _ _)
      have hnew : Tab (writeEntry m₁ t s (tableEntry g.address)) o g.address :=
        ⟨_, _, hg.held_new h₁, rfl, rfl, rfl⟩
      have hid₂ : o.id < (writeEntry m₁ t s (tableEntry g.address)).grants.nextOwner := by
        show o.id < m₁.grants.nextOwner
        rw [hg.grants]
        exact hid
      obtain ⟨m', edges', result, place', hwalk, hgrown', h', hrooted', hheld, hend⟩ :=
        ih h₂ hrooted₂ hid₂ hgrown₂ hnew (by rw [update_self, hplace]; rfl) hnext
      refine ⟨m', edges', result, place', ?_, hgrown', h', hrooted',
        fun slot r hr => hheld slot r (hg.held_old hr), hend⟩
      simp only [shiftsFrom, descend, ← hsdef, hval, habsent, if_true]
      exact hwalk

/-! ## §4. The leaf. -/

/-- An unbound page is not linked: every leaf links a page bound to its own
address, which is not zero. -/
theorem Owned.unlinked_unbound (h : Owned m root kernel place spaces) (hu : Usr m o f 0) :
    Unlinked m place f := by
  intro o' t s ho ht hs he hframe
  have hlink := h.link ho ht hs he
  rw [hframe] at hlink
  have hpos := (hlink.unique h.mem (.inr ⟨0, hu, rfl⟩)).2
  simp only [Prod.mk.injEq] at hpos
  have hb := (h.tables o' t ho ht).base
  have hlevel := hb.level_pos
  have hlow := hb.low (by omega)
  unfold userBase at hlow
  omega

/-- **Publishing the leaf** leaves everything as it was, or extends the
invariant by the new mapping. -/
theorem publishLeaf_spec (h : Owned m root kernel place spaces) (hrooted : Rooted m place)
    {space : AddressSpace} (ho : space.owner ≠ .kernel) (ht : Tab m space.owner t)
    (hplace : place t = (1, base)) (hcovers : Covers 1 base va) (hva : UserAddress va)
    (hr : m.grants.Held g.slot r) (hrg : r.grant g.slot = g) (howner : g.owner = space.owner)
    (hkind : g.kind = .user) (hunbound : r.mappedAt = 0) {w x : Bool}
    (hwx : ¬ (w = true ∧ x = true)) :
    (∃ e, publishLeaf m (some root) t space va g w x = some (m, .error e))
      ∨ ∃ m', publishLeaf m (some root) t space va g w x = some (m', .ok ())
        ∧ Owned m' root kernel place spaces ∧ Rooted m' place := by
  have haddress : r.address = g.address := by rw [← hrg]; rfl
  have hrkind : r.kind = .user := by rw [← hkind, ← hrg]; rfl
  have hrowner : r.owner = space.owner := by rw [← howner, ← hrg]; rfl
  have hs : ¬ Shared (place t).1 (index va 12) := by
    rw [hplace]
    exact fun hshared => by cases hshared.1
  cases hpresent : has (m.contents t (index va 12)) present with
  | true => exact .inl ⟨.addressInUse, by simp only [publishLeaf, hpresent, if_true]⟩
  | false =>
    have hzero := h.entry_zero ho ht hs hpresent
    cases hset : setUserAliasWritable m (some root) g.address w with
    | none =>
      exact .inl ⟨.invalidAddress, by
        simp only [publishLeaf, hpresent, hset, Bool.false_eq_true, if_false]⟩
    | some m₁ =>
      have ha := setUserAliasWritable_spec h.kernelOk hset
      have h₁ := h.aliasSet ha
      have hr₁ : m₁.grants.Held g.slot r := by
        rw [ha.grants]
        exact hr
      have hne : va ≠ 0 := by
        have := hva.low
        unfold userBase at this
        omega
      have hbind : m₁.pinMapping g space.owner va = (setBinding m₁ g.slot va, true) := by
        unfold MemoryState.pinMapping
        rw [Ledger.bind_held hr₁ hrg howner hkind hne hva.aligned hunbound]
        rfl
      -- the alias exists, so the page may be bound
      have halias : (aliasSlot m₁ (some root) r.address).isSome = true := by
        rw [aliasSlot_congr h.kernelOk ha.kernel, haddress]
        unfold setUserAliasWritable at hset
        split at hset
        · cases hset
        rename_i hslot
        rw [hslot]
        rfl
      have h₂ := h₁.rebind hr₁ hrkind
        (h₁.unlinked_unbound ⟨_, r, hr₁, rfl, rfl, hrkind, hunbound⟩)
        (fun _ => hva.aligned) (fun _ => halias)
      have ht₂ : Tab (setBinding m₁ g.slot va) space.owner t :=
        (tab_setBinding hr₁ hrkind).mpr (ha.tab.mpr ht)
      have hentry : EntryOk (setBinding m₁ g.slot va) place space.owner (place t).1 (place t).2
          (index va 12) (leafEntry g.address w x) := by
        rw [hplace]
        refine .inr (.inl ⟨rfl, g.address, w, x, rfl, hwx, ?_⟩)
        have hb := (h.tables space.owner t ho ht).base
        rw [hplace] at hb
        rw [leaf_position hb hva hcovers, ← haddress, ← hrowner]
        exact usr_setBinding_self hr₁ hrkind
      refine .inr ⟨writeEntry (setBinding m₁ g.slot va) t (index va 12)
        (leafEntry g.address w x), ?_, h₂.write ho ht₂ hs hentry, ?_⟩
      · simp only [publishLeaf, hpresent, hset, hbind, Bool.false_eq_true, if_false]
        rfl
      · refine hrooted.mono (fun o c => ?_) (fun o' t' s' c ho' ht' hc he => ?_)
        · exact (tab_setBinding hr₁ hrkind).trans ha.tab
        have hsame : ∀ {o t}, o ≠ .kernel → Tab m o t →
            (setBinding m₁ g.slot va).contents t = m.contents t := ha.user_contents h.mem
        refine writeEntry_link (h.frameOk (hc.live h.mem)) ?_ ?_
        · rw [hsame ho ht]
          exact hzero
        · rw [hsame ho' ht']
          exact he

/-! ## §5. The whole call. -/

/-- **Mapping a page.**  The call never fails an assertion.  If it reports an
error, the records and the live memory are as before; if it succeeds, the
invariant holds with the new mapping. -/
theorem mapUserPage_spec {c : Machine words n} (h : Owned c.memory root kernel place spaces)
    (hrooted : Rooted c.memory place) (hsealed : c.sealedRoot = some root) {space : AddressSpace}
    (hspace : space ∈ spaces) (va : Nat) (g : Grant) (w x : Bool) :
    ∃ m' result, mapUserPage c space va g w x = some ({ c with memory := m' }, result)
      ∧ ((∃ e, result = .error e ∧ MemInv m' ∧ Same c.memory m')
        ∨ result = .ok () ∧ ∃ place', Owned m' root kernel place' spaces ∧ Rooted m' place') := by
  suffices hcall : (∃ m' e, mapUserPage c space va g w x = some ({ c with memory := m' }, .error e)
        ∧ MemInv m' ∧ Same c.memory m')
      ∨ ∃ m' place', mapUserPage c space va g w x = some ({ c with memory := m' }, .ok ())
        ∧ Owned m' root kernel place' spaces ∧ Rooted m' place' by
    rcases hcall with ⟨m', e, hval, hm', hs'⟩ | ⟨m', place', hval, h', hrooted'⟩
    · exact ⟨m', .error e, hval, .inl ⟨e, rfl, hm', hs'⟩⟩
    · exact ⟨m', .ok (), hval, .inr ⟨rfl, place', h', hrooted'⟩⟩
  -- the checks before the transaction change nothing
  by_cases hactive : c.activeRoot = space.root
  · exact .inl ⟨c.memory, _, by rw [mapUserPage, if_pos hactive], h.mem, Same.refl _⟩
  by_cases hlive : c.memory.grants.isLive space.authority = false
      ∨ c.memory.grants.canBind g space.owner = false
  · exact .inl ⟨c.memory, _, by rw [mapUserPage, if_neg hactive, if_pos hlive], h.mem, Same.refl _⟩
  by_cases hbad : badMapping va g.address w x
  · exact .inl ⟨c.memory, _, by rw [mapUserPage, if_neg hactive, if_neg hlive, if_pos hbad], h.mem, Same.refl _⟩
  by_cases hnx : x = false ∧ c.nxEnabled = false
  · exact .inl ⟨c.memory, _, by rw [mapUserPage, if_neg hactive, if_neg hlive, if_neg hbad, if_pos hnx], h.mem, Same.refl _⟩
  have hval := mapUserPage.eq_1 c space va g w x
  rw [if_neg hactive, if_neg hlive, if_neg hbad, if_neg hnx] at hval
  simp only [not_or, Bool.not_eq_false] at hlive
  simp only [badMapping, not_or, not_not] at hbad
  have hva : UserAddress va := ⟨hbad.1, hbad.2.2.2.2.2.1, hbad.2.2.2.2.2.2⟩
  have hok := h.spacesOk space hspace
  have ht := hok.tab hlive.1
  obtain ⟨r, hr, hrg, howner, hkind, hunbound⟩ := Ledger.canBind_iff.mp hlive.2
  obtain ⟨m₁, edges, walked, place₁, hwalk, hgrown, h₁, hrooted₁, hheld, hend⟩ :=
    descend_spec h.mem hok.notKernel hva 3 h hrooted hok.issued (.start h.mem (.refl _)) ht
      (hok.placed hlive.1) (fun hne => absurd rfl hne)
  have hfail : ∀ m₂ e, mapTransaction c.memory c.sealedRoot space va g w x
        = some (m₂, edges, .error e) → Grown space.owner c.memory edges m₂ →
      ∃ m' e, mapUserPage c space va g w x = some ({ c with memory := m' }, .error e)
        ∧ MemInv m' ∧ Same c.memory m' := by
    intro m₂ e htrans hgrown₂
    obtain ⟨m', hback, hm', hs'⟩ := rollback_spec h.mem edges hgrown₂
    exact ⟨m', e, by simp only [hval, htrans, hback], hm', hs'⟩
  have hwalk' : descend space.owner va [39, 30, 21] space.root [] c.memory
      = some (m₁, edges, walked) := hwalk
  cases walked with
  | error e => exact .inl <| hfail m₁ e (by simp only [mapTransaction, hwalk']) hgrown
  | ok t =>
    obtain ⟨ht₁, base, hplace₁, hcovers⟩ := hend t rfl
    rcases publishLeaf_spec h₁ hrooted₁ hok.notKernel ht₁ hplace₁ hcovers hva (hheld _ r hr) hrg
      howner hkind hunbound hbad.2.2.2.2.1 with ⟨e, hpub⟩ | ⟨m', hpub, h', hrooted'⟩
    · exact .inl <| hfail m₁ e (by simp only [mapTransaction, hwalk', hsealed, hpub]) hgrown
    · refine .inr ⟨m', place₁, ?_, h', hrooted'⟩
      simp only [hval, mapTransaction, hwalk', hsealed, hpub]

end GenOS.Paging
