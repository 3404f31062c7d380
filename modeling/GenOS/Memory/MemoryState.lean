/-
  GenOS.Memory.MemoryState — the two memory layers of `memory.rs`.

  Every call goes through both layers: the ledger decides on authority and
  the bitmap allocator hands out frames.  `contents` is the memory itself,
  one page of 512 words for each frame address.  The single-CPU scope guard
  around the state (interrupts masked, no reentry) makes every call atomic,
  so a run is a sequence of calls.

  The coupling invariant `MemInv` says that the live records of the ledger
  and the live frames of the bitmap are the same set.
-/
import GenOS.Memory.AddRegion
import GenOS.Memory.LedgerInvariant

namespace GenOS.Memory

open Ledger

/-! ## §1. The calls. -/

/-- The contents of one frame. -/
abbrev Page := Fin 512 → BitVec 64

def zeroPage : Page := fun _ => 0#64

structure MemoryState (words n : Nat) where
  allocator : FrameAllocator words
  grants : Ledger n
  contents : Nat → Page

namespace MemoryState

variable {words n : Nat}

/-- `alloc_frame`; `none` where an assertion of the ledger fails. -/
def allocFrame (m : MemoryState words n) (owner : Owner) (kind : Kind) :
    Option (MemoryState words n × Option Grant) :=
  match m.grants.allocate owner kind FrameAllocator.allocFrame m.allocator with
  | none => none
  | some (grants, allocator, none) => some (⟨allocator, grants, m.contents⟩, none)
  | some (grants, allocator, some grant) =>
    some (⟨allocator, grants, Function.update m.contents grant.address zeroPage⟩, some grant)

/-- `scrub_page`, as the preparation of a release. -/
def scrub (frame : Nat) (contents : Nat → Page) : (Nat → Page) × Bool :=
  (Function.update contents frame zeroPage, true)

/-- The closure `free_frame` hands to the ledger. -/
def prepareAndFree (frame : Nat) (s : FrameAllocator words × (Nat → Page)) :
    (FrameAllocator words × (Nat → Page)) × Bool :=
  match s.1.freeFrameWith frame scrub s.2 with
  | (allocator, contents, ok) => ((allocator, contents), ok)

section

variable (m : MemoryState words n)

/-- `free_frame`. -/
def freeFrame (grant : Grant) : MemoryState words n × Bool :=
  match m.grants.release grant prepareAndFree (m.allocator, m.contents) with
  | (grants, (allocator, contents), ok) => (⟨allocator, grants, contents⟩, ok)

/-- `new_owner`. -/
def newOwner (m : MemoryState words n) : MemoryState words n × Option Owner :=
  ({ m with grants := m.grants.newOwner.1 }, m.grants.newOwner.2)

/-- `pin_mapping`. -/
def pinMapping (grant : Grant) (owner : Owner) (address : Nat) : MemoryState words n × Bool :=
  ({ m with grants := (m.grants.bind grant owner address).1 },
    (m.grants.bind grant owner address).2)

/-- `retire_mapping`. -/
def retireMapping (owner : Owner) (frame address : Nat) : MemoryState words n × Option Grant :=
  ({ m with grants := (m.grants.retire owner frame address).1 },
    (m.grants.retire owner frame address).2)

/-- The calls of a run.  Between two calls anyone may write to memory. -/
inductive Call where
  | newOwner
  | allocFrame (owner : Owner) (kind : Kind)
  | freeFrame (grant : Grant)
  | pinMapping (grant : Grant) (owner : Owner) (address : Nat)
  | retireMapping (owner : Owner) (frame address : Nat)
  | store (frame : Nat) (page : Page)

inductive Reply where
  | owner (owner : Option Owner)
  | grant (grant : Option Grant)
  | done (ok : Bool)
  deriving DecidableEq

/-- One call; `none` where an assertion of the source fails. -/
def step : Call → Option (MemoryState words n × Reply)
  | .newOwner => some (m.newOwner.1, .owner m.newOwner.2)
  | .allocFrame owner kind =>
    match m.allocFrame owner kind with
    | none => none
    | some (m', grant) => some (m', .grant grant)
  | .freeFrame grant => some ((m.freeFrame grant).1, .done (m.freeFrame grant).2)
  | .pinMapping grant owner address =>
    some ((m.pinMapping grant owner address).1, .done (m.pinMapping grant owner address).2)
  | .retireMapping owner frame address =>
    some ((m.retireMapping owner frame address).1,
      .grant (m.retireMapping owner frame address).2)
  | .store frame page =>
    some ({ m with contents := Function.update m.contents frame page }, .done true)

end

/-- The state after `init`, for any memory map and any memory. -/
def boot (map : List MemoryRegion) (contents : Nat → Page) : MemoryState words n :=
  ⟨addRegions FrameAllocator.new map, Ledger.new, contents⟩

/-- `m'` follows from `m` by a sequence of calls. -/
inductive Steps : MemoryState words n → MemoryState words n → Prop
  | refl (m) : Steps m m
  | step {m₀ m m' call reply} :
      Steps m₀ m → m.step call = some (m', reply) → Steps m₀ m'

/-- Every state a run of calls can reach. -/
def Reachable (m : MemoryState words n) : Prop :=
  ∃ map contents, Steps (boot map contents) m

end MemoryState

open MemoryState

/-! ## §2. The coupling invariant. -/

structure MemInv {words n : Nat} (m : MemoryState words n) : Prop where
  allocator : AllocInv m.allocator
  grants : m.grants.Inv
  coupled : ∀ f, LiveAt m.allocator f ↔ m.grants.Holds f

variable {r : Record}

section Calls

variable {words n : Nat} {m m' : MemoryState words n}

theorem MemInv.boot (map : List MemoryRegion) (contents : Nat → Page) :
    MemInv (.boot map contents : MemoryState words n) where
  allocator := AllocInv.new.addRegions map
  grants := Ledger.Inv.new
  coupled := by
    intro f
    constructor
    · intro ⟨i, _, hbit⟩
      have hclear : ((.new : FrameAllocator words).allocated).testBit i = false :=
        AllocInv.new.fresh rfl i
      rw [← addRegions_allocated map AllocInv.new] at hclear
      exact absurd (hbit.symm.trans hclear) Bool.noConfusion
    · intro ⟨s, r, hr, _⟩
      have : r = .empty := List.eq_of_mem_replicate (List.mem_of_getElem? hr.1)
      exact absurd (by rw [this]; rfl) hr.2

/-- Nothing but counters and search hints changes. -/
structure Quiet (m m' : MemoryState words n) : Prop where
  regions : m'.allocator.regions = m.allocator.regions
  allocated : m'.allocator.allocated = m.allocator.allocated
  records : m'.grants.records = m.grants.records
  generation : m'.grants.nextGeneration = m.grants.nextGeneration
  owner : m.grants.nextOwner ≤ m'.grants.nextOwner
  contents : m'.contents = m.contents

/-- A frame that was free becomes live, zero and recorded. -/
structure Granted (m : MemoryState words n) (owner : Owner) (kind : Kind) (g : Grant)
    (m' : MemoryState words n) : Prop where
  regions : m'.allocator.regions = m.allocator.regions
  fresh : ¬ LiveAt m.allocator g.address
  live : ∀ f, LiveAt m'.allocator f ↔ f = g.address ∨ LiveAt m.allocator f
  admitted : m.grants.Admits owner g.slot
  ownedBy : g.owner = owner
  ofKind : g.kind = kind
  generation : g.generation = m.grants.nextGeneration
  grants : m'.grants = m.grants.issue g.slot (m.grants.nextGeneration + 1)
    ⟨g.address, g.generation, owner, 0, kind⟩
  contents : m'.contents = Function.update m.contents g.address zeroPage

/-- A live frame becomes free, after it was scrubbed. -/
structure Released (m : MemoryState words n) (g : Grant) (m' : MemoryState words n) : Prop where
  regions : m'.allocator.regions = m.allocator.regions
  live : ∀ f, LiveAt m'.allocator f ↔ f ≠ g.address ∧ LiveAt m.allocator f
  grants : m'.grants = m.grants.vacate g.slot
  contents : m'.contents = Function.update m.contents g.address zeroPage

/-- **What `alloc_frame` can do.** -/
theorem allocFrame_cases (h : MemInv m) (owner : Owner) (kind : Kind) :
    (∃ m', m.allocFrame owner kind = some (m', none) ∧ MemInv m' ∧ Quiet m m')
      ∨ ∃ m' g, m.allocFrame owner kind = some (m', some g) ∧ MemInv m'
        ∧ Granted m owner kind g m' := by
  rcases allocate_cases m.grants owner kind FrameAllocator.allocFrame m.allocator with
    ⟨l', hval, hsame⟩ | ⟨slot, hadmitteds, hcall⟩
  · -- refused by the ledger
    refine .inl ⟨⟨m.allocator, l', m.contents⟩, by simp only [allocFrame, hval],
      ⟨h.allocator, hsame.inv h.grants, fun f => ?_⟩,
      ⟨rfl, rfl, hsame.records, hsame.generation, Nat.le_of_eq hsame.owner.symm, rfl⟩⟩
    rw [h.coupled f]
    unfold Ledger.Holds Ledger.Held
    rw [hsame.records]
  · obtain ⟨x, hx, hzero⟩ := hadmitteds.free
    rcases allocFrame_spec h.allocator with ⟨a', f, i, ha, hinv, hregions, hpage, hclear, -, hset⟩
      | ⟨a', ha, hinv, hregions, hallocated, -⟩
    · -- a free frame: it is in no record, so the assertions hold
      have hlive := liveAt_set hregions hpage hset
      have hdead : ¬ LiveAt m.allocator f := by
        intro ⟨j, hj, hbit⟩
        rw [h.allocator.page_unique hj hpage, hclear] at hbit
        cases hbit
      obtain ⟨haligned, hne, -⟩ := h.allocator.page_aligned hpage
      have hfresh : ∀ {s y}, m.grants.Held s y → y.address ≠ f := by
        intro s y hy hyf
        exact hdead ((h.coupled f).mpr ⟨s, y, hy, hyf⟩)
      rcases hcall with ⟨st', hst, -⟩ | ⟨st', f', hst, hval⟩
      · rw [ha] at hst
        cases hst
      · rw [ha] at hst
        cases hst
        refine .inr ⟨⟨a', m.grants.issue slot (m.grants.nextGeneration + 1)
            ⟨f, m.grants.nextGeneration, owner, 0, kind⟩, Function.update m.contents f zeroPage⟩,
          ⟨f, m.grants.nextGeneration, owner, slot, kind⟩,
          by simp only [allocFrame, hval hne haligned hfresh],
          ⟨hinv, h.grants.issue hx hzero hne haligned hfresh rfl rfl hadmitteds.generation, ?_⟩,
          ⟨hregions, hdead, hlive, hadmitteds, rfl, rfl, rfl, rfl, rfl⟩⟩
        intro f'
        rw [hlive f', h.coupled f']
        exact (holds_issue (r := ⟨f, m.grants.nextGeneration, owner, 0, kind⟩) hx hzero
          hne f').symm
    · -- refused by the allocator
      rcases hcall with ⟨st', hst, hval⟩ | ⟨st', f', hst, -⟩
      · rw [ha] at hst
        cases hst
        refine .inl ⟨⟨a', m.grants, m.contents⟩, by simp only [allocFrame, hval],
          ⟨hinv, h.grants, fun f => ?_⟩, ⟨hregions, hallocated, rfl, rfl, Nat.le_refl _, rfl⟩⟩
        rw [← h.coupled f]
        exact liveAt_congr hregions hallocated f
      · rw [ha] at hst
        cases hst

/-- A refused release. -/
theorem Quiet.deny (m : MemoryState words n) : Quiet m { m with grants := m.grants.deny } :=
  ⟨rfl, rfl, rfl, rfl, Nat.le_refl _, rfl⟩

theorem Quiet.inv (h : MemInv m) (hq : Quiet m m') (hinv : AllocInv m'.allocator)
    (hlive : m'.grants.live = m.grants.live) : MemInv m' := by
  refine ⟨hinv, h.grants.congr hq.records hq.generation hlive, fun f => ?_⟩
  rw [liveAt_congr hq.regions hq.allocated f, h.coupled f]
  unfold Ledger.Holds Ledger.Held
  rw [hq.records]

/-- A live and unmapped grant is released. -/
theorem freeFrame_held (h : MemInv m) {g : Grant} (hr : m.grants.Held g.slot r)
    (hrg : r.grant g.slot = g) (hmapped : r.mappedAt = 0) :
    ∃ m', m.freeFrame g = (m', true) ∧ MemInv m' ∧ Released m g m' := by
  have haddress : r.address = g.address := by rw [← hrg]; rfl
  have hlive : LiveAt m.allocator g.address := (h.coupled _).mpr ⟨g.slot, r, hr, haddress⟩
  -- the bitmap agrees that the frame is live, so the release goes through
  rcases freeFrameWith_spec h.allocator g.address scrub m.contents with
    ⟨hdead, -⟩ | ⟨-, hno, -⟩ | ⟨i, hpage, hbit, -, hfree⟩
  · exact absurd hlive hdead
  · cases hno
  obtain ⟨hinv, hclear⟩ := h.allocator.retract hbit
  have hprep : prepareAndFree g.address (m.allocator, m.contents)
      = ((m.allocator.retract i, Function.update m.contents g.address zeroPage), true) := by
    unfold prepareAndFree
    simp only [hfree]
    rfl
  have hval : m.freeFrame g = (⟨m.allocator.retract i, m.grants.vacate g.slot,
      Function.update m.contents g.address zeroPage⟩, true) := by
    have hlive' : m.grants.isLive g = true := isLive_iff.mpr ⟨r, hr, hrg⟩
    have hpass : ¬ (m.grants.isLive g = false ∨ (m.grants.record g.slot).mappedAt ≠ 0) := by
      rw [hlive', hr.record, hmapped]
      simp
    simp only [freeFrame, release, if_neg hpass, hprep]
  have hlive' : ∀ f, LiveAt (m.allocator.retract i) f ↔ f ≠ g.address ∧ LiveAt m.allocator f :=
    h.allocator.liveAt_clear rfl hpage hclear
  refine ⟨_, hval, ⟨hinv, h.grants.vacate hr, fun f => ?_⟩, ⟨rfl, hlive', rfl, rfl⟩⟩
  rw [hlive' f, h.coupled f, ← haddress]
  exact (h.grants.holds_vacate hr f).symm

/-- **What `free_frame` can do.** -/
theorem freeFrame_cases (h : MemInv m) (g : Grant) :
    (m.freeFrame g = ({ m with grants := m.grants.deny }, false))
      ∨ ∃ m' r, m.grants.Held g.slot r ∧ r.grant g.slot = g ∧ r.mappedAt = 0
        ∧ m.freeFrame g = (m', true) ∧ MemInv m' ∧ Released m g m' := by
  rcases release_cases m.grants g prepareAndFree (m.allocator, m.contents) with
    hval | ⟨r, hr, hrg, hmapped, -⟩
  · exact .inl (by simp only [freeFrame, hval])
  · obtain ⟨m', hval, hinv, hrel⟩ := freeFrame_held h hr hrg hmapped
    exact .inr ⟨m', r, hr, hrg, hmapped, hval, hinv, hrel⟩

/-- A change of one binding. -/
theorem MemInv.setMappedAt (h : MemInv m) {slot address : Nat} (hr : m.grants.Held slot r)
    (haddress : address ≠ 0 → r.kind = .user ∧ address % pageSize = 0) :
    MemInv { m with grants := m.grants.setMappedAt slot address } :=
  ⟨h.allocator, h.grants.setMappedAt hr haddress, fun f =>
    (h.coupled f).trans (holds_setMappedAt hr address f).symm⟩

/-! ## §3. Records through the calls. -/

section Records

variable {owner : Owner} {kind : Kind} {g : Grant} {s : Nat} {x : Record}

section

variable (hg : Granted m owner kind g m')

include hg

theorem Granted.address_ne_zero (h' : MemInv m') : g.address ≠ 0 := by
  obtain ⟨i, hi, -⟩ := (hg.live g.address).mpr (.inl rfl)
  exact (h'.allocator.page_aligned hi).2.1

theorem Granted.held_new (h' : MemInv m') :
    m'.grants.Held g.slot ⟨g.address, g.generation, owner, 0, kind⟩ := by
  rw [hg.grants]
  exact (held_put hg.admitted.lt).mpr
    (by rw [if_pos rfl]; exact ⟨rfl, hg.address_ne_zero h'⟩)

theorem Granted.held_old (hx : m.grants.Held s x) : m'.grants.Held s x := by
  -- the slot of the new record was empty
  have hs : s ≠ g.slot := by
    intro hs
    obtain ⟨y, hy, hzero⟩ := hg.admitted.free
    rw [hs] at hx
    rw [Option.some.inj (hx.1.symm.trans hy)] at hx
    exact hx.2 hzero
  rw [hg.grants]
  exact (held_put hg.admitted.lt).mpr (by rw [if_neg hs]; exact hx)

theorem Granted.held_cases (hx : m'.grants.Held s x) :
    m.grants.Held s x ∨ s = g.slot ∧ x = ⟨g.address, g.generation, owner, 0, kind⟩ := by
  rw [hg.grants] at hx
  have hx' := (held_put hg.admitted.lt).mp hx
  split at hx'
  · rename_i hs
    exact .inr ⟨hs, hx'.1⟩
  · exact .inl hx'

end

theorem Released.held_iff (hrel : Released m g m') (hr : m.grants.Held g.slot r) :
    m'.grants.Held s x ↔ s ≠ g.slot ∧ m.grants.Held s x := by
  rw [hrel.grants]
  have hput : (m.grants.vacate g.slot).Held s x
      ↔ if s = g.slot then x = .empty ∧ Record.empty.address ≠ 0 else m.grants.Held s x :=
    held_put hr.lt
  rw [hput]
  split
  · rename_i hs
    simp [hs, Record.empty]
  · rename_i hs
    simp [hs]

/-- Two live records of one frame are the same record. -/
theorem MemInv.held_unique (h : MemInv m) {s' : Nat} {y : Record} (hx : m.grants.Held s x)
    (hy : m.grants.Held s' y) (haddress : x.address = y.address) : s = s' ∧ x = y := by
  have hs := h.grants.address_unique hx hy haddress
  subst hs
  exact ⟨rfl, hx.unique hy⟩

end Records

end Calls

end GenOS.Memory
