/-
  GenOS.Memory.LedgerInvariant — the ledger is a set of live grants.

  `Ledger.Inv` holds of a new ledger and is kept by every operation.  A slot
  holds at most one live record, live records have different addresses and
  different generations, and every generation in use is older than the next
  one; so a released grant is never live again.

  Each operation has one lemma that lists what it can do (`allocate_cases`,
  `bind_cases`, `retire_cases`, `release_cases`).
-/
import GenOS.Memory.FrameGrant

namespace GenOS.Memory

variable {g : Grant} {address next : Nat} {owner : Owner}

namespace Ledger

variable {n : Nat} {σ : Type} {l : Ledger n} {slot s : Nat} {r x : Record}

/-! ## §1. Live records. -/

/-- Slot `slot` holds the live record `r`. -/
def Held (l : Ledger n) (slot : Nat) (r : Record) : Prop :=
  l.records[slot]? = some r ∧ r.address ≠ 0

theorem Held.lt (h : l.Held slot r) : slot < n := by
  have := (List.getElem?_eq_some_iff.mp h.1).1
  rw [l.size] at this
  exact this

theorem Held.record (h : l.Held slot r) : l.record slot = r := by
  unfold Ledger.record
  rw [List.getD_eq_getElem?_getD, h.1]
  rfl

theorem Held.unique (h : l.Held slot r) (h' : l.Held slot x) : r = x :=
  Option.some.inj (h.1.symm.trans h'.1)

theorem held_put (hslot : slot < n) :
    (l.put slot r).Held s x ↔ if s = slot then x = r ∧ r.address ≠ 0 else l.Held s x := by
  unfold Held put
  simp only [List.getElem?_set, l.size, if_pos hslot]
  by_cases hs : s = slot
  · subst hs
    simp only [if_true, Option.some.injEq]
    constructor
    · exact fun h => ⟨h.1.symm, h.1 ▸ h.2⟩
    · exact fun h => ⟨h.1.symm, h.1 ▸ h.2⟩
  · rw [if_neg (fun h => hs h.symm), if_neg hs]

theorem held_put_of_ne (hslot : slot < n) (hne : s ≠ slot) (h : l.Held s x) :
    (l.put slot r).Held s x :=
  (held_put hslot).mpr (by rw [if_neg hne]; exact h)

/-- Frame `f` has a live record. -/
def Holds (l : Ledger n) (f : Nat) : Prop := ∃ slot r, l.Held slot r ∧ r.address = f

/-- A grant is live when it is the grant of the record in its slot. -/
theorem isLive_iff : l.isLive g = true ↔ ∃ r, l.Held g.slot r ∧ r.grant g.slot = g := by
  unfold isLive Held
  cases hr : l.records[g.slot]? with
  | none => simp
  | some r => simp

theorem isLive_grant (h : l.Held slot r) : l.isLive (r.grant slot) = true :=
  isLive_iff.mpr ⟨r, h, rfl⟩

theorem holds_iff {f : Nat} : l.Holds f ↔ ∃ g, l.isLive g = true ∧ g.address = f := by
  constructor
  · intro ⟨slot, r, hr, hf⟩
    exact ⟨r.grant slot, isLive_grant hr, hf⟩
  · intro ⟨g, hg, hf⟩
    obtain ⟨r, hr, hrg⟩ := isLive_iff.mp hg
    refine ⟨g.slot, r, hr, ?_⟩
    rw [← hf, ← hrg]
    rfl

/-! ## §2. The invariant. -/

structure Inv (l : Ledger n) : Prop where
  address_unique : ∀ {s s' r r'}, l.Held s r → l.Held s' r' → r.address = r'.address → s = s'
  generation_unique : ∀ {s s' r r'}, l.Held s r → l.Held s' r' →
    r.generation = r'.generation → s = s'
  older : ∀ {s r}, l.Held s r → r.generation < l.nextGeneration
  aligned : ∀ {s r}, l.Held s r → r.address % pageSize = 0
  mapped : ∀ {s r}, l.Held s r → r.mappedAt ≠ 0 → r.kind = .user ∧ r.mappedAt % pageSize = 0
  vacant : ∀ {s : Nat} {r}, l.records[s]? = some r → r.address = 0 → r = .empty
  count : l.live = l.records.countP (fun r => decide (r.address ≠ 0))
  bound : l.nextGeneration < 2 ^ 64

theorem Inv.new : (.new : Ledger n).Inv := by
  have hempty : ∀ {s : Nat} {r : Record},
      (.new : Ledger n).records[s]? = some r → r = .empty := by
    intro s r h
    exact List.eq_of_mem_replicate (List.mem_of_getElem? h)
  have hnone : ∀ {s r}, ¬ (.new : Ledger n).Held s r := by
    intro s r h
    have := hempty h.1
    subst this
    exact h.2 rfl
  constructor
  · exact fun h => absurd h hnone
  · exact fun h => absurd h hnone
  · exact fun h => absurd h hnone
  · exact fun h => absurd h hnone
  · exact fun h => absurd h hnone
  · exact fun h _ => hempty h
  · show 0 = (List.replicate n Record.empty).countP _
    rw [List.countP_replicate]
    rfl
  · show 1 < 2 ^ 64
    decide

section

variable (h : l.Inv)

include h

/-- Live grants of one address are equal. -/
theorem Inv.grant_unique {g' : Grant} (hg : l.isLive g = true) (hg' : l.isLive g' = true)
    (haddress : g.address = g'.address) : g = g' := by
  obtain ⟨r, hr, hrg⟩ := isLive_iff.mp hg
  obtain ⟨r', hr', hrg'⟩ := isLive_iff.mp hg'
  have hslot := h.address_unique hr hr' (by
    rw [← hrg, ← hrg'] at haddress
    exact haddress)
  rw [← hslot] at hr' hrg'
  rw [← hrg, ← hrg', hr.unique hr']

/-- The invariant looks at the records and two counters only. -/
theorem Inv.congr {l' : Ledger n} (hrecords : l'.records = l.records)
    (hgeneration : l'.nextGeneration = l.nextGeneration) (hlive : l'.live = l.live) : l'.Inv := by
  have hheld : ∀ s r, l'.Held s r ↔ l.Held s r := by
    intro s r
    unfold Held
    rw [hrecords]
  constructor
  · exact fun ha hb => h.address_unique ((hheld _ _).mp ha) ((hheld _ _).mp hb)
  · exact fun ha hb => h.generation_unique ((hheld _ _).mp ha) ((hheld _ _).mp hb)
  · intro s r ha
    rw [hgeneration]
    exact h.older ((hheld _ _).mp ha)
  · exact fun ha => h.aligned ((hheld _ _).mp ha)
  · exact fun ha => h.mapped ((hheld _ _).mp ha)
  · intro s r ha
    rw [hrecords] at ha
    exact h.vacant ha
  · rw [hlive, hrecords]
    exact h.count
  · rw [hgeneration]
    exact h.bound

/-- One slot has another record: an empty one, or one that shares its address and
its generation with no other live record. -/
theorem Inv.put {l' : Ledger n} (hslot : slot < n) (hrecords : l'.records = l.records.set slot x)
    (hgeneration : l.nextGeneration ≤ l'.nextGeneration) (hbound : l'.nextGeneration < 2 ^ 64)
    (hcount : l'.live = (l.records.set slot x).countP fun r => decide (r.address ≠ 0))
    (hvacant : x.address = 0 → x = .empty)
    (hfresh : x.address ≠ 0 → ∀ {s y}, s ≠ slot → l.Held s y →
      y.address ≠ x.address ∧ y.generation ≠ x.generation)
    (hnew : x.address ≠ 0 → x.generation < l'.nextGeneration ∧ x.address % pageSize = 0
      ∧ (x.mappedAt ≠ 0 → x.kind = .user ∧ x.mappedAt % pageSize = 0))
    : l'.Inv := by
  -- a live record is the new one or an old one
  have hheld : ∀ {s y}, l'.Held s y → (s = slot ∧ y = x ∧ x.address ≠ 0) ∨ (s ≠ slot ∧ l.Held s y) := by
    intro s y hy
    have hy : (l.put slot x).Held s y := by
      unfold Held at hy
      rw [hrecords] at hy
      exact hy
    rw [held_put hslot] at hy
    split at hy
    · rename_i hs
      exact .inl ⟨hs, hy⟩
    · rename_i hs
      exact .inr ⟨hs, hy⟩
  constructor
  · intro s s' y y' hy hy' heq
    rcases hheld hy with ⟨hs, rfl, hx⟩ | ⟨hs, hy⟩ <;>
      rcases hheld hy' with ⟨hs', rfl, hx'⟩ | ⟨hs', hy'⟩
    · rw [hs, hs']
    · exact absurd heq.symm (hfresh hx hs' hy').1
    · exact absurd heq (hfresh hx' hs hy).1
    · exact h.address_unique hy hy' heq
  · intro s s' y y' hy hy' heq
    rcases hheld hy with ⟨hs, rfl, hx⟩ | ⟨hs, hy⟩ <;>
      rcases hheld hy' with ⟨hs', rfl, hx'⟩ | ⟨hs', hy'⟩
    · rw [hs, hs']
    · exact absurd heq.symm (hfresh hx hs' hy').2
    · exact absurd heq (hfresh hx' hs hy).2
    · exact h.generation_unique hy hy' heq
  · intro s y hy
    rcases hheld hy with ⟨-, rfl, hx⟩ | ⟨-, hy⟩
    · exact (hnew hx).1
    · exact Nat.lt_of_lt_of_le (h.older hy) hgeneration
  · intro s y hy
    rcases hheld hy with ⟨-, rfl, hx⟩ | ⟨-, hy⟩
    · exact (hnew hx).2.1
    · exact h.aligned hy
  · intro s y hy
    rcases hheld hy with ⟨-, rfl, hx⟩ | ⟨-, hy⟩
    · exact (hnew hx).2.2
    · exact h.mapped hy
  · intro s y hy hzero
    rw [hrecords, List.getElem?_set] at hy
    split at hy
    · split at hy
      · cases hy
        exact hvacant hzero
      · cases hy
    · exact h.vacant hy hzero
  · rw [hcount, hrecords]
  · exact hbound

/-- The record of a live slot, with another binding. -/
theorem Inv.setMappedAt (hr : l.Held slot r)
    (haddress : address ≠ 0 → r.kind = .user ∧ address % pageSize = 0) :
    (l.setMappedAt slot address).Inv := by
  have hval : l.setMappedAt slot address = l.put slot { r with mappedAt := address } := by
    rw [Ledger.setMappedAt, hr.record]
  have hlt : slot < l.records.length := by rw [l.size]; exact hr.lt
  have hat : l.records[slot] = r := (List.getElem?_eq_some_iff.mp hr.1).2
  rw [hval]
  refine h.put hr.lt rfl (Nat.le_refl _) h.bound ?_ (fun hzero => absurd hzero hr.2)
    (fun _ _ _ hs hy => ⟨fun heq => hs (h.address_unique hy hr heq),
      fun heq => hs (h.generation_unique hy hr heq)⟩)
    (fun _ => ⟨h.older (r := r) hr, h.aligned (r := r) hr, haddress⟩)
  show l.live = _
  have hpos : 0 < l.records.countP (fun r => decide (r.address ≠ 0)) :=
    List.countP_pos_iff.mpr ⟨r, List.mem_of_getElem? hr.1, by simp [hr.2]⟩
  have hcount := h.count
  rw [List.countP_set hlt, hat]
  simp only [ne_eq, hr.2, not_false_eq_true, decide_true, if_true] at hpos hcount ⊢
  omega

/-- A record put into an empty slot. -/
theorem Inv.issue (hslot : l.records[slot]? = some x) (hx : x.address = 0) (hr : r.address ≠ 0)
    (haligned : r.address % pageSize = 0) (hfresh : ∀ {s y}, l.Held s y → y.address ≠ r.address)
    (hgeneration : r.generation = l.nextGeneration) (hmapped : r.mappedAt = 0)
    (hbound : l.nextGeneration + 1 < 2 ^ 64) : (l.issue slot (l.nextGeneration + 1) r).Inv := by
  obtain ⟨hlen, hat⟩ := List.getElem?_eq_some_iff.mp hslot
  refine h.put (by rw [← l.size]; exact hlen) rfl (Nat.le_succ _) hbound ?_
    (fun hzero => absurd hzero hr) (fun _ _ _ _ hy => ⟨hfresh hy, ?_⟩)
    (fun _ => ⟨?_, haligned, fun hne => absurd hmapped hne⟩)
  · show l.live + 1 = _
    rw [List.countP_set hlen, hat, h.count]
    simp [hx, hr]
  · rw [hgeneration]
    exact Nat.ne_of_lt (h.older hy)
  · rw [hgeneration]
    exact Nat.lt_succ_self _

/-- An emptied slot. -/
theorem Inv.vacate (hr : l.Held slot r) : (l.vacate slot).Inv := by
  have hlen : slot < l.records.length := by rw [l.size]; exact hr.lt
  have hat : l.records[slot] = r := (List.getElem?_eq_some_iff.mp hr.1).2
  refine h.put hr.lt rfl (Nat.le_refl _) h.bound ?_ (fun _ => rfl) (fun hne => absurd rfl hne)
    (fun hne => absurd rfl hne)
  show l.live - 1 = _
  rw [List.countP_set hlen, hat, h.count]
  simp [hr.2, Record.empty]

end

/-- The frames held when one slot has another record. -/
theorem holds_put (hslot : slot < n) (f : Nat) : (l.put slot r).Holds f
    ↔ (f = r.address ∧ r.address ≠ 0) ∨ ∃ s y, s ≠ slot ∧ l.Held s y ∧ y.address = f := by
  constructor
  · intro ⟨s, y, hy, hf⟩
    rw [held_put hslot] at hy
    split at hy
    · exact .inl ⟨by rw [← hf, hy.1], hy.2⟩
    · rename_i hs
      exact .inr ⟨s, y, hs, hy, hf⟩
  · rintro (⟨rfl, hr⟩ | ⟨s, y, hs, hy, hf⟩)
    · exact ⟨slot, r, (held_put hslot).mpr (by rw [if_pos rfl]; exact ⟨rfl, hr⟩), rfl⟩
    · exact ⟨s, y, held_put_of_ne hslot hs hy, hf⟩

theorem holds_setMappedAt (hr : l.Held slot r) (address f : Nat) :
    (l.setMappedAt slot address).Holds f ↔ l.Holds f := by
  unfold Ledger.setMappedAt
  rw [hr.record, holds_put hr.lt]
  constructor
  · rintro (⟨rfl, -⟩ | ⟨s, y, -, hy, hf⟩)
    · exact ⟨slot, r, hr, rfl⟩
    · exact ⟨s, y, hy, hf⟩
  · intro ⟨s, y, hy, hf⟩
    by_cases hs : s = slot
    · subst hs
      exact .inl ⟨by rw [← hf, hy.unique hr], hr.2⟩
    · exact .inr ⟨s, y, hs, hy, hf⟩

theorem holds_issue (hslot : l.records[slot]? = some x) (hx : x.address = 0) (hr : r.address ≠ 0)
    (f : Nat) : (l.issue slot next r).Holds f ↔ f = r.address ∨ l.Holds f := by
  have hlt : slot < n := by
    rw [← l.size]
    exact (List.getElem?_eq_some_iff.mp hslot).1
  show (l.put slot r).Holds f ↔ _
  rw [holds_put hlt]
  constructor
  · rintro (⟨hf, -⟩ | ⟨s, y, -, hy, hf⟩)
    · exact .inl hf
    · exact .inr ⟨s, y, hy, hf⟩
  · rintro (hf | ⟨s, y, hy, hf⟩)
    · exact .inl ⟨hf, hr⟩
    refine .inr ⟨s, y, fun hs => ?_, hy, hf⟩
    subst hs
    have hyx : y = x := Option.some.inj (hy.1.symm.trans hslot)
    exact hy.2 (hyx ▸ hx)

theorem Inv.holds_vacate (h : l.Inv) (hr : l.Held slot r) (f : Nat) :
    (l.vacate slot).Holds f ↔ f ≠ r.address ∧ l.Holds f := by
  show (l.put slot .empty).Holds f ↔ _
  rw [holds_put hr.lt]
  constructor
  · rintro (⟨-, hempty⟩ | ⟨s, y, hs, hy, hf⟩)
    · exact absurd rfl hempty
    · exact ⟨fun hfr => hs (h.address_unique hy hr (by rw [hf, hfr])), s, y, hy, hf⟩
  · intro ⟨hne, s, y, hy, hf⟩
    refine .inr ⟨s, y, fun hs => hne ?_, hy, hf⟩
    subst hs
    rw [← hf, hy.unique hr]

/-! ## §3. Operations. -/

/-- Only diagnostic counters differ. -/
structure SameRecords (l l' : Ledger n) : Prop where
  records : l'.records = l.records
  generation : l'.nextGeneration = l.nextGeneration
  owner : l'.nextOwner = l.nextOwner
  live : l'.live = l.live

theorem SameRecords.refl (l : Ledger n) : SameRecords l l := ⟨rfl, rfl, rfl, rfl⟩

theorem SameRecords.inv {l' : Ledger n} (hs : SameRecords l l') (h : l.Inv) : l'.Inv :=
  h.congr hs.records hs.generation hs.live

theorem SameRecords.isLive {l' : Ledger n} (hs : SameRecords l l') (g : Grant) :
    l'.isLive g = l.isLive g := by
  unfold Ledger.isLive
  rw [hs.records]

theorem sameRecords_deny (l : Ledger n) : SameRecords l l.deny := ⟨rfl, rfl, rfl, rfl⟩

theorem checkedSucc_eq_some {k : Nat} :
    checkedSucc k = some next ↔ next = k + 1 ∧ k + 1 < 2 ^ 64 := by
  unfold checkedSucc
  split
  · rename_i h
    exact ⟨fun heq => ⟨(Option.some.inj heq).symm, h⟩, fun ⟨heq, _⟩ => by rw [heq]⟩
  · rename_i h
    exact ⟨(fun heq => nomatch heq), fun ⟨_, hlt⟩ => absurd hlt h⟩

/-- Before the allocator is asked: a free slot and a generation are reserved. -/
structure Admits (l : Ledger n) (owner : Owner) (slot : Nat) : Prop where
  quota : ¬ l.overQuota owner
  free : ∃ x, l.records[slot]? = some x ∧ x.address = 0
  generation : l.nextGeneration + 1 < 2 ^ 64

theorem Admits.lt (h : l.Admits owner slot) : slot < n := by
  obtain ⟨x, hx, -⟩ := h.free
  have := (List.getElem?_eq_some_iff.mp hx).1
  rw [l.size] at this
  exact this

/-- **What `allocate` can do.**  It is refused before the allocator runs, the
allocator refuses, or the new frame is recorded, provided it passes the two
assertions. -/
theorem allocate_cases (l : Ledger n) (owner : Owner) (kind : Kind)
    (allocateFrame : σ → σ × Option Nat) (st : σ) :
    (∃ l', l.allocate owner kind allocateFrame st = some (l', st, none) ∧ SameRecords l l')
      ∨ ∃ slot, l.Admits owner slot ∧
        ((∃ st', allocateFrame st = (st', none)
            ∧ l.allocate owner kind allocateFrame st = some (l, st', none))
          ∨ ∃ st' f, allocateFrame st = (st', some f)
            ∧ (f ≠ 0 → f % pageSize = 0 → (∀ {s y}, l.Held s y → y.address ≠ f) →
              l.allocate owner kind allocateFrame st
                = some (l.issue slot (l.nextGeneration + 1) ⟨f, l.nextGeneration, owner, 0, kind⟩,
                  st', some ⟨f, l.nextGeneration, owner, slot, kind⟩))) := by
  by_cases hquota : l.overQuota owner
  · exact .inl ⟨{ l with quotaDenials := saturatingSucc l.quotaDenials }, by
      rw [Ledger.allocate, if_pos hquota], rfl, rfl, rfl, rfl⟩
  cases hslot : l.records.findIdx? (fun r => decide (r.address = 0)) with
  | none =>
    exact .inl ⟨{ l with exhausted := saturatingSucc l.exhausted }, by
      simp only [Ledger.allocate, if_neg hquota, hslot], rfl, rfl, rfl, rfl⟩
  | some slot =>
    cases hnext : checkedSucc l.nextGeneration with
    | none =>
      exact .inl ⟨{ l with exhausted := saturatingSucc l.exhausted }, by
        simp only [Ledger.allocate, if_neg hquota, hslot, hnext], rfl, rfl, rfl, rfl⟩
    | some next =>
      obtain ⟨hlt, hfree, -⟩ := List.findIdx?_eq_some_iff_getElem.mp hslot
      obtain ⟨hsucc, hbound⟩ := checkedSucc_eq_some.mp hnext
      refine .inr ⟨slot, ⟨hquota, ⟨_, List.getElem?_eq_getElem hlt, by simpa using hfree⟩,
        hbound⟩, ?_⟩
      rcases hcall : allocateFrame st with ⟨st', frame⟩
      cases frame with
      | none =>
        exact .inl ⟨st', rfl, by
          simp only [Ledger.allocate, if_neg hquota, hslot, hnext, hcall]⟩
      | some f =>
        refine .inr ⟨st', f, rfl, fun hne haligned hfresh => ?_⟩
        have hunused : l.records.any (fun r => decide (r.address = f)) = false := by
          rw [List.any_eq_false]
          intro y hy hyf
          obtain ⟨s, hs⟩ := List.mem_iff_getElem?.mp hy
          have hyf : y.address = f := by simpa using hyf
          exact hfresh ⟨hs, by rw [hyf]; exact hne⟩ hyf
        simp only [Ledger.allocate, if_neg hquota, hslot, hnext, hcall, hne, haligned,
          hunused, ne_eq, not_false_eq_true, and_self, if_true, hsucc]
        rfl

/-- **What `bind` can do.** -/
theorem bind_cases (l : Ledger n) (g : Grant) (owner : Owner) (address : Nat) :
    (l.bind g owner address = (l.deny, false))
      ∨ ∃ r, l.Held g.slot r ∧ r.grant g.slot = g ∧ g.owner = owner ∧ g.kind = .user
        ∧ address ≠ 0 ∧ address % pageSize = 0 ∧ r.mappedAt = 0
        ∧ l.bind g owner address = (l.setMappedAt g.slot address, true) := by
  unfold Ledger.bind
  split
  · exact .inl rfl
  rename_i h
  simp only [not_or, Bool.not_eq_false, ne_eq, not_not] at h
  obtain ⟨r, hr, hrg⟩ := isLive_iff.mp h.1
  rw [hr.record] at h
  exact .inr ⟨r, hr, hrg, h.2.1, h.2.2.1, h.2.2.2.1, h.2.2.2.2.1, h.2.2.2.2.2, rfl⟩

/-- `can_bind` admits the live, unbound pages of the owner. -/
theorem canBind_iff :
    l.canBind g owner = true ↔ ∃ r, l.Held g.slot r ∧ r.grant g.slot = g ∧ g.owner = owner
      ∧ g.kind = .user ∧ r.mappedAt = 0 := by
  unfold Ledger.canBind
  simp only [Bool.and_eq_true, decide_eq_true_eq, isLive_iff]
  constructor
  · intro ⟨⟨⟨⟨r, hr, hrg⟩, howner⟩, hkind⟩, hmapped⟩
    rw [hr.record] at hmapped
    exact ⟨r, hr, hrg, howner, hkind, hmapped⟩
  · intro ⟨r, hr, hrg, howner, hkind, hmapped⟩
    rw [hr.record]
    exact ⟨⟨⟨⟨r, hr, hrg⟩, howner⟩, hkind⟩, hmapped⟩

theorem bind_held (hr : l.Held g.slot r) (hrg : r.grant g.slot = g) (howner : g.owner = owner)
    (hkind : g.kind = .user) (haddress : address ≠ 0) (haligned : address % pageSize = 0)
    (hmapped : r.mappedAt = 0) :
    l.bind g owner address = (l.setMappedAt g.slot address, true) := by
  have hlive := isLive_iff.mpr ⟨r, hr, hrg⟩
  unfold Ledger.bind
  rw [if_neg]
  rw [hlive, hr.record]
  simp [howner, hkind, haddress, haligned, hmapped]

/-- `find` returns the live grant of the owner, address and kind. -/
theorem find_some {kind : Kind} (h : l.find owner address kind = some g) :
    ∃ r, l.Held g.slot r ∧ r.grant g.slot = g ∧ r.address = address ∧ r.owner = owner
      ∧ r.kind = kind := by
  unfold Ledger.find at h
  split at h
  · cases h
  rename_i slot hslot
  obtain ⟨hlt, hp, -⟩ := List.findIdx?_eq_some_iff_getElem.mp hslot
  simp only [Bool.and_eq_true, decide_eq_true_eq] at hp
  have hheld : l.Held slot l.records[slot] :=
    ⟨List.getElem?_eq_getElem hlt, by rw [hp.1.1.1]; exact hp.1.1.2⟩
  rw [hheld.record] at h
  cases h
  exact ⟨_, hheld, rfl, hp.1.1.1, hp.1.2, hp.2⟩

/-- With one record for each address, `find` finds it. -/
theorem Inv.find_held (h : l.Inv) (hr : l.Held slot r) :
    l.find r.owner r.address r.kind = some (r.grant slot) := by
  cases hfind : l.find r.owner r.address r.kind with
  | none =>
    unfold Ledger.find at hfind
    split at hfind
    · rename_i hnone
      have := List.findIdx?_eq_none_iff.mp hnone r (List.mem_of_getElem? hr.1)
      simp [hr.2] at this
    · cases hfind
  | some g =>
    obtain ⟨y, hy, hyg, haddress, -⟩ := find_some hfind
    have hs := h.address_unique hy hr haddress
    rw [hs] at hy hyg
    rw [← hyg, hy.unique hr]

/-- **What `retire` can do.** -/
theorem retire_cases (l : Ledger n) (owner : Owner) (frame address : Nat) :
    l.retire owner frame address = (l, none)
      ∨ ∃ g r, l.Held g.slot r ∧ r.grant g.slot = g ∧ r.address = frame ∧ r.owner = owner
        ∧ r.kind = .user ∧ address ≠ 0 ∧ r.mappedAt = address
        ∧ l.retire owner frame address = (l.setMappedAt g.slot 0, some g) := by
  cases hfind : l.find owner frame .user with
  | none => exact .inl (by simp only [Ledger.retire, hfind])
  | some g =>
    obtain ⟨r, hr, hrg, haddress, howner, hkind⟩ := find_some hfind
    by_cases hbad : address = 0 ∨ (l.record g.slot).mappedAt ≠ address
    · exact .inl (by simp only [Ledger.retire, hfind, if_pos hbad])
    have hval : l.retire owner frame address = (l.setMappedAt g.slot 0, some g) := by
      simp only [Ledger.retire, hfind, if_neg hbad]
    simp only [not_or, ne_eq, not_not, hr.record] at hbad
    exact .inr ⟨g, r, hr, hrg, haddress, howner, hkind, hbad.1, hbad.2, hval⟩

/-- A bound page is retired. -/
theorem Inv.retire_held (h : l.Inv) (hr : l.Held slot r) (hkind : r.kind = .user)
    (hmapped : r.mappedAt ≠ 0) :
    l.retire r.owner r.address r.mappedAt = (l.setMappedAt slot 0, some (r.grant slot)) := by
  have hfind := h.find_held hr
  rw [hkind] at hfind
  have hslot : (l.record (r.grant slot).slot).mappedAt = r.mappedAt := by
    show (l.record slot).mappedAt = r.mappedAt
    rw [hr.record]
  simp only [Ledger.retire, hfind, hslot, hmapped, ne_eq, not_true_eq_false, or_self, if_false]
  rfl

/-- **What `release` can do.**  Only a live and unmapped grant reaches the
physical allocator, with its own address. -/
theorem release_cases (l : Ledger n) (g : Grant) (prepareAndFree : Nat → σ → σ × Bool) (st : σ) :
    (l.release g prepareAndFree st = (l.deny, st, false))
      ∨ ∃ r, l.Held g.slot r ∧ r.grant g.slot = g ∧ r.mappedAt = 0
        ∧ l.release g prepareAndFree st
          = if (prepareAndFree g.address st).2 then
              (l.vacate g.slot, (prepareAndFree g.address st).1, true)
            else (l, (prepareAndFree g.address st).1, false) := by
  unfold Ledger.release
  split
  · exact .inl rfl
  rename_i h
  simp only [not_or, Bool.not_eq_false, ne_eq, not_not] at h
  obtain ⟨r, hr, hrg⟩ := isLive_iff.mp h.1
  rw [hr.record] at h
  refine .inr ⟨r, hr, hrg, h.2, ?_⟩
  rcases prepareAndFree g.address st with ⟨st', ok⟩
  cases ok <;> rfl

/-! ## §4. Live grants. -/

theorem isLive_setMappedAt (hr : l.Held slot r) (address : Nat) (g : Grant) :
    (l.setMappedAt slot address).isLive g = l.isLive g := by
  have hlen : slot < l.records.length := by rw [l.size]; exact hr.lt
  unfold Ledger.isLive Ledger.setMappedAt put
  rw [hr.record]
  simp only [List.getElem?_set]
  by_cases hs : slot = g.slot
  · rw [if_pos hs, if_pos hlen, ← hs, hr.1]
    rfl
  · rw [if_neg hs]

theorem isLive_of_vacate (hr : l.Held slot r) (h : (l.vacate slot).isLive g = true) :
    l.isLive g = true := by
  obtain ⟨y, hy, hyg⟩ := isLive_iff.mp h
  have hy' : (l.put slot .empty).Held g.slot y := hy
  rw [held_put hr.lt] at hy'
  split at hy'
  · exact absurd rfl hy'.2
  · exact isLive_iff.mpr ⟨y, hy', hyg⟩

/-- The only new live grant has the next generation. -/
theorem isLive_of_issue (hlt : slot < n) (h : (l.issue slot next r).isLive g = true) :
    l.isLive g = true ∨ g = r.grant slot := by
  obtain ⟨y, hy, hyg⟩ := isLive_iff.mp h
  have hy' : (l.put slot r).Held g.slot y := hy
  rw [held_put hlt] at hy'
  split at hy'
  · rename_i hs
    refine .inr ?_
    rw [← hyg, hy'.1, hs]
  · exact .inl (isLive_iff.mpr ⟨y, hy', hyg⟩)

/-! ## §5. Frames of an owner. -/

theorem ownerFrames_eq_zero :
    l.ownerFrames owner = 0 ↔ ∀ s y, l.Held s y → y.owner ≠ owner := by
  unfold ownerFrames
  rw [List.countP_eq_zero]
  constructor
  · intro h s y hy howner
    have := h y (List.mem_of_getElem? hy.1)
    simp [hy.2, howner] at this
  · intro h y hmem
    obtain ⟨s, hs⟩ := List.getElem?_of_mem hmem
    by_cases hzero : y.address = 0
    · simp [hzero]
    · simp [h s y ⟨hs, hzero⟩]

theorem ownerFrames_setMappedAt (hr : l.Held slot r) (address : Nat) (owner : Owner) :
    (l.setMappedAt slot address).ownerFrames owner = l.ownerFrames owner := by
  have hlen : slot < l.records.length := by rw [l.size]; exact hr.lt
  have hat : l.records[slot] = r := (List.getElem?_eq_some_iff.mp hr.1).2
  have hmem := List.mem_of_getElem? hr.1
  unfold ownerFrames Ledger.setMappedAt put
  rw [hr.record]
  show (l.records.set slot _).countP _ = _
  rw [List.countP_set hlen, hat]
  by_cases howner : r.owner = owner
  · have hpos : 0 < l.records.countP
        (fun r => decide (r.address ≠ 0) && decide (r.owner = owner)) :=
      List.countP_pos_iff.mpr ⟨r, hmem, by simp [hr.2, howner]⟩
    rw [if_pos (by simp [hr.2, howner])]
    omega
  · simp [howner]

/-- A record put into an empty slot is one frame more for its owner. -/
theorem ownerFrames_issue (hslot : l.records[slot]? = some x) (hx : x.address = 0)
    (hr : r.address ≠ 0) (owner : Owner) :
    (l.issue slot next r).ownerFrames owner
      = if r.owner = owner then l.ownerFrames owner + 1 else l.ownerFrames owner := by
  obtain ⟨hlen, hat⟩ := List.getElem?_eq_some_iff.mp hslot
  unfold ownerFrames
  show (l.records.set slot r).countP _ = _
  rw [List.countP_set hlen, hat, if_neg (by simp [hx])]
  by_cases howner : r.owner = owner
  · rw [if_pos (by simp [hr, howner]), if_pos howner, Nat.sub_zero]
  · rw [if_neg (by simp [howner]), if_neg howner, Nat.sub_zero, Nat.add_zero]

theorem ownerFrames_vacate_le (hr : l.Held slot r) (owner : Owner) :
    (l.vacate slot).ownerFrames owner ≤ l.ownerFrames owner := by
  have hlen : slot < l.records.length := by rw [l.size]; exact hr.lt
  have hempty : (decide (Record.empty.address ≠ 0) && decide (Record.empty.owner = owner))
      = false := rfl
  unfold ownerFrames
  show (l.records.set slot .empty).countP _ ≤ _
  rw [List.countP_set hlen, hempty, if_neg Bool.false_ne_true, Nat.add_zero]
  exact Nat.sub_le _ _

/-- An emptied slot is one frame less for its owner. -/
theorem ownerFrames_vacate (hr : l.Held slot r) :
    (l.vacate slot).ownerFrames r.owner + 1 = l.ownerFrames r.owner := by
  have hlen : slot < l.records.length := by rw [l.size]; exact hr.lt
  have hat : l.records[slot] = r := (List.getElem?_eq_some_iff.mp hr.1).2
  have hpos : 0 < l.records.countP
      (fun x => decide (x.address ≠ 0) && decide (x.owner = r.owner)) :=
    List.countP_pos_iff.mpr ⟨r, List.mem_of_getElem? hr.1, by simp [hr.2]⟩
  unfold ownerFrames
  show (l.records.set slot .empty).countP _ + 1 = _
  rw [List.countP_set hlen, hat, if_pos (by simp [hr.2]), if_neg (by simp [Record.empty])]
  omega

end Ledger

end GenOS.Memory
