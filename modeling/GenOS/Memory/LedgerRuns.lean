/-
  GenOS.Memory.LedgerRuns — the grant ledger over whole runs.

  The ledger is used with any allocator that supplies aligned frames it does
  not hold, and with any preparation.  `LedgerEffect` says once what an
  operation can do to the records; authority, quotas and denials follow.
-/
import GenOS.Memory.LedgerInvariant

namespace GenOS.Memory

open Ledger

variable {n : Nat} {l l' : Ledger n}

/-! ## §1. Operations. -/

inductive LedgerOp where
  | newOwner
  | allocate (owner : Owner) (kind : Kind)
  | bind (grant : Grant) (owner : Owner) (virtualAddress : Nat)
  | retire (owner : Owner) (address virtualAddress : Nat)
  | release (grant : Grant)

/-- The allocator supplies nonzero aligned addresses that are not live. -/
def Supplies {σ : Type} (l : Ledger n) (allocateFrame : σ → σ × Option Nat) (s : σ) : Prop :=
  ∀ s' f, allocateFrame s = (s', some f) → f ≠ 0 ∧ f % pageSize = 0
    ∧ ∀ slot r, l.Held slot r → r.address ≠ f

/-- One operation and whether it succeeded. -/
inductive LedgerStep : Ledger n → LedgerOp → Bool → Ledger n → Prop
  | newOwner (l : Ledger n) : LedgerStep l .newOwner l.newOwner.2.isSome l.newOwner.1
  | allocate {σ : Type} {l l' : Ledger n} {owner : Owner} {kind : Kind}
      {allocateFrame : σ → σ × Option Nat} {s s' : σ} {result : Option Grant} :
      Supplies l allocateFrame s →
      l.allocate owner kind allocateFrame s = some (l', s', result) →
      LedgerStep l (.allocate owner kind) result.isSome l'
  | bind (l : Ledger n) (g : Grant) (owner : Owner) (va : Nat) :
      LedgerStep l (.bind g owner va) (l.bind g owner va).2 (l.bind g owner va).1
  | retire (l : Ledger n) (owner : Owner) (f va : Nat) :
      LedgerStep l (.retire owner f va) (l.retire owner f va).2.isSome (l.retire owner f va).1
  | release {σ : Type} (l : Ledger n) (g : Grant) (prepareAndFree : Nat → σ → σ × Bool) (s : σ) :
      LedgerStep l (.release g) (l.release g prepareAndFree s).2.2
        (l.release g prepareAndFree s).1

/-- `l'` follows from `l` by a sequence of operations. -/
inductive LedgerSteps : Ledger n → Ledger n → Prop
  | refl (l : Ledger n) : LedgerSteps l l
  | step {l₀ l l' : Ledger n} {op : LedgerOp} {ok : Bool} :
      LedgerSteps l₀ l → LedgerStep l op ok l' → LedgerSteps l₀ l'

/-! ## §2. What an operation can do. -/

inductive LedgerEffect (l : Ledger n) : LedgerOp → Bool → Ledger n → Prop
  | denied {op : LedgerOp} {l' : Ledger n} : SameRecords l l' → LedgerEffect l op false l'
  | owner {l' : Ledger n} : l'.records = l.records → l'.nextGeneration = l.nextGeneration →
      l'.live = l.live → LedgerEffect l .newOwner true l'
  | issued {owner : Owner} {kind : Kind} {slot f : Nat} : l.Admits owner slot → f ≠ 0 →
      f % pageSize = 0 → (∀ s r, l.Held s r → r.address ≠ f) →
      LedgerEffect l (.allocate owner kind) true
        (l.issue slot (l.nextGeneration + 1) ⟨f, l.nextGeneration, owner, 0, kind⟩)
  | bound {g : Grant} {owner : Owner} {va : Nat} {r : Record} : l.Held g.slot r →
      r.grant g.slot = g → r.kind = .user → va ≠ 0 → va % pageSize = 0 → r.mappedAt = 0 →
      LedgerEffect l (.bind g owner va) true (l.setMappedAt g.slot va)
  | retired {owner : Owner} {f va slot : Nat} {r : Record} : l.Held slot r → r.address = f →
      r.owner = owner → r.mappedAt = va →
      LedgerEffect l (.retire owner f va) true (l.setMappedAt slot 0)
  | released {g : Grant} {r : Record} : l.Held g.slot r → r.grant g.slot = g → r.mappedAt = 0 →
      LedgerEffect l (.release g) true (l.vacate g.slot)

variable {op : LedgerOp} {ok : Bool} {g : Grant}

theorem LedgerStep.effect (h : LedgerStep l op ok l') :
    LedgerEffect l op ok l' := by
  cases h with
  | newOwner =>
    unfold Ledger.newOwner
    cases checkedSucc l.nextOwner with
    | none => exact .denied (.refl l)
    | some next => exact .owner rfl rfl rfl
  | allocate hsupplies hval =>
    rename_i σ owner kind allocateFrame s s' result
    rcases allocate_cases l owner kind allocateFrame s with ⟨l₁, hval₁, hsame⟩
      | ⟨slot, hadmitteds, ⟨s₁, hnone, hval₁⟩ | ⟨s₁, f, hsome, hval₁⟩⟩
    · rw [hval] at hval₁
      cases hval₁
      exact .denied hsame
    · rw [hval] at hval₁
      cases hval₁
      exact .denied (.refl l)
    · obtain ⟨hne, haligned, hfresh⟩ := hsupplies s₁ f hsome
      have hval₁ := hval₁ hne haligned (fun {s y} hy => hfresh s y hy)
      rw [hval] at hval₁
      cases hval₁
      exact .issued hadmitteds hne haligned hfresh
  | bind =>
    rename_i g owner va
    rcases bind_cases l g owner va with hval | ⟨r, hr, hrg, -, hkind, hva, haligned, hmapped, hval⟩
    · rw [hval]
      exact .denied (sameRecords_deny l)
    · rw [hval]
      refine .bound hr hrg ?_ hva haligned hmapped
      rw [← hkind, ← hrg]
      rfl
  | retire =>
    rename_i owner f va
    rcases retire_cases l owner f va with hval | ⟨g, r, hr, -, haddress, howner, -, -, hmapped, hval⟩
    · rw [hval]
      exact .denied (.refl l)
    · rw [hval]
      exact .retired hr haddress howner hmapped
  | release =>
    rename_i σ g prepareAndFree s
    rcases release_cases l g prepareAndFree s with hval | ⟨r, hr, hrg, hmapped, hval⟩
    · rw [hval]
      exact .denied (sameRecords_deny l)
    · rw [hval]
      split
      · exact .released hr hrg hmapped
      · exact .denied (.refl l)

theorem LedgerEffect.inv (he : LedgerEffect l op ok l') (h : l.Inv) : l'.Inv := by
  cases he with
  | denied hsame => exact hsame.inv h
  | owner hrecords hgeneration hlive => exact h.congr hrecords hgeneration hlive
  | issued hadmitteds hne haligned hfresh =>
    obtain ⟨x, hx, hzero⟩ := hadmitteds.free
    exact h.issue hx hzero hne haligned (fun {s y} hy => hfresh s y hy) rfl rfl
      hadmitteds.generation
  | bound hr _ hkind _ haligned _ => exact h.setMappedAt hr (fun _ => ⟨hkind, haligned⟩)
  | retired hr _ _ _ => exact h.setMappedAt hr (fun hne => absurd rfl hne)
  | released hr _ _ => exact h.vacate hr

/-- The quota of every user. -/
def WithinQuota (l : Ledger n) : Prop :=
  ∀ owner, owner ≠ .kernel → l.ownerFrames owner ≤ userFrameLimit

theorem LedgerEffect.quota (he : LedgerEffect l op ok l') (h : WithinQuota l) : WithinQuota l' := by
  intro o ho
  have hbefore := h o ho
  cases he with
  | denied hsame =>
    unfold ownerFrames at hbefore ⊢
    rw [hsame.records]
    exact hbefore
  | owner hrecords _ _ =>
    unfold ownerFrames at hbefore ⊢
    rw [hrecords]
    exact hbefore
  | issued hadmitteds hne _ _ =>
    obtain ⟨x, hx, hzero⟩ := hadmitteds.free
    rw [ownerFrames_issue hx hzero hne]
    split
    · rename_i heq
      -- the quota check admitted one more frame
      have hroom := hadmitteds.quota
      unfold overQuota at hroom
      simp only at heq
      rw [heq] at hroom
      have : ¬ userFrameLimit ≤ l.ownerFrames o := fun hfull => hroom ⟨ho, .inl hfull⟩
      omega
    · exact hbefore
  | bound hr _ _ _ _ _ | retired hr _ _ _ =>
    rw [ownerFrames_setMappedAt hr]
    exact hbefore
  | released hr _ _ => exact Nat.le_trans (ownerFrames_vacate_le hr o) hbefore

/-- The grant was issued before and is not live. -/
def Ledger.Retired (l : Ledger n) (g : Grant) : Prop :=
  g.generation < l.nextGeneration ∧ l.isLive g = false

theorem LedgerEffect.retired_stays (he : LedgerEffect l op ok l') (h : l.Retired g) : l'.Retired g := by
  cases he with
  | denied hsame => exact ⟨by rw [hsame.generation]; exact h.1, by rw [hsame.isLive]; exact h.2⟩
  | owner hrecords hgeneration _ =>
    refine ⟨by rw [hgeneration]; exact h.1, ?_⟩
    unfold Ledger.isLive
    rw [hrecords]
    exact h.2
  | issued hadmitteds _ _ _ =>
    refine ⟨Nat.lt_succ_of_lt h.1, ?_⟩
    -- the new grant has a newer generation
    rw [Bool.eq_false_iff]
    intro hlive
    rcases isLive_of_issue hadmitteds.lt hlive with hlive | rfl
    · rw [h.2] at hlive
      cases hlive
    · exact absurd h.1 (Nat.lt_irrefl _)
  | bound hr _ _ _ _ _ | retired hr _ _ _ => exact ⟨h.1, by rw [isLive_setMappedAt hr]; exact h.2⟩
  | released hr _ _ =>
    refine ⟨h.1, ?_⟩
    rw [Bool.eq_false_iff]
    intro hlive
    exact Bool.noConfusion ((isLive_of_vacate hr hlive).symm.trans h.2)

/-- A bound record stays as it is until it is retired with its owner, its
address and its binding. -/
theorem LedgerEffect.bound_stays (he : LedgerEffect l op ok l') {slot : Nat} {r : Record}
    (hr : l.Held slot r) (hbound : r.mappedAt ≠ 0)
    (hop : op ≠ .retire r.owner r.address r.mappedAt) : l'.Held slot r := by
  cases he with
  | denied hsame =>
    unfold Held
    rw [hsame.records]
    exact hr
  | owner hrecords _ _ =>
    unfold Held
    rw [hrecords]
    exact hr
  | @issued owner kind s f hadmitteds _ _ _ =>
    -- the slot of the new record was empty
    have hne : slot ≠ s := by
      intro heq
      obtain ⟨x, hx, hzero⟩ := hadmitteds.free
      rw [← heq] at hx
      rw [Option.some.inj (hr.1.symm.trans hx)] at hr
      exact hr.2 hzero
    exact held_put_of_ne hadmitteds.lt hne hr
  | @bound g owner va x hx _ _ _ _ hunbound | @released g x hx _ hunbound =>
    have hne : slot ≠ g.slot := by
      intro heq
      rw [heq] at hr
      rw [hr.unique hx] at hbound
      exact hbound hunbound
    exact held_put_of_ne hx.lt hne hr
  | @retired owner f va s x hx haddress howner hmapped =>
    have hne : slot ≠ s := by
      intro heq
      rw [heq] at hr
      rw [← hr.unique hx] at haddress howner hmapped
      exact hop (by rw [haddress, howner, hmapped])
    exact held_put_of_ne hx.lt hne hr

/-! ## §3. Runs. -/

variable {l₀ : Ledger n}

theorem LedgerSteps.inv (hsteps : LedgerSteps l₀ l) (h : l₀.Inv) : l.Inv := by
  induction hsteps with
  | refl => exact h
  | step _ hstep ih => exact hstep.effect.inv ih

theorem LedgerSteps.quota (hsteps : LedgerSteps l₀ l) (h : WithinQuota l₀) : WithinQuota l := by
  induction hsteps with
  | refl => exact h
  | step _ hstep ih => exact hstep.effect.quota ih

theorem LedgerSteps.retired (hsteps : LedgerSteps l₀ l) (h : l₀.Retired g) : l.Retired g := by
  induction hsteps with
  | refl => exact h
  | step _ hstep ih => exact hstep.effect.retired_stays ih

theorem withinQuota_new : WithinQuota (.new : Ledger n) := by
  intro owner _
  have hzero : (.new : Ledger n).ownerFrames owner = 0 := by
    rw [ownerFrames_eq_zero]
    intro s y hy
    have : y = .empty := List.eq_of_mem_replicate (List.mem_of_getElem? hy.1)
    exact absurd (by rw [this]; rfl) hy.2
  omega

/-- A released grant is not live, and it had been issued. -/
theorem release_retired (h : l.Inv) (hstep : LedgerStep l (.release g) true l') :
    l'.Retired g := by
  cases hstep.effect with
  | released hr hrg _ =>
    constructor
    · rw [← hrg]
      exact h.older hr
    · rw [Bool.eq_false_iff]
      intro hlive
      obtain ⟨y, hy, -⟩ := isLive_iff.mp hlive
      have hy' := (held_put hr.lt).mp hy
      rw [if_pos rfl] at hy'
      exact hy'.2 rfl

/-- **Grant ledger authority.**  In every reachable ledger:

  * an allocation with a proper allocator fails no assertion;
  * a released grant is never live again;
  * live records differ in their addresses and in their generations;
  * a bound grant is refused by `release` and `bind`, and its record stays until
    it is retired with exactly its owner, address and binding;
  * no user holds more than its limit, and after a successful allocation for a
    user the kernel's reserve is free;
  * a denied operation changes counters only. -/
theorem grant_ledger_authority (hreach : LedgerSteps .new l) :
    (∀ (σ : Type) (allocateFrame : σ → σ × Option Nat) (s : σ) owner kind,
      Supplies l allocateFrame s → (l.allocate owner kind allocateFrame s).isSome = true)
    ∧ (∀ g l₁ l₂, LedgerStep l (.release g) true l₁ → LedgerSteps l₁ l₂ → l₂.isLive g = false)
    ∧ (∀ s s' r r', l.Held s r → l.Held s' r' → s ≠ s' →
      r.address ≠ r'.address ∧ r.generation ≠ r'.generation)
    ∧ (∀ slot r, l.Held slot r → r.mappedAt ≠ 0 →
      (∀ l₁ ok, LedgerStep l (.release (r.grant slot)) ok l₁ → ok = false)
      ∧ (∀ owner va l₁ ok, LedgerStep l (.bind (r.grant slot) owner va) ok l₁ → ok = false)
      ∧ ∀ op ok l₁, LedgerStep l op ok l₁ → op ≠ .retire r.owner r.address r.mappedAt →
        l₁.Held slot r)
    ∧ (∀ owner, owner ≠ .kernel → l.ownerFrames owner ≤ 64)
    ∧ (∀ owner kind l₁, owner ≠ .kernel → LedgerStep l (.allocate owner kind) true l₁ →
      l₁.records.countP (fun r => decide (r.address ≠ 0)) ≤ n - min 256 (n / 4))
    ∧ ∀ op l₁, LedgerStep l op false l₁ → SameRecords l l₁ := by
  have h : l.Inv := hreach.inv Inv.new
  refine ⟨?_, ?_, ?_, ?_, hreach.quota withinQuota_new, ?_, ?_⟩
  · intro σ allocateFrame s owner kind hsupplies
    rcases allocate_cases l owner kind allocateFrame s with ⟨l₁, hval, -⟩
      | ⟨slot, -, ⟨s₁, -, hval⟩ | ⟨s₁, f, hsome, hval⟩⟩
    · rw [hval]
      rfl
    · rw [hval]
      rfl
    · obtain ⟨hne, haligned, hfresh⟩ := hsupplies s₁ f hsome
      rw [hval hne haligned (fun {s y} hy => hfresh s y hy)]
      rfl
  · intro g l₁ l₂ hstep hsteps
    exact (hsteps.retired (release_retired h hstep)).2
  · intro s s' r r' hr hr' hne
    exact ⟨fun heq => hne (h.address_unique hr hr' heq),
      fun heq => hne (h.generation_unique hr hr' heq)⟩
  · intro slot r hr hbound
    refine ⟨fun l₁ ok hstep => ?_, fun owner va l₁ ok hstep => ?_, fun op ok l₁ hstep hop =>
      hstep.effect.bound_stays hr hbound hop⟩
    · cases hstep.effect with
      | denied => rfl
      | released hx _ hunbound =>
        have hx' : l.Held slot _ := hx
        rw [hx'.unique hr] at hunbound
        exact absurd hunbound hbound
    · cases hstep.effect with
      | denied => rfl
      | bound hx _ _ _ _ hunbound =>
        have hx' : l.Held slot _ := hx
        rw [hx'.unique hr] at hunbound
        exact absurd hunbound hbound
  · intro owner kind l₁ howner hstep
    have h₁ := hstep.effect.inv h
    rw [← h₁.count]
    cases hstep.effect with
    | issued hadmitteds _ _ _ =>
      have hroom : ¬ n - min kernelFrameReserve (n / 4) ≤ l.live :=
        fun hfull => hadmitteds.quota ⟨howner, Or.inr hfull⟩
      unfold kernelFrameReserve at hroom
      show l.live + 1 ≤ n - min 256 (n / 4)
      omega
  · intro op l₁ hstep
    cases hstep.effect with
    | denied hsame => exact hsame

/-- A user frame at `0x1000` in a ledger of four records. -/
def oneFrame : Ledger 4 := Ledger.new.issue 0 2 ⟨0x1000, 1, ⟨1⟩, 0, .user⟩

theorem grant_ledger_authority_oneFrame :
    LedgerSteps .new oneFrame ∧ oneFrame.ownerFrames ⟨1⟩ ≤ 64
      ∧ ∀ l₁ l₂, LedgerStep oneFrame (.release ⟨0x1000, 1, ⟨1⟩, 0, .user⟩) true l₁ →
        LedgerSteps l₁ l₂ → l₂.isLive ⟨0x1000, 1, ⟨1⟩, 0, .user⟩ = false := by
  have hsupplies : Supplies (Ledger.new : Ledger 4) (fun s : Nat => (s, some s)) 0x1000 := by
    intro s' f hval
    cases hval
    refine ⟨by decide, by decide, fun slot r hr => ?_⟩
    have : r = .empty := List.eq_of_mem_replicate (List.mem_of_getElem? hr.1)
    exact absurd (by rw [this]; rfl) hr.2
  have hval : (Ledger.new : Ledger 4).allocate ⟨1⟩ .user (fun s : Nat => (s, some s)) 0x1000
      = some (oneFrame, 0x1000, some ⟨0x1000, 1, ⟨1⟩, 0, .user⟩) := rfl
  have hreach : LedgerSteps .new oneFrame := .step (.refl _) (.allocate hsupplies hval)
  have hauthority := grant_ledger_authority hreach
  exact ⟨hreach, hauthority.2.2.2.2.1 ⟨1⟩ (by decide), hauthority.2.1 _⟩

end GenOS.Memory
