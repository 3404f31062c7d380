/-
  GenOS.Memory.FrameGrant — the grant ledger of `frame_grant.rs`.

  An address is never authority.  A grant names the ledger slot, the owner,
  the kind and the generation of one allocation, and every operation compares
  it with the record in its slot.  The capacity `n` is a parameter, as `N` is
  in the source.

  The closures of the source run on an outside state `σ`, which is passed
  through.  `allocate` returns `none` where an assertion of the source fails.
-/
import GenOS.Memory.FrameAllocator

namespace GenOS.Memory

/-! ## §1. Data model. -/

/-- `GRANT_CAPACITY`. -/
def grantCapacity : Nat := 8192

/-- `USER_FRAME_LIMIT`. -/
def userFrameLimit : Nat := 64

/-- `KERNEL_FRAME_RESERVE`. -/
def kernelFrameReserve : Nat := 256

structure Owner where
  id : Nat
  deriving DecidableEq, Repr

/-- `Owner::KERNEL`. -/
def Owner.kernel : Owner := ⟨0⟩

inductive Kind where
  | table
  | user
  deriving DecidableEq, Repr

structure Grant where
  address : Nat
  generation : Nat
  owner : Owner
  slot : Nat
  kind : Kind
  deriving DecidableEq, Repr

structure Record where
  address : Nat
  generation : Nat
  owner : Owner
  mappedAt : Nat
  kind : Kind
  deriving DecidableEq, Repr

/-- `Record::EMPTY`. -/
def Record.empty : Record := ⟨0, 0, .kernel, 0, .table⟩

/-- `Record::grant`. -/
def Record.grant (r : Record) (slot : Nat) : Grant :=
  ⟨r.address, r.generation, r.owner, slot, r.kind⟩

structure Ledger (n : Nat) where
  records : List Record
  size : records.length = n
  nextGeneration : Nat
  nextOwner : Nat
  live : Nat
  denied : Nat
  exhausted : Nat
  quotaDenials : Nat

namespace Ledger

variable {n : Nat} {σ : Type}

/-- `Ledger::new`. -/
def new : Ledger n := ⟨List.replicate n .empty, List.length_replicate, 1, 1, 0, 0, 0, 0⟩

variable (l : Ledger n)

/-- `records[slot]`; the callers have checked the slot. -/
def record (slot : Nat) : Record := l.records.getD slot .empty

/-- `records[slot] = r`. -/
def put (slot : Nat) (r : Record) : Ledger n :=
  { l with
    records := l.records.set slot r
    size := by rw [List.length_set]; exact l.size }

/-- `checked_add(1)` on `u64`. -/
def checkedSucc (k : Nat) : Option Nat := if k + 1 < 2 ^ 64 then some (k + 1) else none

/-! ## §2. Reading. -/

variable (owner : Owner)

/-- `owner_frames`. -/
def ownerFrames : Nat :=
  l.records.countP (fun r => decide (r.address ≠ 0) && decide (r.owner = owner))

/-- `is_live`. -/
def isLive (grant : Grant) : Bool :=
  match l.records[grant.slot]? with
  | none => false
  | some r => decide (r.address ≠ 0) && decide (r.grant grant.slot = grant)

/-- `find`. -/
def find (address : Nat) (kind : Kind) : Option Grant :=
  match l.records.findIdx? (fun r => decide (r.address = address) && decide (address ≠ 0)
      && decide (r.owner = owner) && decide (r.kind = kind)) with
  | none => none
  | some slot => some ((l.record slot).grant slot)

/-- `can_bind`. -/
def canBind (grant : Grant) (owner : Owner) : Bool :=
  l.isLive grant && decide (grant.owner = owner) && decide (grant.kind = .user)
    && decide ((l.record grant.slot).mappedAt = 0)

/-- `mapping_matches`. -/
def mappingMatches (address virtualAddress : Nat) : Bool :=
  match l.find owner address .user with
  | none => false
  | some grant =>
    decide (virtualAddress ≠ 0) && decide ((l.record grant.slot).mappedAt = virtualAddress)

/-! ## §3. Changing. -/

/-- `new_owner`. -/
def newOwner : Ledger n × Option Owner :=
  match checkedSucc l.nextOwner with
  | none => (l, none)
  | some next => ({ l with nextOwner := next }, some ⟨l.nextOwner⟩)

/-- Does the quota refuse this owner? -/
def overQuota : Prop :=
  owner ≠ .kernel ∧ (userFrameLimit ≤ l.ownerFrames owner
    ∨ n - min kernelFrameReserve (n / 4) ≤ l.live)

instance (l : Ledger n) (owner : Owner) : Decidable (l.overQuota owner) := by
  unfold overQuota
  infer_instance

/-- The record and the counters of a new grant. -/
def issue (slot next : Nat) (record : Record) : Ledger n :=
  { l.put slot record with nextGeneration := next, live := l.live + 1 }

/-- `allocate`. -/
def allocate (kind : Kind) (allocateFrame : σ → σ × Option Nat) (s : σ) :
    Option (Ledger n × σ × Option Grant) :=
  if l.overQuota owner then
    some ({ l with quotaDenials := saturatingSucc l.quotaDenials }, s, none)
  else
    match l.records.findIdx? (fun r => decide (r.address = 0)), checkedSucc l.nextGeneration with
    | some slot, some next =>
      match allocateFrame s with
      | (s', none) => some (l, s', none)
      | (s', some address) =>
        -- the two assertions
        if address ≠ 0 ∧ address % pageSize = 0
            ∧ l.records.any (fun r => decide (r.address = address)) = false then
          let record : Record := ⟨address, l.nextGeneration, owner, 0, kind⟩
          some (l.issue slot next record, s', some (record.grant slot))
        else none
    | _, _ => some ({ l with exhausted := saturatingSucc l.exhausted }, s, none)

/-- The `denied` counter. -/
def deny : Ledger n := { l with denied := saturatingSucc l.denied }

/-- `records[slot].mapped_at = virtual_address`. -/
def setMappedAt (slot virtualAddress : Nat) : Ledger n :=
  l.put slot { l.record slot with mappedAt := virtualAddress }

/-- `bind`. -/
def bind (grant : Grant) (owner : Owner) (virtualAddress : Nat) : Ledger n × Bool :=
  if l.isLive grant = false ∨ grant.owner ≠ owner ∨ grant.kind ≠ .user ∨ virtualAddress = 0
      ∨ virtualAddress % pageSize ≠ 0 ∨ (l.record grant.slot).mappedAt ≠ 0 then (l.deny, false)
  else (l.setMappedAt grant.slot virtualAddress, true)

/-- `retire`. -/
def retire (address virtualAddress : Nat) : Ledger n × Option Grant :=
  match l.find owner address .user with
  | none => (l, none)
  | some grant =>
    if virtualAddress = 0 ∨ (l.record grant.slot).mappedAt ≠ virtualAddress then (l, none)
    else (l.setMappedAt grant.slot 0, some grant)

/-- An emptied slot. -/
def vacate (slot : Nat) : Ledger n :=
  { l.put slot .empty with live := l.live - 1 }

/-- `release`. -/
def release (grant : Grant) (prepareAndFree : Nat → σ → σ × Bool) (s : σ) : Ledger n × σ × Bool :=
  if l.isLive grant = false ∨ (l.record grant.slot).mappedAt ≠ 0 then (l.deny, s, false)
  else
    match prepareAndFree grant.address s with
    | (s', false) => (l, s', false)
    | (s', true) => (l.vacate grant.slot, s', true)

end Ledger

end GenOS.Memory
