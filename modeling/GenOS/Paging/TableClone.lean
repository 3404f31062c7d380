/-
  GenOS.Paging.TableClone — cloning supervisor page tables.

  Translates `page_table.rs`: `clone_supervisor` copies a tree of tables with the
  user bit cleared and gives every table it allocated back when an allocation
  fails; `release_clone` gives back a whole clone.  Both are generic over the
  trait `TableMemory`, whose documented obligations are `Contract`: the live
  tables with their contents and the tables that were allocated from it.
-/
import GenOS.Lib.Masks
import Mathlib.Data.List.FinRange
import Mathlib.Data.Set.BooleanAlgebra
import Mathlib.Data.Set.Insert
import Mathlib.Order.CompletePartialOrder
import Mathlib.Logic.Function.Basic

namespace GenOS.PageTable

open GenOS.Lib.Masks (has has_eq_false)

/-! ## §1. Entries. -/

/-- `PRESENT`. -/
def present : BitVec 64 := 1

/-- `USER`. -/
def user : BitVec 64 := 4

/-- `HUGE`. -/
def huge : BitVec 64 := 128

/-- `ADDRESS_MASK`. -/
def addressMask : BitVec 64 := 0x000ffffffffff000

/-- A table of 512 entries. -/
abbrev Table := Fin 512 → BitVec 64

/-- The slots in the order of the loops. -/
@[irreducible] def allSlots : List (Fin 512) := List.finRange 512

theorem mem_allSlots (slot : Fin 512) : slot ∈ allSlots := by
  unfold allSlots
  exact List.mem_finRange slot

theorem nodup_allSlots : allSlots.Nodup := by
  unfold allSlots
  exact List.nodup_finRange 512

/-- The entry maps memory itself at this level. -/
def isLeaf (level : Nat) (entry : BitVec 64) : Bool :=
  level == 1 || (decide (level ≤ 3) && has entry huge)

/-! ## §2. The memory of tables. -/

/-- `TableMemory`, as operations on a state. -/
structure TableMemory (σ : Type) where
  allocate : σ → Option (BitVec 64) × σ
  read : σ → BitVec 64 → Fin 512 → BitVec 64
  write : σ → BitVec 64 → Fin 512 → BitVec 64 → σ
  release : σ → BitVec 64 → σ

/-- What an implementation promises: an allocation fails without a change or
supplies a zeroed table that was not live; reads and writes of a live table are
those of an array; a table that was allocated can be released. -/
structure Contract {σ : Type} (m : TableMemory σ) where
  /-- The live tables. -/
  tables : σ → BitVec 64 → Option Table
  /-- The tables allocated from this instance. -/
  owned : σ → Set (BitVec 64)
  ownedLive : ∀ s t, t ∈ owned s → tables s t ≠ none
  allocateSome : ∀ s s' t, m.allocate s = (some t, s') → tables s t = none
    ∧ t &&& addressMask = t ∧ tables s' = Function.update (tables s) t (some fun _ => 0)
    ∧ owned s' = insert t (owned s)
  allocateNone : ∀ s s', m.allocate s = (none, s') → tables s' = tables s ∧ owned s' = owned s
  read : ∀ s t table slot, tables s t = some table → m.read s t slot = table slot
  write : ∀ s t table slot entry, tables s t = some table →
    tables (m.write s t slot entry)
        = Function.update (tables s) t (some (Function.update table slot entry))
      ∧ owned (m.write s t slot entry) = owned s
  release : ∀ s t, t ∈ owned s →
    tables (m.release s t) = Function.update (tables s) t none
      ∧ owned (m.release s t) = owned s \ {t}

/-! ## §3. Releasing and cloning. -/

section Functions

variable {σ : Type} (m : TableMemory σ)

/-- The loop of `release_clone`. -/
def releaseSlots (level : Nat) (releaseChild : BitVec 64 → σ → σ) (root : BitVec 64) :
    List (Fin 512) → σ → σ
  | [], s => s
  | slot :: slots, s =>
    let entry := m.read s root slot
    if has entry present && !(decide (level ≤ 3) && has entry huge) then
      releaseSlots level releaseChild root slots (releaseChild (entry &&& addressMask) s)
    else releaseSlots level releaseChild root slots s

/-- `release_clone`. -/
def releaseClone : Nat → BitVec 64 → σ → σ
  | 0, root, s => m.release s root
  | 1, root, s => m.release s root
  | level + 2, root, s =>
    m.release (releaseSlots m (level + 2) (releaseClone (level + 1)) root allSlots s) root

/-- The loop of `clone_supervisor`; `false` when a child could not be cloned. -/
def cloneSlots (level : Nat) (cloneChild : BitVec 64 → σ → Option (BitVec 64) × σ)
    (source destination : BitVec 64) : List (Fin 512) → σ → Bool × σ
  | [], s => (true, s)
  | slot :: slots, s =>
    let entry := m.read s source slot
    if has entry present = false then cloneSlots level cloneChild source destination slots s
    else if isLeaf level entry then
      cloneSlots level cloneChild source destination slots
        (m.write s destination slot (entry &&& ~~~user))
    else
      match cloneChild (entry &&& addressMask) s with
      | (none, s) => (false, s)
      | (some child, s) =>
        cloneSlots level cloneChild source destination slots
          (m.write s destination slot (child ||| (entry &&& ~~~addressMask &&& ~~~user)))

/-- The body of `clone_supervisor`, with the recursive call as an argument. -/
def cloneTable (level : Nat) (cloneChild : BitVec 64 → σ → Option (BitVec 64) × σ)
    (source : BitVec 64) (s : σ) : Option (BitVec 64) × σ :=
  if level < 1 ∨ 4 < level then (none, s)
  else
    match m.allocate s with
    | (none, s) => (none, s)
    | (some destination, s) =>
      match cloneSlots m level cloneChild source destination allSlots s with
      | (true, s) => (some destination, s)
      | (false, s) => (none, releaseClone m level destination s)

/-- `clone_supervisor`; at level 0 the recursive call is not reached. -/
def cloneSupervisor : Nat → BitVec 64 → σ → Option (BitVec 64) × σ
  | 0 => cloneTable m 0 fun _ s => (none, s)
  | level + 1 => cloneTable m (level + 1) (cloneSupervisor level)

end Functions

/-! ## §4. What a tree means. -/

/-- The entries that map an address: the flags of the tables on the way and the
entry of the memory itself, with its level. -/
structure Translation where
  path : List (BitVec 64)
  leaf : BitVec 64
  level : Nat

/-- The slot of an address in a table of this level. -/
def slotOf (address : BitVec 64) (level : Nat) : Fin 512 :=
  ⟨address.toNat / 2 ^ (12 + 9 * (level - 1)) % 512, Nat.mod_lt _ (by decide)⟩

/-- The translation through one entry; `below` translates through a child. -/
def translateEntry (below : BitVec 64 → Option Translation) (level : Nat) (entry : BitVec 64) :
    Option Translation :=
  if has entry present = false then none
  else if isLeaf level entry then some ⟨[], entry, level⟩
  else
    (below (entry &&& addressMask)).map fun t =>
      { t with path := (entry &&& ~~~addressMask) :: t.path }

/-- The walk of an address through the tables. -/
def translate (tables : BitVec 64 → Option Table) (address : BitVec 64) :
    Nat → BitVec 64 → Option Translation
  | 0, _ => none
  | level + 1, root => (tables root).bind fun table =>
    translateEntry (translate tables address level) (level + 1) (table (slotOf address (level + 1)))

/-- The physical address. -/
def Translation.physical (t : Translation) (address : BitVec 64) : Nat :=
  let size := 2 ^ (12 + 9 * (t.level - 1))
  (t.leaf &&& addressMask).toNat / size * size + address.toNat % size

/-- The same translation without the user bit, at every level. -/
def Translation.supervisor (t : Translation) : Translation :=
  ⟨t.path.map (· &&& ~~~user), t.leaf &&& ~~~user, t.level⟩

/-- The tables of a tree. -/
def tablesOf (tables : BitVec 64 → Option Table) : Nat → BitVec 64 → Set (BitVec 64)
  | 0, _ => ∅
  | level + 1, root => { t | t = root ∨ ∃ table slot, tables root = some table
      ∧ has (table slot) present = true ∧ isLeaf (level + 1) (table slot) = false
      ∧ t ∈ tablesOf tables level (table slot &&& addressMask) }

/-- A tree whose tables are live, without huge entries at level 4. -/
def ValidTree (tables : BitVec 64 → Option Table) : Nat → BitVec 64 → Prop
  | 0, _ => False
  | level + 1, root => ∃ table, tables root = some table ∧ ∀ slot,
      has (table slot) present = true →
        (level + 1 = 4 → has (table slot) huge = false)
          ∧ (isLeaf (level + 1) (table slot) = false →
            ValidTree tables level (table slot &&& addressMask))

end GenOS.PageTable
