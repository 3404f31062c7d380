/-
  GenOS.Paging.UserSpace — user address spaces of `paging.rs`.

  A page table is one frame of memory, read as 512 entries; the four levels
  are walked as the source walks them.  TLB maintenance has no effect on the
  state and is left out.  All operations run with interrupts masked, so a run
  is a sequence of operations.

  A failed assertion or `expect` is the outcome `none`.  Virtual addresses are
  natural numbers; the operations that take them check their range.
-/
import GenOS.Lib.Masks
import GenOS.Memory.MemoryState

namespace GenOS.Paging

open GenOS.Lib GenOS.Memory
open GenOS.Lib.Masks (has)

/-! ## §1. Entries. -/

/-- `PRESENT`. -/
def present : BitVec 64 := 1#64 <<< 0

/-- `WRITABLE`. -/
def writable : BitVec 64 := 1#64 <<< 1

/-- `USER`. -/
def user : BitVec 64 := 1#64 <<< 2

/-- `HUGE_OR_PAT`. -/
def hugeOrPat : BitVec 64 := 1#64 <<< 7

/-- `NO_EXECUTE`. -/
def noExecute : BitVec 64 := 1#64 <<< 63

/-- `TABLE_ADDRESS_MASK`. -/
def tableAddressMask : BitVec 64 := 0x000ffffffffff000#64

/-- `USER_BASE`. -/
def userBase : Nat := 0x400000000000

/-- `USER_PML4_INDEX`. -/
def userPml4Index : Fin 512 := ⟨128, by decide⟩

/-- The frame an entry points to. -/
def frameOf (entry : BitVec 64) : Nat := (entry &&& tableAddressMask).toNat

/-- `index`: the slot of an address in the table whose entries map `2 ^ shift`
bytes. -/
def index (address shift : Nat) : Fin 512 :=
  ⟨address / 2 ^ shift % 512, Nat.mod_lt _ (by decide)⟩

/-- The number of bytes an entry of a table of this level maps. -/
def span (level : Nat) : Nat := 2 ^ (12 + 9 * (level - 1))

inductive PagingError where
  | outOfMemory
  | missingMapping
  | invalidAddress
  | addressInUse
  | activeAddressSpace
  deriving DecidableEq, Repr

structure AddressSpace where
  root : Nat
  authority : Grant
  owner : Owner
  deriving DecidableEq, Repr

variable {words n : Nat}

section

variable (m : MemoryState words n)

/-- Overwrite one entry of the table in frame `table`. -/
def writeEntry (table : Nat) (slot : Fin 512) (entry : BitVec 64) : MemoryState words n :=
  { m with
    contents := Function.update m.contents table
      (Function.update (m.contents table) slot entry) }

/-! ## §2. The supervisor alias. -/

/-- The walk of the supervisor tables down to the level-1 table. -/
def aliasTable (m : MemoryState words n) (frame : Nat) : List Nat → Nat → Option Nat
  | [], current => some current
  | shift :: shifts, current =>
    let entry := m.contents current (index frame shift)
    if has entry present = false ∨ has entry (user ||| hugeOrPat) then none
    else aliasTable m frame shifts (frameOf entry)

/-- The table and slot of the supervisor's own mapping of a frame. -/
def aliasSlot (sealedRoot : Option Nat) (frame : Nat) : Option (Nat × Fin 512) :=
  match sealedRoot with
  | none => none
  | some root =>
    match aliasTable m frame [39, 30, 21] root with
    | none => none
    | some table =>
      let entry := m.contents table (index frame 12)
      if has entry present = false ∨ has entry user ∨ has entry noExecute = false
          ∨ frameOf entry ≠ frame then none
      else some (table, index frame 12)

/-- `set_user_alias_writable`; `none` is the error `InvalidAddress`. -/
def setUserAliasWritable (sealedRoot : Option Nat) (frame : Nat) (write : Bool) :
    Option (MemoryState words n) :=
  match aliasSlot m sealedRoot frame with
  | none => none
  | some (table, slot) =>
    let entry := m.contents table slot
    some (writeEntry m table slot (if write then entry ||| writable else entry &&& ~~~writable))

/-! ## §3. Mapping. -/

/-- The check of the child at the end of `ensure_user_table`. -/
def checkChild (owner : Owner) (entry : BitVec 64) : Except PagingError Nat :=
  if (m.grants.find owner (frameOf entry) .table).isNone then .error .invalidAddress
  else .ok (frameOf entry)

/-- `ensure_user_table` on the entry `slot` of `table`. -/
def ensureUserTable (table : Nat) (slot : Fin 512) (owner : Owner) :
    Option (MemoryState words n × Except PagingError Nat) :=
  let entry := m.contents table slot
  if has entry present = false then
    match m.allocFrame owner .table with
    | none => none
    | some (m', none) => some (m', .error .outOfMemory)
    | some (m', some grant) =>
      let entry := BitVec.ofNat 64 grant.address ||| (present ||| writable ||| user)
      let m'' := writeEntry m' table slot entry
      some (m'', checkChild m'' owner entry)
  else if has entry hugeOrPat ∨ has entry user = false ∨ has entry writable = false
      ∨ has entry noExecute then some (m, .error .addressInUse)
  else some (m, checkChild m owner entry)

end

/-- The parent edge of a table made by the running operation. -/
structure Edge where
  table : Nat
  slot : Fin 512
  child : Nat

/-- The walk of `map_user_page_inner`.  Every new edge is recorded, the last
one first. -/
def descend (owner : Owner) (virtualAddress : Nat) :
    List Nat → Nat → List Edge → MemoryState words n →
      Option (MemoryState words n × List Edge × Except PagingError Nat)
  | [], current, created, m => some (m, created, .ok current)
  | shift :: shifts, current, created, m =>
    let slot := index virtualAddress shift
    let empty := has (m.contents current slot) present = false
    match ensureUserTable m current slot owner with
    | none => none
    | some (m', .error e) => some (m', created, .error e)
    | some (m', .ok child) =>
      descend owner virtualAddress shifts child
        (if empty then ⟨current, slot, child⟩ :: created else created) m'

/-- `release_owned_table`. -/
def releaseOwnedTable (m : MemoryState words n) (owner : Owner) (frame : Nat) :
    MemoryState words n × Bool :=
  match m.grants.find owner frame .table with
  | none => (m, false)
  | some grant => m.freeFrame grant

/-- The loop that takes the new edges back. -/
def rollback (owner : Owner) : List Edge → MemoryState words n → Option (MemoryState words n)
  | [], m => some m
  | edge :: edges, m =>
    match releaseOwnedTable (writeEntry m edge.table edge.slot 0#64) owner edge.child with
    | (_, false) => none
    | (m', true) => rollback owner edges m'

/-- The machine: memory, the roots the CPU record knows, and whether the CPU
enforces no-execute. -/
structure Machine (words n : Nat) where
  memory : MemoryState words n
  sealedRoot : Option Nat
  activeRoot : Nat
  nxEnabled : Bool

/-- The flags of a user leaf. -/
def leafFlags (write execute : Bool) : BitVec 64 :=
  (present ||| user) ||| (if write then writable else 0#64)
    ||| (if execute then 0#64 else noExecute)

/-- The end of the transaction: seal the alias, pin the frame, publish the leaf. -/
def publishLeaf (m : MemoryState words n) (sealedRoot : Option Nat) (table : Nat)
    (space : AddressSpace) (virtualAddress : Nat) (grant : Grant) (write execute : Bool) :
    Option (MemoryState words n × Except PagingError Unit) :=
  let slot := index virtualAddress 12
  if has (m.contents table slot) present then some (m, .error .addressInUse)
  else
    match setUserAliasWritable m sealedRoot grant.address write with
    | none => some (m, .error .invalidAddress)
    | some m₁ =>
      match m₁.pinMapping grant space.owner virtualAddress with
      | (_, false) => none
      | (m₂, true) =>
        some (writeEntry m₂ table slot
          (BitVec.ofNat 64 grant.address ||| leafFlags write execute), .ok ())

/-- The closure of `map_user_page_inner`, with the edges it made. -/
def mapTransaction (m : MemoryState words n) (sealedRoot : Option Nat) (space : AddressSpace)
    (virtualAddress : Nat) (grant : Grant) (write execute : Bool) :
    Option (MemoryState words n × List Edge × Except PagingError Unit) :=
  match descend space.owner virtualAddress [39, 30, 21] space.root [] m with
  | none => none
  | some (m', created, .error e) => some (m', created, .error e)
  | some (m', created, .ok table) =>
    match publishLeaf m' sealedRoot table space virtualAddress grant write execute with
    | none => none
    | some (m'', result) => some (m'', created, result)

/-- The arguments `map_user_page_inner` refuses. -/
def badMapping (virtualAddress physicalAddress : Nat) (write execute : Bool) : Prop :=
  virtualAddress % pageSize ≠ 0 ∨ physicalAddress % pageSize ≠ 0 ∨ physicalAddress = 0
    ∨ BitVec.ofNat 64 physicalAddress &&& ~~~tableAddressMask ≠ 0#64
    ∨ (write = true ∧ execute = true)
    ∨ ¬ (userBase ≤ virtualAddress ∧ virtualAddress < userBase + 2 ^ 39)

instance (v p : Nat) (write execute : Bool) : Decidable (badMapping v p write execute) := by
  unfold badMapping
  infer_instance

variable (c : Machine words n) (space : AddressSpace)

/-- `map_user_page`. -/
def mapUserPage (virtualAddress : Nat) (grant : Grant) (write execute : Bool) :
    Option (Machine words n × Except PagingError Unit) :=
  if c.activeRoot = space.root then some (c, .error .activeAddressSpace)
  else if c.memory.grants.isLive space.authority = false
      ∨ c.memory.grants.canBind grant space.owner = false then some (c, .error .invalidAddress)
  else if badMapping virtualAddress grant.address write execute then
    some (c, .error .invalidAddress)
  else if execute = false ∧ c.nxEnabled = false then some (c, .error .invalidAddress)
  else
    match mapTransaction c.memory c.sealedRoot space virtualAddress grant write execute with
    | none => none
    | some (m, _, .ok ()) => some ({ c with memory := m }, .ok ())
    | some (m, created, .error e) =>
      match rollback space.owner created m with
      | none => none
      | some m' => some ({ c with memory := m' }, .error e)

/-! ## §4. Creating. -/

/-- `create_user_address_space`. -/
def createUserAddressSpace : Option (Machine words n × Except PagingError AddressSpace) :=
  match c.sealedRoot with
  | none => some (c, .error .missingMapping)
  | some kernelRoot =>
    match c.memory.newOwner with
    | (m, none) => some ({ c with memory := m }, .error .outOfMemory)
    | (m, some owner) =>
      match m.allocFrame owner .table with
      | none => none
      | some (m', none) => some ({ c with memory := m' }, .error .outOfMemory)
      | some (m', some authority) =>
        let root := authority.address
        let page := m'.contents kernelRoot
        let m'' := { m' with contents := Function.update m'.contents root page }
        if has (page userPml4Index) present then
          match m''.freeFrame authority with
          | (_, false) => none
          | (freed, true) => some ({ c with memory := freed }, .error .addressInUse)
        else some ({ c with memory := m'' }, .ok ⟨root, authority, owner⟩)

/-- `allocate_zeroed_frame`. -/
def allocateZeroedFrame : Option (Machine words n × Except PagingError Grant) :=
  if c.memory.grants.isLive space.authority = false then some (c, .error .invalidAddress)
  else
    match c.memory.allocFrame space.owner .user with
    | none => none
    | some (m, none) => some ({ c with memory := m }, .error .outOfMemory)
    | some (m, some grant) => some ({ c with memory := m }, .ok grant)

/-! ## §5. Destroying. -/

/-- `validate_user_table`: the number of frames of a valid subtree. -/
def validateUserTable (m : MemoryState words n) (owner : Owner) :
    Nat → Nat → Nat → Except PagingError Nat
  | 0, _, _ => .error .invalidAddress
  | level + 1, physical, base =>
    if (m.grants.find owner physical .table).isNone then .error .invalidAddress
    else
      (List.finRange 512).foldlM (fun frames slot =>
        let entry := m.contents physical slot
        if has entry present = false then .ok frames
        else if has entry user = false ∨ (level ≠ 0 ∧ has entry hugeOrPat) then
          .error .invalidAddress
        else
          let frame := frameOf entry
          let address := base + slot * span (level + 1)
          if level = 0 then
            if m.grants.mappingMatches owner frame address then .ok (frames + 1)
            else .error .invalidAddress
          else
            match validateUserTable m owner level frame address with
            | .error e => .error e
            | .ok k => .ok (frames + k)) 1

/-- The release of one leaf whose entry was cleared. -/
def releaseLeaf (m : MemoryState words n) (sealedRoot : Option Nat) (owner : Owner)
    (frame address : Nat) : Option (MemoryState words n) :=
  match setUserAliasWritable m sealedRoot frame true with
  | none => none
  | some m₁ =>
    match m₁.retireMapping owner frame address with
    | (_, none) => none
    | (m₂, some grant) =>
      match m₂.freeFrame grant with
      | (_, false) => none
      | (m₃, true) => some m₃

/-- `release_user_table`: the number of frames released below a table. -/
def releaseUserTable (sealedRoot : Option Nat) (owner : Owner) :
    Nat → Nat → Nat → MemoryState words n → Option (MemoryState words n × Nat)
  | 0, _, _, m => some (m, 0)
  | level + 1, physical, base, m =>
    (List.finRange 512).foldlM (fun (m, released) slot =>
      let entry := m.contents physical slot
      if has entry present = false then some (m, released)
      else
        let frame := frameOf entry
        let address := base + slot * span (level + 1)
        let m₁ := writeEntry m physical slot 0#64
        if level = 0 then
          match releaseLeaf m₁ sealedRoot owner frame address with
          | none => none
          | some m₂ => some (m₂, released + 1)
        else
          match releaseUserTable sealedRoot owner level frame address m₁ with
          | none => none
          | some (m₂, k) =>
            match releaseOwnedTable m₂ owner frame with
            | (_, false) => none
            | (m₃, true) => some (m₃, released + k + 1)) (m, 0)

/-- The end of `destroy_user_address_space`: the root frame itself. -/
def releaseRoot (m : MemoryState words n) (released : Nat) :
    Option (Machine words n × Except PagingError Nat) :=
  match m.freeFrame space.authority with
  | (_, false) => none
  | (m', true) =>
    if m'.grants.ownerFrames space.owner = 0 then
      some ({ c with memory := m' }, .ok (released + 1))
    else none

/-- `destroy_user_address_space`. -/
def destroyUserAddressSpace : Option (Machine words n × Except PagingError Nat) :=
  let m := c.memory
  if m.grants.isLive space.authority = false then some (c, .error .invalidAddress)
  else if c.activeRoot = space.root then some (c, .error .activeAddressSpace)
  else
    let entry := m.contents space.root userPml4Index
    if has entry present then
      if has entry hugeOrPat ∨ has entry user = false then some (c, .error .invalidAddress)
      else
        let userRoot := frameOf entry
        match validateUserTable m space.owner 3 userRoot userBase with
        | .error e => some (c, .error e)
        | .ok treeFrames =>
          if m.grants.ownerFrames space.owner ≠ treeFrames + 1 then
            some (c, .error .invalidAddress)
          else
            let m₁ := writeEntry m space.root userPml4Index 0#64
            match releaseUserTable c.sealedRoot space.owner 3 userRoot userBase m₁ with
            | none => none
            | some (m₂, released) =>
              match releaseOwnedTable m₂ space.owner userRoot with
              | (_, false) => none
              | (m₃, true) => releaseRoot c space m₃ (released + 1)
    else if m.grants.ownerFrames space.owner ≠ 1 then some (c, .error .invalidAddress)
    else releaseRoot c space m 0

end GenOS.Paging
