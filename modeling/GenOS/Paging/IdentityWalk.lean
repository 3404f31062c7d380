/-
  GenOS.Paging.IdentityWalk — the check of the loader's identity map.

  `identity_mappings` walks a graph of tables to a depth of four and accepts it if
  every entry it meets is harmless (`Harmless`): no huge bit at level 4, below the
  user base, and leaves that map their own address.  The graph may share tables or
  be cyclic; `Meets` are the entries that the walk reaches in it.  An address that
  the processor translates through an accepted graph is mapped to itself.
-/
import GenOS.Paging.TableClone
import Mathlib.Tactic.Ring

namespace GenOS.PageTable

open GenOS.Lib.Masks (has)

/-! ## §1. The walk. -/

/-- `USER_BASE`. -/
def userBase : Nat := 2 ^ 46

/-- `12 + 9 * (level - 1)`. -/
def shift (level : Nat) : Nat := 12 + 9 * (level - 1)

/-- `ADDRESS_MASK & !((1 << shift) - 1)`. -/
def leafMask (level : Nat) : BitVec 64 := addressMask &&& ~~~(((1 : BitVec 64) <<< shift level) - 1)

/-- The address an entry starts at. -/
def entryAddress (level base : Nat) (slot : Fin 512) : Nat := base + slot.val <<< shift level

section Walk

variable (read : BitVec 64 → Fin 512 → BitVec 64)

/-- The body of the loop; `walkChild` is the recursive call. -/
def identityEntry (level : Nat) (walkChild : BitVec 64 → Nat → Bool) (entry : BitVec 64)
    (address : Nat) : Bool :=
  if has entry present = false then true
  else if userBase ≤ address ∨ (level = 4 ∧ has entry huge = true) then false
  else if level = 1 ∨ has entry huge = true then (entry &&& leafMask level).toNat == address
  else walkChild (entry &&& addressMask) address

/-- `walk`; level 0 is not reached. -/
def identityWalk : Nat → BitVec 64 → Nat → Bool
  | 0, _, _ => true
  | level + 1, table, base =>
    allSlots.all fun slot =>
      identityEntry (level + 1) (identityWalk level) (read table slot)
        (entryAddress (level + 1) base slot)

/-- The present entries the walk meets from a table on: level, entry and address. -/
inductive Meets : Nat → BitVec 64 → Nat → Nat → BitVec 64 → Nat → Prop
  | here {level base : Nat} {table : BitVec 64} (slot : Fin 512)
      (hpresent : has (read table slot) present = true) :
      Meets (level + 1) table base (level + 1) (read table slot)
        (entryAddress (level + 1) base slot)
  | child {level base level' address' : Nat} {table entry' : BitVec 64} (slot : Fin 512)
      (hpresent : has (read table slot) present = true)
      (hnode : level ≠ 0 ∧ has (read table slot) huge = false)
      (hchild : Meets level (read table slot &&& addressMask) (entryAddress (level + 1) base slot)
        level' entry' address') :
      Meets (level + 1) table base level' entry' address'

end Walk

/-- `identity_mappings`. -/
def identityMappings {σ : Type} (m : TableMemory σ) (s : σ) (root : BitVec 64) : Bool :=
  identityWalk (m.read s) 4 root 0

/-! ## §2. Soundness and completeness. -/

/-- The entry does not stand in the way of an identity map. -/
structure Harmless (level : Nat) (entry : BitVec 64) (address : Nat) : Prop where
  node : ¬ (level = 4 ∧ has entry huge = true)
  low : address < userBase
  leaf : isLeaf level entry = true → (entry &&& leafMask level).toNat = address

variable (read : BitVec 64 → Fin 512 → BitVec 64)

variable {level : Nat}

/-- What one round of the loop decides. -/
theorem identityEntry_iff (hlevel : level ≤ 4) (walkChild : BitVec 64 → Nat → Bool)
    (entry : BitVec 64) (address : Nat) :
    identityEntry level walkChild entry address = true
      ↔ (has entry present = true → Harmless level entry address
        ∧ (level ≠ 1 ∧ has entry huge = false →
          walkChild (entry &&& addressMask) address = true)) := by
  unfold identityEntry
  by_cases hpresent : has entry present = false
  · simp [hpresent]
  rw [if_neg hpresent]
  have hthere : has entry present = true := by simpa using hpresent
  by_cases hbad : userBase ≤ address ∨ (level = 4 ∧ has entry huge = true)
  · rw [if_pos hbad]
    constructor
    · intro h
      cases h
    · intro h
      obtain ⟨hharmless, -⟩ := h hthere
      rcases hbad with hhigh | hnode
      · exact absurd hharmless.low (Nat.not_lt.mpr hhigh)
      · exact absurd hnode hharmless.node
  rw [if_neg hbad]
  obtain ⟨hlow, hnode⟩ := not_or.mp hbad
  by_cases hleaf : level = 1 ∨ has entry huge = true
  · have hisLeaf : isLeaf level entry = true := by
      simp only [isLeaf, Bool.or_eq_true, Bool.and_eq_true, beq_iff_eq, decide_eq_true_eq]
      rcases hleaf with h | h
      · exact .inl h
      · exact .inr ⟨Nat.le_of_lt_succ (Nat.lt_of_le_of_ne hlevel fun h4 => hnode ⟨h4, h⟩), h⟩
    rw [if_pos hleaf, beq_iff_eq]
    constructor
    · intro h _
      refine ⟨⟨hnode, Nat.lt_of_not_le hlow, fun _ => h⟩, fun hn => ?_⟩
      rcases hleaf with h1 | h1
      · exact absurd h1 hn.1
      · rw [hn.2] at h1
        cases h1
    · intro h
      exact (h hthere).1.leaf hisLeaf
  · rw [if_neg hleaf]
    obtain ⟨hone, hhuge⟩ := not_or.mp hleaf
    have hsmall : has entry huge = false := by simpa using hhuge
    constructor
    · intro h _
      refine ⟨⟨hnode, Nat.lt_of_not_le hlow, fun hl => ?_⟩, fun _ => h⟩
      simp [isLeaf, hone, hsmall] at hl
    · intro h
      exact (h hthere).2 ⟨hone, hsmall⟩

/-- **The walk accepts exactly if all it meets is harmless.** -/
theorem identityWalk_iff (hlevel : level ≤ 4) :
    ∀ (table : BitVec 64) (base : Nat), identityWalk read level table base = true
      ↔ ∀ level' entry address, Meets read level table base level' entry address →
        Harmless level' entry address := by
  induction level with
  | zero =>
    intro table base
    refine iff_of_true rfl ?_
    intro level' entry address hmeets
    cases hmeets
  | succ level ih =>
    intro table base
    have hchild := ih (Nat.le_of_succ_le hlevel)
    simp only [identityWalk, List.all_eq_true, identityEntry_iff hlevel]
    constructor
    · intro hall level' entry address hmeets
      cases hmeets with
      | here slot hpresent => exact (hall slot (mem_allSlots slot) hpresent).1
      | child slot hpresent hnode hbelow =>
        have hwalk := (hall slot (mem_allSlots slot) hpresent).2
          ⟨fun h => hnode.1 (Nat.succ.inj h), hnode.2⟩
        exact (hchild _ _).mp hwalk level' entry address hbelow
    · intro hall slot _ hpresent
      refine ⟨hall _ _ _ (.here slot hpresent), ?_⟩
      intro hnode
      refine (hchild _ _).mpr fun level' entry address hbelow => ?_
      refine hall _ _ _ (.child slot hpresent ⟨?_, hnode.2⟩ hbelow)
      intro hzero
      exact hnode.1 (congrArg Nat.succ hzero)

/-! ## §3. Translation. -/

theorem shift_succ (level : Nat) : shift (level + 2) = shift (level + 1) + 9 := by
  unfold shift
  omega

/-- The entry that translates an address starts at the address rounded down. -/
theorem entryAddress_slotOf (level : Nat) (va : BitVec 64) :
    entryAddress (level + 1) (va.toNat / 2 ^ shift (level + 2) * 2 ^ shift (level + 2))
        (slotOf va (level + 1))
      = va.toNat / 2 ^ shift (level + 1) * 2 ^ shift (level + 1) := by
  have hslot : (slotOf va (level + 1)).val = va.toNat / 2 ^ shift (level + 1) % 2 ^ 9 := rfl
  unfold entryAddress
  rw [Nat.shiftLeft_eq, hslot, shift_succ, pow_add, ← Nat.div_div_eq_div_mul]
  have hsplit := Nat.div_add_mod (va.toNat / 2 ^ shift (level + 1)) (2 ^ 9)
  generalize va.toNat / 2 ^ shift (level + 1) = q at hsplit ⊢
  nth_rewrite 3 [← hsplit]
  ring

/-- The mask of a leaf cuts the address off at the size of the leaf. -/
theorem toNat_leafMask (hlevel : level < 4) (entry : BitVec 64) :
    (entry &&& leafMask (level + 1)).toNat
      = (entry &&& addressMask).toNat / 2 ^ shift (level + 1) * 2 ^ shift (level + 1) := by
  have hmask : leafMask (level + 1) = Lib.Masks.addressMask (shift (level + 1)) := by
    revert hlevel
    revert level
    decide
  have hframe : addressMask = Lib.Masks.addressMask 12 := by decide
  have hshift : shift (level + 1) = 12 + 9 * level := rfl
  rw [hmask, hframe, Lib.Masks.toNat_and_addressMask (by omega),
    Lib.Masks.toNat_and_addressMask (by decide), hshift, pow_add, ← Nat.div_div_eq_div_mul,
    ← Nat.div_div_eq_div_mul, Nat.mul_div_cancel _ (by decide)]

/-- A harmless leaf maps each of its addresses to itself. -/
theorem Harmless.physical (hlevel : level < 4) {entry va : BitVec 64}
    (h : Harmless (level + 1) entry
      (va.toNat / 2 ^ shift (level + 1) * 2 ^ shift (level + 1)))
    (hleaf : isLeaf (level + 1) entry = true) (path : List (BitVec 64)) :
    (Translation.mk path entry (level + 1)).physical va = va.toNat ∧ va.toNat < userBase := by
  have hsame := h.leaf hleaf
  rw [toNat_leafMask hlevel] at hsame
  constructor
  · have hphysical : (Translation.mk path entry (level + 1)).physical va
        = (entry &&& addressMask).toNat / 2 ^ shift (level + 1) * 2 ^ shift (level + 1)
          + va.toNat % 2 ^ shift (level + 1) := rfl
    rw [hphysical, hsame, Nat.div_add_mod']
  · -- The user base is a multiple of the size of a leaf.
    have hbase : userBase = 2 ^ (46 - shift (level + 1)) * 2 ^ shift (level + 1) := by
      rw [← pow_add]
      unfold userBase shift
      congr 1
      omega
    have hlow := h.low
    rw [hbase] at hlow ⊢
    have hpos : 0 < 2 ^ shift (level + 1) := Nat.two_pow_pos _
    exact (Nat.div_lt_iff_lt_mul hpos).mp (Nat.lt_of_mul_lt_mul_right hlow)

/-- A harmless entry that is no leaf points to a table. -/
theorem Harmless.points (hlevel : level < 4) {entry : BitVec 64} {address : Nat}
    (h : Harmless (level + 1) entry address) (hnode : ¬ isLeaf (level + 1) entry = true) :
    level ≠ 0 ∧ has entry huge = false := by
  simp only [isLeaf, Bool.or_eq_true, Bool.and_eq_true, beq_iff_eq, decide_eq_true_eq,
    not_or, not_and, Bool.not_eq_true] at hnode
  refine ⟨fun hzero => hnode.1 (congrArg Nat.succ hzero), ?_⟩
  by_cases hthree : level + 1 ≤ 3
  · exact hnode.2 hthree
  · have hfour : level + 1 = 4 := by omega
    exact Bool.eq_false_iff.mpr fun hhuge => h.node ⟨hfour, hhuge⟩

/-- **Where all entries are harmless, what is translated is identity mapped.** -/
theorem translate_identity (va : BitVec 64) (hlevel : level ≤ 4) :
    ∀ table : BitVec 64,
      (∀ level' entry address, Meets read level table
        (va.toNat / 2 ^ shift (level + 1) * 2 ^ shift (level + 1)) level' entry address →
        Harmless level' entry address) →
      ∀ t, translate (fun table => some (read table)) va level table = some t →
        t.physical va = va.toNat ∧ va.toNat < userBase := by
  induction level with
  | zero =>
    intro table hall t ht
    cases ht
  | succ level ih =>
    intro table hall t ht
    rw [translate, Option.bind_some, translateEntry] at ht
    split at ht
    · cases ht
    rename_i hpresent
    have hthere : has (read table (slotOf va (level + 1))) present = true := by
      simpa using hpresent
    have hharmless := hall _ _ _ (.here (slotOf va (level + 1)) hthere)
    rw [entryAddress_slotOf] at hharmless
    split at ht
    · rename_i hleaf
      cases ht
      exact hharmless.physical hlevel hleaf _
    · rename_i hnode
      obtain ⟨t', ht', rfl⟩ := Option.map_eq_some_iff.mp ht
      refine ih (Nat.le_of_succ_le hlevel) _ ?_ t' ht'
      intro level' entry address hmeets
      refine hall _ _ _ (.child (slotOf va (level + 1)) hthere (hharmless.points hlevel hnode) ?_)
      rw [entryAddress_slotOf]
      exact hmeets

/-- **The identity check is sound and complete.** -/
theorem identity_mappings_exact {σ : Type} (m : TableMemory σ) (s : σ) (root : BitVec 64) :
    (identityMappings m s root = true
      ↔ ∀ level entry address, Meets (m.read s) 4 root 0 level entry address →
        Harmless level entry address)
    ∧ (identityMappings m s root = true → ∀ va : BitVec 64, va.toNat < 2 ^ 48 → ∀ t,
      translate (fun table => some (m.read s table)) va 4 root = some t →
        t.physical va = va.toNat ∧ va.toNat < userBase) := by
  have hwalk := identityWalk_iff (m.read s) (Nat.le_refl 4) root 0
  refine ⟨hwalk, fun haccepted va hva t ht => ?_⟩
  refine translate_identity (m.read s) va (Nat.le_refl 4) root ?_ t ht
  have hbase : va.toNat / 2 ^ shift 5 * 2 ^ shift 5 = 0 := by
    rw [Nat.div_eq_of_lt (Nat.lt_of_lt_of_le hva (by decide)), Nat.zero_mul]
  rw [hbase]
  exact hwalk.mp haccepted

end GenOS.PageTable
