/-
  GenOS.Paging.Entries — what the entries of user tables look like.

  The operations write two kinds of entries: an edge to a child table and a
  leaf.  Both are an aligned frame below `2 ^ 52` combined with flags, so every
  test the walks make on them is decided by the flags.
-/
import GenOS.Paging.UserSpace

namespace GenOS.Paging

open GenOS.Lib GenOS.Memory
open GenOS.Lib.Masks (has has_eq_false)

theorem tableAddressMask_eq : tableAddressMask = Masks.addressMask 12 := by decide

/-- A frame that fits into the address field of an entry. -/
def FrameOk (f : Nat) : Prop := f % 2 ^ 12 = 0 ∧ f < 2 ^ 52

section Combined

variable {f : Nat} {flags flag : BitVec 64}

theorem has_entry (hf : FrameOk f) (hflag : flag &&& tableAddressMask = 0#64) :
    has (BitVec.ofNat 64 f ||| flags) flag = has flags flag := by
  rw [tableAddressMask_eq] at hflag
  exact Masks.has_or (by decide) hf.1 hf.2 hflag

theorem frameOf_entry (hf : FrameOk f) (hflags : flags &&& tableAddressMask = 0#64) :
    frameOf (BitVec.ofNat 64 f ||| flags) = f := by
  unfold frameOf
  rw [tableAddressMask_eq] at hflags ⊢
  exact Masks.toNat_address (by decide) hf.1 hf.2 hflags

theorem has_zero (flag : BitVec 64) : has 0#64 flag = false := by
  rw [has_eq_false, BitVec.zero_and]

end Combined

/-! ## Edges. -/

/-- The entry that links a child table. -/
def tableEntry (child : Nat) : BitVec 64 :=
  BitVec.ofNat 64 child ||| (present ||| writable ||| user)

section Edges

variable {c c' : Nat} (hc : FrameOk c)

include hc

@[simp] theorem frameOf_tableEntry : frameOf (tableEntry c) = c := frameOf_entry hc (by decide)

@[simp] theorem tableEntry_present : has (tableEntry c) present = true := has_entry hc (by decide)

@[simp] theorem tableEntry_user : has (tableEntry c) user = true := has_entry hc (by decide)

@[simp] theorem tableEntry_writable : has (tableEntry c) writable = true :=
  has_entry hc (by decide)

@[simp] theorem tableEntry_huge : has (tableEntry c) hugeOrPat = false :=
  has_entry hc (by decide)

@[simp] theorem tableEntry_noExecute : has (tableEntry c) noExecute = false :=
  has_entry hc (by decide)

theorem tableEntry_ne_zero : tableEntry c ≠ 0#64 := by
  intro h
  have hp := tableEntry_present hc
  rw [h, has_zero] at hp
  cases hp

end Edges

/-! ## Leaves. -/

/-- The entry of a user page. -/
def leafEntry (f : Nat) (write execute : Bool) : BitVec 64 :=
  BitVec.ofNat 64 f ||| leafFlags write execute

section Leaves

variable {f : Nat} {w x : Bool} (hf : FrameOk f)

theorem leafFlags_address (w x : Bool) : leafFlags w x &&& tableAddressMask = 0#64 := by
  cases w <;> cases x <;> decide

include hf

@[simp] theorem frameOf_leafEntry : frameOf (leafEntry f w x) = f :=
  frameOf_entry hf (leafFlags_address w x)

@[simp] theorem leafEntry_present : has (leafEntry f w x) present = true := by
  rw [leafEntry, has_entry hf (by decide)]
  cases w <;> cases x <;> decide

@[simp] theorem leafEntry_user : has (leafEntry f w x) user = true := by
  rw [leafEntry, has_entry hf (by decide)]
  cases w <;> cases x <;> decide

@[simp] theorem leafEntry_writable : has (leafEntry f w x) writable = w := by
  rw [leafEntry, has_entry hf (by decide)]
  cases w <;> cases x <;> decide

@[simp] theorem leafEntry_noExecute : has (leafEntry f w x) noExecute = !x := by
  rw [leafEntry, has_entry hf (by decide)]
  cases w <;> cases x <;> decide

theorem leafEntry_ne_zero : leafEntry f w x ≠ 0#64 := by
  intro h
  have hp := leafEntry_present (w := w) (x := x) hf
  rw [h, has_zero] at hp
  cases hp

end Leaves

/-! ## Addresses. -/

theorem index_val (address shift : Nat) : (index address shift).val = address / 2 ^ shift % 512 :=
  rfl

end GenOS.Paging
