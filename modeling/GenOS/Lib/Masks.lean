/-
  GenOS.Lib.Masks — 64-bit words that hold an aligned address and flags.

  A word is an address, with its low bits clear and below `2 ^ 52`, combined
  with flags outside the address field.  The address and each flag can be read
  back independently (`toNat_address`, `has_or`).
-/
import GenOS.Lib.Words

namespace GenOS.Lib

namespace Masks

/-- The bits `low .. 51`. -/
def addressMask (low : Nat) : BitVec 64 := BitVec.ofNat 64 (2 ^ 52 - 2 ^ low)

/-- Is the flag, or any of several flags, set? -/
def has (word flag : BitVec 64) : Bool := decide (word &&& flag ≠ 0#64)

theorem has_eq_false {word flag : BitVec 64} : has word flag = false ↔ word &&& flag = 0#64 := by
  unfold has
  rw [decide_eq_false_iff_not, ne_eq, not_not]

theorem getLsbD_addressMask {low : Nat} (hlow : low ≤ 52) (i : Nat) :
    (addressMask low).getLsbD i = decide (low ≤ i ∧ i < 52) := by
  have hpow : 2 ^ 52 - 2 ^ low = (2 ^ (52 - low) - 1) * 2 ^ low := by
    rw [Nat.sub_mul, ← Nat.pow_add, Nat.one_mul, Nat.sub_add_cancel hlow]
  unfold addressMask
  rw [BitVec.getLsbD_ofNat, hpow, Nat.testBit_mul_two_pow, Nat.testBit_two_pow_sub_one]
  simp only [← Bool.decide_and, decide_eq_decide]
  omega

/-- Masking rounds the address field down. -/
theorem toNat_and_addressMask {low : Nat} (hlow : low ≤ 52) (word : BitVec 64) :
    (word &&& addressMask low).toNat = word.toNat % 2 ^ 52 / 2 ^ low * 2 ^ low := by
  apply Nat.eq_of_testBit_eq
  intro i
  rw [BitVec.testBit_toNat, BitVec.getLsbD_and, getLsbD_addressMask hlow,
    Nat.testBit_mul_two_pow, Nat.testBit_div_two_pow, Nat.testBit_mod_two_pow,
    ← BitVec.testBit_toNat]
  by_cases hi : low ≤ i
  · rw [Nat.sub_add_cancel hi]
    by_cases hhigh : i < 52
    · simp [hi, hhigh]
    · simp [hhigh]
  · simp [hi]

/-- A multiple of `2 ^ low` below `2 ^ 52` has bits in the address field only. -/
theorem ofNat_and_addressMask {low f : Nat} (hlow : low ≤ 52) (haligned : f % 2 ^ low = 0)
    (hbound : f < 2 ^ 52) : BitVec.ofNat 64 f &&& addressMask low = BitVec.ofNat 64 f := by
  apply BitVec.eq_of_toNat_eq
  have hword : f < 2 ^ 64 := Nat.lt_trans hbound (by decide)
  rw [toNat_and_addressMask hlow, BitVec.toNat_ofNat, Nat.mod_eq_of_lt hword,
    Nat.mod_eq_of_lt hbound]
  exact Nat.div_mul_cancel (Nat.dvd_of_mod_eq_zero haligned)

section Combined

variable {low f : Nat} {flags flag : BitVec 64}

variable (hlow : low ≤ 52) (haligned : f % 2 ^ low = 0) (hbound : f < 2 ^ 52)

include hlow haligned hbound

/-- A flag outside the address field is read as it was combined. -/
theorem or_and_flag (hflag : flag &&& addressMask low = 0#64) :
    (BitVec.ofNat 64 f ||| flags) &&& flag = flags &&& flag := by
  have hnone : BitVec.ofNat 64 f &&& flag = 0#64 := by
    rw [← ofNat_and_addressMask hlow haligned hbound, BitVec.and_assoc, BitVec.and_comm _ flag,
      hflag, BitVec.and_zero]
  apply BitVec.eq_of_getLsbD_eq
  intro i _
  have hbit := congrArg (fun w => w.getLsbD i) hnone
  simp only [BitVec.getLsbD_and, BitVec.getLsbD_zero] at hbit
  rw [BitVec.getLsbD_and, BitVec.getLsbD_or, BitVec.getLsbD_and, Bool.and_or_distrib_right, hbit,
    Bool.false_or]

theorem has_or (hflag : flag &&& addressMask low = 0#64) :
    has (BitVec.ofNat 64 f ||| flags) flag = has flags flag := by
  unfold has
  rw [or_and_flag hlow haligned hbound hflag]

/-- The address is read as it was combined. -/
theorem toNat_address (hflags : flags &&& addressMask low = 0#64) :
    ((BitVec.ofNat 64 f ||| flags) &&& addressMask low).toNat = f := by
  have hval : (BitVec.ofNat 64 f ||| flags) &&& addressMask low = BitVec.ofNat 64 f := by
    apply BitVec.eq_of_getLsbD_eq
    intro i _
    have hbit := congrArg (fun w => w.getLsbD i) hflags
    have hframe := congrArg (fun w => w.getLsbD i) (ofNat_and_addressMask hlow haligned hbound)
    simp only [BitVec.getLsbD_and, BitVec.getLsbD_zero] at hbit hframe
    rw [BitVec.getLsbD_and, BitVec.getLsbD_or, Bool.and_or_distrib_right, hbit, Bool.or_false,
      hframe]
  rw [hval, BitVec.toNat_ofNat]
  exact Nat.mod_eq_of_lt (Nat.lt_trans hbound (by decide))

end Combined

end Masks

end GenOS.Lib
