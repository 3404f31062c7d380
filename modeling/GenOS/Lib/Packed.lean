/-
  GenOS.Lib.Packed — words that pack a tag, a middle part and a number.

  The top byte is a tag, the low byte holds a number from one on, and the six
  bytes between them hold whatever distinguishes two words with the same number.
  Each part is read back by its mask.
-/
import Mathlib.Data.BitVec

namespace GenOS.Lib

/-- A word below `2 ^ k` has no bit from `k` on. -/
theorem getLsbD_of_lt_pow {w k j : Nat} {x : BitVec w} (h : x.toNat < 2 ^ k) (hj : k ≤ j) :
    x.getLsbD j = false := by
  rw [← BitVec.testBit_toNat]
  exact Nat.testBit_lt_two_pow (Nat.lt_of_lt_of_le h (Nat.pow_le_pow_right (by decide) hj))

/-- The word with its three parts. -/
def packed (tag middle : BitVec 64) (number : Nat) : BitVec 64 :=
  (tag <<< 56) ||| middle ||| BitVec.ofNat 64 number

/-- The bits of a middle part. -/
def Middle (word : BitVec 64) : Prop :=
  ∀ i, word.getLsbD i = true → 8 ≤ i ∧ i < 56

namespace Packed

theorem middle_or {a b : BitVec 64} (ha : Middle a) (hb : Middle b) : Middle (a ||| b) := by
  intro i hi
  rw [BitVec.getLsbD_or, Bool.or_eq_true] at hi
  rcases hi with hi | hi
  · exact ha i hi
  · exact hb i hi

variable {word : BitVec 64}

/-- A part of `width` bits that starts at bit `low`. -/
theorem middle_shiftLeft {width low : Nat} (h : word.toNat < 2 ^ width) (hlow : 8 ≤ low)
    (hhigh : low + width ≤ 56) : Middle (word <<< low) := by
  intro i hi
  rw [BitVec.getLsbD_shiftLeft] at hi
  simp only [Bool.and_eq_true, Bool.not_eq_true', decide_eq_false_iff_not, decide_eq_true_eq] at hi
  refine ⟨by omega, ?_⟩
  by_contra hge
  rw [getLsbD_of_lt_pow h (by omega)] at hi
  exact Bool.noConfusion hi.2

theorem Middle.low (h : Middle word) {i : Nat} (hi : i < 8) : word.getLsbD i = false := by
  cases hbit : word.getLsbD i with
  | false => rfl
  | true =>
    have := (h i hbit).1
    omega

theorem Middle.high (h : Middle word) {i : Nat} (hi : 56 ≤ i) : word.getLsbD i = false := by
  cases hbit : word.getLsbD i with
  | false => rfl
  | true =>
    have := (h i hbit).2
    omega

theorem getLsbD_topByte (i : Nat) (hi : i < 64) :
    (0xff#64 <<< 56).getLsbD i = decide (56 ≤ i) := by
  have h : ∀ j : Fin 64, (0xff#64 <<< 56).getLsbD j.val = decide (56 ≤ j.val) := by decide
  exact h ⟨i, hi⟩

theorem getLsbD_lowByte (i : Nat) (hi : i < 64) : (0xff#64).getLsbD i = decide (i < 8) := by
  have h : ∀ j : Fin 64, (0xff#64).getLsbD j.val = decide (j.val < 8) := by decide
  exact h ⟨i, hi⟩

variable {middle : BitVec 64} {number : Nat}

theorem number_bit (hnumber : number < 256) {i : Nat} (hi : 8 ≤ i) :
    (BitVec.ofNat 64 number).getLsbD i = false := by
  refine getLsbD_of_lt_pow (k := 8) ?_ hi
  rw [BitVec.toNat_ofNat]
  omega

/-- The tag is read back. -/
theorem tag_packed (tag : BitVec 64) (hmiddle : Middle middle) (hnumber : number < 256) :
    packed tag middle number &&& (0xff#64 <<< 56) = tag <<< 56 := by
  apply BitVec.eq_of_getLsbD_eq
  intro i hi
  rw [BitVec.getLsbD_and, getLsbD_topByte i hi]
  by_cases hlow : i < 56
  · rw [decide_eq_false (by omega), Bool.and_false, BitVec.getLsbD_shiftLeft, decide_eq_true hlow]
    simp
  · unfold packed
    rw [BitVec.getLsbD_or, BitVec.getLsbD_or, Middle.high hmiddle (by omega),
      number_bit hnumber (by omega), decide_eq_true (by omega), Bool.or_false, Bool.or_false,
      Bool.and_true]

/-- The number is read back. -/
theorem number_packed (tag : BitVec 64) (hmiddle : Middle middle) (hnumber : number < 256) :
    (packed tag middle number &&& 0xff#64).toNat = number := by
  have heq : packed tag middle number &&& 0xff#64 = BitVec.ofNat 64 number := by
    apply BitVec.eq_of_getLsbD_eq
    intro i hi
    rw [BitVec.getLsbD_and, getLsbD_lowByte i hi]
    by_cases hlow : i < 8
    · unfold packed
      rw [BitVec.getLsbD_or, BitVec.getLsbD_or, Middle.low hmiddle hlow, BitVec.getLsbD_shiftLeft,
        decide_eq_true hlow, decide_eq_true (show i < 56 by omega)]
      simp
    · rw [decide_eq_false hlow, Bool.and_false, number_bit hnumber (by omega)]
  rw [heq, BitVec.toNat_ofNat]
  omega

/-- Two words are equal only if their middle parts are. -/
theorem middle_eq {tag tag' middle' : BitVec 64} {number' : Nat} (hmiddle : Middle middle)
    (hmiddle' : Middle middle') (hnumber : number < 256) (hnumber' : number' < 256)
    (h : packed tag middle number = packed tag' middle' number') : middle = middle' := by
  apply BitVec.eq_of_getLsbD_eq
  intro i hi
  by_cases hlow : i < 8
  · rw [Middle.low hmiddle hlow, Middle.low hmiddle' hlow]
  by_cases hhigh : 56 ≤ i
  · rw [Middle.high hmiddle hhigh, Middle.high hmiddle' hhigh]
  have hbit := congrArg (fun word => word.getLsbD i) h
  unfold packed at hbit
  simp only [BitVec.getLsbD_or, BitVec.getLsbD_shiftLeft, number_bit hnumber (show 8 ≤ i by omega),
    number_bit hnumber' (show 8 ≤ i by omega), decide_eq_true (show i < 56 by omega)] at hbit
  simpa using hbit

end Packed

end GenOS.Lib
