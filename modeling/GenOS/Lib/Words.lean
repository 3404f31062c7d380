/-
  GenOS.Lib.Words — a set of numbers kept as bits of 64-bit words.

  Bit `i` is bit `i % 64` of word `i / 64`.  Setting or clearing a bit changes
  this one bit (`testBit_set`, `testBit_clear`), and the lowest set bit of a
  masked word is the least member of the window it stands for.
-/
import Mathlib.Algebra.GroupWithZero.Nat
import Mathlib.Logic.Function.Basic
import Mathlib.Tactic.Common

namespace GenOS.Lib

open List Function

/-- The words of a bitmap. -/
abbrev Words := Nat → BitVec 64

namespace Words

variable (w : Words)

/-- Is bit `i` set? -/
def testBit (i : Nat) : Bool := (w (i / 64)).getLsbD (i % 64)

/-- `words[word] |= 1 << bit`. -/
def setBit (word bit : Nat) : Words := Function.update w word (w word ||| 1#64 <<< bit)

/-- `words[word] &= !(1 << bit)`. -/
def clearBit (word bit : Nat) : Words := Function.update w word (w word &&& ~~~(1#64 <<< bit))

/-- The word with the lowest `n` bits set. -/
def lowMask (n : Nat) : BitVec 64 := if n = 64 then BitVec.allOnes 64 else 1#64 <<< n - 1

theorem getLsbD_one_shiftLeft {bit j : Nat} (hb : bit < 64) :
    (1#64 <<< bit).getLsbD j = decide (j = bit) := by
  rw [BitVec.getLsbD_shiftLeft, BitVec.getLsbD_one]
  by_cases h : j = bit
  · subst h
    simp [hb]
  · have hne : ¬ (j - bit = 0 ∧ ¬ j < bit) := by omega
    by_cases hlt : j < bit
    · simp [h, hlt]
    · have : j - bit ≠ 0 := by omega
      simp [h, hlt, this]

/-- Splitting an index into its word and bit. -/
theorem index_eq_iff (i word : Nat) {bit : Nat} (hb : bit < 64) :
    i = word * 64 + bit ↔ i / 64 = word ∧ i % 64 = bit := by
  omega

theorem testBit_setBit (word : Nat) {bit : Nat} (hb : bit < 64) (i : Nat) :
    (w.setBit word bit).testBit i = (w.testBit i || decide (i = word * 64 + bit)) := by
  have hidx := index_eq_iff i word hb
  unfold testBit setBit
  by_cases hw : i / 64 = word
  · rw [hw, update_self, BitVec.getLsbD_or, getLsbD_one_shiftLeft hb]
    congr 1
    rw [decide_eq_decide, hidx]
    exact ⟨fun h => ⟨hw, h⟩, fun h => h.2⟩
  · rw [update_of_ne hw]
    have : ¬ i = word * 64 + bit := fun h => hw (hidx.mp h).1
    simp [this]

theorem testBit_clearBit (word : Nat) {bit : Nat} (hb : bit < 64) (i : Nat) :
    (w.clearBit word bit).testBit i = (w.testBit i && !decide (i = word * 64 + bit)) := by
  have hidx := index_eq_iff i word hb
  have hmod : i % 64 < 64 := Nat.mod_lt _ (by omega)
  unfold testBit clearBit
  by_cases hw : i / 64 = word
  · rw [hw, update_self, BitVec.getLsbD_and, BitVec.getLsbD_not,
      getLsbD_one_shiftLeft hb]
    simp only [hmod, decide_true, Bool.true_and]
    congr 2
    rw [decide_eq_decide, hidx]
    exact ⟨fun h => ⟨hw, h⟩, fun h => h.2⟩
  · rw [update_of_ne hw]
    have : ¬ i = word * 64 + bit := fun h => hw (hidx.mp h).1
    simp [this]

theorem getLsbD_lowMask {n j : Nat} (hn : n ≤ 64) (hj : j < 64) :
    (lowMask n).getLsbD j = decide (j < n) := by
  unfold lowMask
  by_cases h : n = 64
  · rw [if_pos h, BitVec.getLsbD_allOnes]
    simp [h, hj]
  · have hlt : n < 64 := by omega
    have hpow : 2 ^ n < 2 ^ 64 := Nat.pow_lt_pow_right (by omega) hlt
    have hpos : 0 < 2 ^ n := Nat.two_pow_pos n
    have hnat : (1#64 <<< n - 1).toNat = 2 ^ n - 1 := by
      have hone : BitVec.toNat (1 : BitVec 64) = 1 := rfl
      have hone' : (1#64).toNat = 1 := rfl
      rw [BitVec.toNat_sub, BitVec.toNat_shiftLeft, hone, hone', Nat.shiftLeft_eq, Nat.one_mul,
        Nat.mod_eq_of_lt hpow]
      omega
    rw [if_neg h, ← BitVec.testBit_toNat, hnat, Nat.testBit_two_pow_sub_one]

/-- The bits of a word that are clear among the lowest `n`. -/
def freeBits (word n : Nat) : BitVec 64 := ~~~(w word) &&& lowMask n

theorem getLsbD_freeBits {word n j : Nat} (hn : n ≤ 64) (hj : j < 64) :
    (w.freeBits word n).getLsbD j = (!w.testBit (word * 64 + j) && decide (j < n)) := by
  unfold freeBits testBit
  have h1 : (word * 64 + j) / 64 = word := by omega
  have h2 : (word * 64 + j) % 64 = j := by omega
  rw [BitVec.getLsbD_and, BitVec.getLsbD_not, getLsbD_lowMask hn hj, h1, h2]
  simp [hj]

/-- No free bit: the window is full. -/
theorem freeBits_eq_zero {word n : Nat} (hn : n ≤ 64) (h : w.freeBits word n = 0#64) :
    ∀ j < n, w.testBit (word * 64 + j) = true := by
  intro j hj
  have hzero : (w.freeBits word n).getLsbD j = false := by rw [h]; exact BitVec.getLsbD_zero
  rw [getLsbD_freeBits w hn (by omega)] at hzero
  simpa [hj] using hzero

/-- The lowest free bit of a window. -/
theorem ctz_freeBits {word n : Nat} (hn : n ≤ 64) (h : w.freeBits word n ≠ 0#64) :
    (w.freeBits word n).ctz.toNat < n
      ∧ w.testBit (word * 64 + (w.freeBits word n).ctz.toNat) = false
      ∧ ∀ j < (w.freeBits word n).ctz.toNat, w.testBit (word * 64 + j) = true := by
  have hlt : (w.freeBits word n).ctz.toNat < 64 := by
    have := BitVec.ctz_lt_iff_ne_zero.mpr h
    rw [BitVec.lt_def] at this
    exact this
  have hset := BitVec.getLsbD_true_ctz_of_ne_zero h
  rw [getLsbD_freeBits w hn hlt] at hset
  simp only [Bool.and_eq_true, Bool.not_eq_true', decide_eq_true_eq] at hset
  refine ⟨hset.2, hset.1, fun j hj => ?_⟩
  have hclear := BitVec.getLsbD_false_of_lt_ctz hj
  rw [getLsbD_freeBits w hn (by omega)] at hclear
  have hjn : j < n := by omega
  simpa [hjn] using hclear

/-- `count_ones` of a word. -/
def countOnes (word : BitVec 64) : Nat := (List.range 64).countP word.getLsbD

/-- The words of a bitmap count its bits. -/
theorem sum_countOnes (k : Nat) :
    ((List.range k).map (fun word => countOnes (w word))).sum
      = (List.range (k * 64)).countP w.testBit := by
  induction k with
  | zero => rfl
  | succ k ih =>
    -- the last word holds the bits from `k * 64` on
    have hword : countOnes (w k)
        = ((List.range 64).map (fun j => k * 64 + j)).countP w.testBit := by
      rw [countP_map]
      refine countP_congr (fun j hj => ?_)
      have hj := mem_range.mp hj
      have h1 : (k * 64 + j) / 64 = k := by omega
      have h2 : (k * 64 + j) % 64 = j := by omega
      simp only [comp_apply, testBit, h1, h2]
    rw [range_succ, map_append, sum_append, ih, map_singleton,
      sum_singleton, hword, ← countP_append, Nat.succ_mul, range_add]

theorem eq_zero_of_testBit {word : Nat}
    (h : ∀ i, word * 64 ≤ i → i < word * 64 + 64 → w.testBit i = false) : w word = 0#64 := by
  apply BitVec.eq_of_getLsbD_eq
  intro j hj
  have hbit := h (word * 64 + j) (by omega) (by omega)
  unfold testBit at hbit
  rw [show (word * 64 + j) / 64 = word by omega, show (word * 64 + j) % 64 = j by omega] at hbit
  rw [hbit, BitVec.getLsbD_zero]

end Words

end GenOS.Lib
