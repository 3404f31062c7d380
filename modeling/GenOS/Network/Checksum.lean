/-
  GenOS.Network.Checksum — the ones' complement checksum of `net.rs`.

  `checksum` and `transport_checksum_valid` add the big-endian words of their
  input in a wrapping 32-bit accumulator and fold the carries.  Folding keeps the
  residue modulo 65535 and tells zero from the other multiples
  (`foldCarry_eq_full`); nothing wraps at the lengths that are accepted.  One byte
  that differs changes the sum by less than 65535, and so the verdict.
-/
import GenOS.Ipv6.Packet

namespace GenOS.Network

open GenOS.Lib List
open GenOS.Ipv6 (wordSum foldCarry)

/-! ## §1. The code. -/

/-- The loop over `chunks_exact(2)` and its remainder, on a `u32`. -/
def addWords (sum : Nat) : Bytes → Nat
  | [] => sum
  | [last] => (sum + last.toNat * 256) % 2 ^ 32
  | a :: b :: rest => addWords ((sum + (a.toNat * 256 + b.toNat)) % 2 ^ 32) rest

variable (source destination : FixedBytes 4) (sum : Nat) (bytes : Bytes) (protocol : UInt8)

/-- `checksum`. -/
def checksum : Nat := 65535 - foldCarry (addWords 0 bytes)

/-- `transport_checksum_valid`. -/
def transportChecksumValid (segment : Bytes) : Bool :=
  if 65535 < segment.length then false
  else if protocol = 17 ∧ 8 ≤ segment.length ∧ range segment 6 8 = [0, 0] then true
  else
    let sum := addWords (addWords 0 source.val) destination.val
    let sum := (sum + protocol.toNat) % 2 ^ 32
    let sum := (sum + segment.length) % 2 ^ 32
    foldCarry (addWords sum segment) == 65535

/-! ## §2. Sums and folds. -/

/-- The accumulator holds the sum of the words, wrapped. -/
theorem addWords_eq : addWords sum bytes % 2 ^ 32 = (sum + wordSum bytes) % 2 ^ 32 := by
  fun_induction addWords sum bytes with
  | case1 sum => rfl
  | case2 sum last =>
    rw [wordSum]
    exact Nat.mod_mod _ _
  | case3 sum a b rest ih =>
    rw [ih, wordSum]
    omega

theorem wordSum_bound : wordSum bytes ≤ 65535 * ((bytes.length + 1) / 2) := by
  fun_induction wordSum bytes with
  | case1 => exact Nat.zero_le _
  | case2 last =>
    have hlast := last.toNat_lt
    simp only [length_cons, length_nil]
    omega
  | case3 a b rest ih =>
    have ha := a.toNat_lt
    have hb := b.toNat_lt
    simp only [length_cons]
    omega

theorem addWords_lt {sum : Nat} (hsum : sum < 2 ^ 32) (bytes : Bytes) :
    addWords sum bytes < 2 ^ 32 := by
  fun_induction addWords sum bytes with
  | case1 sum => exact hsum
  | case2 sum last => exact Nat.mod_lt _ (Nat.two_pow_pos 32)
  | case3 sum a b rest ih => exact ih (Nat.mod_lt _ (Nat.two_pow_pos 32))

/-- Nothing wraps while the sum fits 32 bits. -/
theorem addWords_of_lt {sum : Nat} {bytes : Bytes} (h : sum + wordSum bytes < 2 ^ 32) :
    addWords sum bytes = sum + wordSum bytes := by
  have hlt := addWords_lt (Nat.lt_of_le_of_lt (Nat.le_add_right _ _) h) bytes
  have heq := addWords_eq sum bytes
  rwa [Nat.mod_eq_of_lt hlt, Nat.mod_eq_of_lt h] at heq

theorem wordSum_append {a : Bytes} (heven : a.length % 2 = 0) (b : Bytes) :
    wordSum (a ++ b) = wordSum a + wordSum b := by
  fun_induction wordSum a with
  | case1 => rw [nil_append, Nat.zero_add]
  | case2 last => cases heven
  | case3 x y rest ih =>
    simp only [length_cons] at heven
    rw [cons_append, cons_append, wordSum, ih (by omega)]
    omega

/-- Folding the carries keeps the residue, and a sum that is not zero. -/
theorem foldCarry_spec :
    foldCarry sum % 65535 = sum % 65535 ∧ foldCarry sum ≤ 65535
      ∧ (foldCarry sum = 0 ↔ sum = 0) := by
  fun_induction foldCarry sum with
  | case1 sum hcarry ih => omega
  | case2 sum hsmall => omega

/-- A sum folds to all ones exactly if it is a multiple of 65535 other than zero. -/
theorem foldCarry_eq_full : foldCarry sum = 65535 ↔ sum % 65535 = 0 ∧ sum ≠ 0 := by
  obtain ⟨hresidue, hbound, hzero⟩ := foldCarry_spec sum
  omega

/-- The field that completes a sum. -/
theorem foldCarry_complete : foldCarry (sum + (65535 - foldCarry sum)) = 65535 := by
  obtain ⟨hresidue, hbound, hzero⟩ := foldCarry_spec sum
  rw [foldCarry_eq_full]
  omega

/-! ## §3. What is accepted. -/

/-- The sum over the pseudo header and the segment. -/
def transportSum (segment : Bytes) : Nat :=
  wordSum source.val + wordSum destination.val + protocol.toNat + segment.length
    + wordSum segment

theorem transportSum_lt {segment : Bytes} (hlen : segment.length ≤ 65535) :
    transportSum source destination protocol segment < 2 ^ 32 := by
  have hsource := wordSum_bound source.val
  have hdestination := wordSum_bound destination.val
  have hsegment := wordSum_bound segment
  have hprotocol := protocol.toNat_lt
  rw [source.length_val] at hsource
  rw [destination.length_val] at hdestination
  unfold transportSum
  omega

/-- A checksum that is not left out is compared with the sum. -/
theorem transportChecksumValid_iff {source destination : FixedBytes 4} {protocol : UInt8}
    {segment : Bytes} (hlen : segment.length ≤ 65535)
    (hused : ¬ (protocol = 17 ∧ 8 ≤ segment.length ∧ range segment 6 8 = [0, 0])) :
    transportChecksumValid source destination protocol segment = true
      ↔ foldCarry (transportSum source destination protocol segment) = 65535 := by
  have hfits := transportSum_lt source destination protocol hlen
  have hsum : addWords (((addWords (addWords 0 source.val) destination.val + protocol.toNat)
      % 2 ^ 32 + segment.length) % 2 ^ 32) segment
        = transportSum source destination protocol segment := by
    unfold transportSum at hfits ⊢
    have hsource : addWords 0 source.val = wordSum source.val := by
      rw [addWords_of_lt (by omega), Nat.zero_add]
    have hpair : addWords (wordSum source.val) destination.val
        = wordSum source.val + wordSum destination.val := addWords_of_lt (by omega)
    rw [hsource, hpair, Nat.mod_add_mod, Nat.mod_eq_of_lt (by omega), addWords_of_lt (by omega)]
  unfold transportChecksumValid
  rw [if_neg (Nat.not_lt.mpr hlen), if_neg hused]
  dsimp only
  rw [hsum, beq_iff_eq]

/-- One byte changes the sum by less than 65535. -/
theorem wordSum_set {bytes : Bytes} {i : Nat} (hi : i < bytes.length) (b : UInt8) :
    ∃ weight, (weight = 1 ∨ weight = 256)
      ∧ wordSum (bytes.set i b) + weight * (bytes.get ⟨i, hi⟩).toNat
        = wordSum bytes + weight * b.toNat := by
  fun_induction wordSum bytes generalizing i with
  | case1 => cases hi
  | case2 last =>
    obtain rfl : i = 0 := by simpa using hi
    refine ⟨256, .inr rfl, ?_⟩
    simp only [set_cons_zero, wordSum, get_eq_getElem, getElem_cons_zero]
    omega
  | case3 x y rest ih =>
    match i with
    | 0 =>
      refine ⟨256, .inr rfl, ?_⟩
      simp only [set_cons_zero, wordSum, get_eq_getElem, getElem_cons_zero]
      omega
    | 1 =>
      refine ⟨1, .inl rfl, ?_⟩
      simp only [set_cons_succ, set_cons_zero, wordSum, get_eq_getElem,
        getElem_cons_succ, getElem_cons_zero]
      omega
    | i + 2 =>
      have hrest : i < rest.length := by simpa using hi
      obtain ⟨weight, hweight, hsum⟩ := ih hrest
      refine ⟨weight, hweight, ?_⟩
      simp only [set_cons_succ, wordSum, get_eq_getElem,
        getElem_cons_succ] at hsum ⊢
      omega

/-- **A TCP checksum detects every single-byte error.** -/
theorem checksum_detects_byte (source destination : FixedBytes 4) (segment : Bytes)
    (hvalid : transportChecksumValid source destination 6 segment = true)
    (i : Nat) (hi : i < segment.length) (b : UInt8) (hb : b ≠ segment.get ⟨i, hi⟩) :
    transportChecksumValid source destination 6 (segment.set i b) = false := by
  have hlen : segment.length ≤ 65535 := by
    by_contra hlong
    rw [transportChecksumValid, if_pos (Nat.lt_of_not_le hlong)] at hvalid
    cases hvalid
  have htcp : ∀ bytes : Bytes,
      ¬ ((6 : UInt8) = 17 ∧ 8 ≤ bytes.length ∧ range bytes 6 8 = [0, 0]) := by
    rintro bytes ⟨h, -⟩
    cases h
  rw [transportChecksumValid_iff hlen (htcp _), foldCarry_eq_full] at hvalid
  rw [← Bool.not_eq_true, transportChecksumValid_iff (by simpa using hlen) (htcp _),
    foldCarry_eq_full]
  rintro ⟨hresidue, -⟩
  obtain ⟨weight, hweight, hsum⟩ := wordSum_set hi b
  have hne : b.toNat ≠ (segment.get ⟨i, hi⟩).toNat := fun h => hb (UInt8.toNat_inj.mp h)
  have hnew := b.toNat_lt
  have hold := (segment.get ⟨i, hi⟩).toNat_lt
  unfold transportSum at hvalid hresidue
  rw [List.length_set] at hresidue
  -- The two sums differ by a multiple of 65535 that is smaller than 65535.
  rcases hweight with rfl | rfl <;> omega

/-- The bytes `ff f7` complete the pseudo header of their own length; `ff 00` do not. -/
theorem checksum_detects_byte_pair :
    transportChecksumValid .zero .zero 6 [0xff, 0xf7] = true
      ∧ transportChecksumValid .zero .zero 6 [0xff, 0x00] = false := by
  have hvalid : transportChecksumValid .zero .zero 6 [0xff, 0xf7] = true := by
    rw [transportChecksumValid_iff (by decide) (by decide), foldCarry_eq_full]
    decide
  exact ⟨hvalid, checksum_detects_byte .zero .zero [0xff, 0xf7] hvalid 1 (by decide) 0
    (by decide)⟩

end GenOS.Network
