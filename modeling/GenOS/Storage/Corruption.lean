/-
  GenOS.Storage.Corruption — one corrupted byte never goes unnoticed.

  A round of the checksum exclusive-ors a byte into the state and multiplies
  by an odd number.  The multiplication has an inverse modulo 2^32, so a round
  is injective in the state (`checksumStep_state`) and, outside the checksum's
  own field, in the byte (`checksumStep_byte`).  A changed byte therefore
  changes the checksum of the slot and leaves the stored one alone, or, inside
  the field, changes the stored one and leaves the checksum alone.
-/
import GenOS.Storage.RoundTrip

namespace GenOS.Storage

open GenOS.Lib GenOS.Vfs

/-! ## §1. One round of the checksum. -/

/-- The multiplier of a round is odd, so the round can be undone. -/
theorem multiplier_undo (x : UInt32) : x * 0x01000193 * 0x359c449b = x := by
  rw [UInt32.mul_assoc, show (0x01000193 : UInt32) * 0x359c449b = 1 by decide, UInt32.mul_one]

theorem multiplier_cancel {x y : UInt32} (h : x * 0x01000193 = y * 0x01000193) : x = y := by
  rw [← multiplier_undo x, h, multiplier_undo y]

theorem checksumStep_state (item : UInt8 × Nat) {h h' : UInt32}
    (heq : checksumStep h item = checksumStep h' item) : h = h' :=
  UInt32.xor_left_inj _ |>.mp (multiplier_cancel heq)

/-- Positions whose bytes the checksum skips. -/
def Masked (i : Nat) : Prop := recordChecksumOffset ≤ i ∧ i < recordChecksumOffset + 4

instance : DecidablePred Masked := fun _ => inferInstanceAs (Decidable (_ ∧ _))

variable {i : Nat} {b : UInt8} {s : Snapshot}

theorem checksumStep_byte {hash : UInt32} (hi : ¬ Masked i) {x y : UInt8}
    (heq : checksumStep hash (x, i) = checksumStep hash (y, i)) : x = y := by
  have hread : ¬ (recordChecksumOffset ≤ i ∧ i < recordChecksumOffset + 4) := hi
  simp only [checksumStep, if_neg hread] at heq
  have hword : x.toUInt32 = y.toUInt32 := (UInt32.xor_right_inj _).mp (multiplier_cancel heq)
  have hnat := congrArg UInt32.toNat hword
  simp only [UInt8.toNat_toUInt32] at hnat
  exact UInt8.toNat_inj.mp hnat

/-! ## §2. The whole slot. -/

/-- Different states stay different through the remaining bytes. -/
theorem checksum_fold_state (items : List (UInt8 × Nat)) {h h' : UInt32}
    (heq : items.foldl checksumStep h = items.foldl checksumStep h') : h = h' := by
  induction items generalizing h h' with
  | nil => exact heq
  | cons item items ih => exact checksumStep_state item (ih heq)

/-- The bytes in front bring both runs to the same state; the changed byte
separates them and the bytes behind it keep them apart. -/
theorem checksum_fold_set {l : Bytes} (hi : i < l.length) (hb : b ≠ l[i]) :
    ∀ (k : Nat) (hash : UInt32), ¬ Masked (k + i) →
      ((l.set i b).zipIdx k).foldl checksumStep hash ≠ (l.zipIdx k).foldl checksumStep hash := by
  induction l generalizing i with
  | nil => simp at hi
  | cons x xs ih =>
    intro k hash hmask heq
    cases i with
    | zero =>
      exact hb (checksumStep_byte hmask (checksum_fold_state _ heq))
    | succ i =>
      simp only [List.getElem_cons_succ] at hb
      apply ih (by simpa using hi) hb (k + 1) (checksumStep hash (x, k)) _ heq
      rw [show k + 1 + i = k + (i + 1) by omega]
      exact hmask

theorem checksum_set_ne (hi : i < slotBytes) (hmask : ¬ Masked i) (hb : b ≠ s.byte i) : checksum (s.set i b).val ≠ checksum s.val := by
  have hlen : i < s.val.length := by rw [s.property]; exact hi
  apply checksum_fold_set hlen _ 0
  · rw [Nat.zero_add]
    exact hmask
  · rw [FixedBytes.byte_eq_getElem s hlen] at hb
    exact hb

theorem checksum_set_masked (hmask : Masked i) (b : UInt8) :
    checksum (s.set i b).val = checksum s.val := by
  apply checksum_fold_congr
  · simp
  intro j hj
  have hne : i ≠ j := by
    rintro rfl
    rw [Nat.zero_add] at hj
    exact hj hmask
  exact List.getElem?_set_ne hne

/-! ## §3. The stored checksum. -/

theorem storedChecksum_set_of_unmasked (hmask : ¬ Masked i) (b : UInt8) :
    (s.set i b).slice recordChecksumOffset 4 = s.slice recordChecksumOffset 4 := by
  apply FixedBytes.slice_set_of_notMem
  intro h
  exact hmask h

theorem storedChecksum_set_ne (hmask : Masked i) (hb : b ≠ s.byte i) :
    leNat ((s.set i b).slice recordChecksumOffset 4)
      ≠ leNat (s.slice recordChecksumOffset 4) := by
  intro heq
  have hslice := leNat_inj (by simp [FixedBytes.slice]) heq
  exact hb (FixedBytes.set_eq_of_slice_eq hmask (by decide) hslice)

/-! ## §4. Validation. -/

theorem validateSnapshot_checksum {generation : UInt64} (h : validateSnapshot s = .ok generation) :
    (checksum s.val).toNat = leNat (s.slice recordChecksumOffset 4) := by
  by_contra hne
  unfold validateSnapshot at h
  split_ifs at h

/-- **Every single-byte corruption is rejected.** -/
theorem single_byte_corruption_rejected {s : Snapshot} {generation : UInt64}
    (h : validateSnapshot s = .ok generation) {i : Nat} (hi : i < slotBytes) {b : UInt8}
    (hb : b ≠ s.byte i) : ∃ e, validateSnapshot (s.set i b) = .error e := by
  have hgood := validateSnapshot_checksum h
  cases hresult : validateSnapshot (s.set i b) with
  | error e => exact ⟨e, rfl⟩
  | ok generation' =>
    exfalso
    have hbad := validateSnapshot_checksum hresult
    by_cases hmask : Masked i
    · -- the stored checksum changed, the computed one did not
      rw [checksum_set_masked hmask, hgood] at hbad
      exact storedChecksum_set_ne hmask hb hbad.symm
    · rw [storedChecksum_set_of_unmasked hmask, ← hgood] at hbad
      exact checksum_set_ne hi hmask hb (UInt32.toNat_inj.mp hbad)

/-- In the slot of a namespace with one file, a different last byte is noticed. -/
theorem single_byte_corruption_rejected_oneUserFile :
    ∃ s, validateSnapshot s = .ok 1
      ∧ ∃ e, validateSnapshot (s.set 20479 (s.byte 20479 + 1)) = .error e := by
  obtain ⟨s, -, hrec⟩ := encodeSnapshot_sealed (reachable_inv oneUserFile_reachable)
    (by decide +kernel) 1
  refine ⟨sealSnapshot s, hrec.valid,
    single_byte_corruption_rejected hrec.valid (by decide) ?_⟩
  intro h
  have hnat := congrArg UInt8.toNat h
  rw [UInt8.toNat_add, UInt8.toNat_one] at hnat
  omega

end GenOS.Storage
