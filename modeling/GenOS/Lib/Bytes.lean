/-
  GenOS.Lib.Bytes — byte strings, little-endian words and fixed-size byte arrays.

  A slice of a byte buffer is a `List UInt8`; an array `[u8; n]` is a
  `FixedBytes n`, the lists of length `n`.  The two operations that format
  code performs on such an array are `slice` (a range that is read) and
  `patch` (a range that `copy_from_slice` overwrites).  All lemmas are about
  arrays that are known as a concatenation `a ++ m ++ c`: reading at
  `a.length` gives `m`, patching there replaces `m`.
-/
import Mathlib.Data.List.Basic
import Mathlib.Tactic.Ring

namespace GenOS.Lib

open List

/-- A byte string. -/
abbrev Bytes := List UInt8

/-! ## §1. Little-endian words. -/

/-- The number a little-endian byte string denotes. -/
def leNat : Bytes → Nat
  | [] => 0
  | b :: bs => b.toNat + 256 * leNat bs

/-- The `w`-byte little-endian encoding of a number (`to_le_bytes`). -/
def leBytes : Nat → Nat → Bytes
  | 0, _ => []
  | w + 1, n => UInt8.ofNat (n % 256) :: leBytes w (n / 256)

@[simp] theorem leBytes_length : ∀ (w n : Nat), (leBytes w n).length = w
  | 0, _ => rfl
  | w + 1, n => by simp [leBytes, leBytes_length w]

theorem leNat_leBytes : ∀ (w n : Nat), n < 256 ^ w → leNat (leBytes w n) = n
  | 0, n, h => by
    have h0 : n = 0 := by simpa using h
    rw [h0]
    rfl
  | w + 1, n, h => by
    have hq : n / 256 < 256 ^ w := by
      apply Nat.div_lt_of_lt_mul
      rw [pow_succ] at h
      omega
    have hb : (UInt8.ofNat (n % 256)).toNat = n % 256 := by
      simp [UInt8.toNat_ofNat']
    show (UInt8.ofNat (n % 256)).toNat + 256 * leNat (leBytes w (n / 256)) = n
    rw [hb, leNat_leBytes w _ hq]
    omega

/-- Byte strings of one length denote different numbers. -/
theorem leNat_inj {bs cs : Bytes} (hlen : bs.length = cs.length) (h : leNat bs = leNat cs) :
    bs = cs := by
  induction bs generalizing cs with
  | nil => exact (length_eq_zero_iff.mp hlen.symm).symm
  | cons b bs ih =>
    cases cs with
    | nil => simp at hlen
    | cons c cs =>
      have hb : b.toNat < 256 := b.toNat_lt
      have hc : c.toNat < 256 := c.toNat_lt
      simp only [leNat] at h
      have hhead : b.toNat = c.toNat := by omega
      rw [UInt8.toNat_inj.mp hhead, ih (by simpa using hlen) (by omega)]

/-! ## §2. Fixed-size byte arrays. -/

/-- The array type `[u8; n]`. -/
@[ext] structure FixedBytes (n : Nat) where
  val : Bytes
  property : val.length = n
  deriving DecidableEq

namespace FixedBytes

variable {n : Nat}

/-- The array `[0; n]`. -/
def zero : FixedBytes n := ⟨List.replicate n 0, List.length_replicate⟩

section

variable (s : FixedBytes n)

/-- The element at index `i` (out of range it reads `0`; no caller does). -/
def byte (i : Nat) : UInt8 := s.val.getD i 0

/-- The range `s[start..start + len]`. -/
def slice (start len : Nat) : Bytes := (s.val.drop start).take len

/-- `s[off..off + data.len()].copy_from_slice(data)`.  A range that does not
fit would panic in the source; the model then leaves the array alone. -/
def patch (off : Nat) (data : Bytes) : FixedBytes n :=
  if h : off + data.length ≤ n then
    ⟨s.val.take off ++ data ++ s.val.drop (off + data.length), by
      have := s.property
      simp only [List.length_append, List.length_take, List.length_drop]
      omega⟩
  else s

@[simp] theorem length_val : s.val.length = n := s.property

end

variable {s : FixedBytes n} {data : Bytes}

theorem val_patch {off : Nat} (h : off + data.length ≤ n) :
    (s.patch off data).val = s.val.take off ++ data ++ s.val.drop (off + data.length) := by
  rw [patch, dif_pos h]

theorem byte_of_append {a c : Bytes} {x : UInt8} {i : Nat} (h : s.val = a ++ x :: c)
    (hi : a.length = i) : s.byte i = x := by
  subst hi
  simp [byte, h, getD]

theorem slice_of_append {a m c : Bytes} {i k : Nat} (h : s.val = a ++ m ++ c) (hi : a.length = i)
    (hk : m.length = k) : s.slice i k = m := by
  subst hi hk
  simp [slice, h, append_assoc]

/-- Patching a known middle part replaces exactly that part. -/
theorem patch_of_append {a m c d : Bytes} {o : Nat} (h : s.val = a ++ m ++ c) (ho : a.length = o)
    (hl : d.length = m.length) : (s.patch o d).val = a ++ d ++ c := by
  subst ho
  have hn : a.length + d.length ≤ n := by
    have := s.property
    rw [h] at this
    simp only [length_append] at this
    omega
  have htake : (a ++ m ++ c).take a.length = a := by simp [append_assoc]
  have hdrop : (a ++ m ++ c).drop (a.length + d.length) = c := by
    rw [hl, show a.length + m.length = (a ++ m).length by simp, drop_left]
  unfold patch
  rw [dif_pos hn]
  simp only [h, htake, hdrop]

/-- Patching the start of a run of zeros extends the known part. -/
theorem patch_fill {a d : Bytes} {k o : Nat} (h : s.val = a ++ replicate k 0)
    (ho : a.length = o) (hl : d.length ≤ k) :
    (s.patch o d).val = (a ++ d) ++ replicate (k - d.length) 0 := by
  apply patch_of_append (m := replicate d.length 0) _ ho (by simp)
  rw [h, append_assoc, replicate_append_replicate]
  congr 2
  omega

/-- A patch changes no index outside its range. -/
theorem patch_getElem?_of_notMem {off i : Nat} (h : i < off ∨ off + data.length ≤ i) :
    (s.patch off data).val[i]? = s.val[i]? := by
  unfold patch
  split
  · rename_i hn
    have hs := s.property
    simp only [append_assoc]
    rcases h with h | h
    · rw [getElem?_append_left (by simp; omega), getElem?_take_of_lt h]
    have hoff : (s.val.take off).length = off := by simp; omega
    rw [getElem?_append_right (by omega), hoff,
      getElem?_append_right (by omega), getElem?_drop]
    congr 1
    omega
  · rfl

theorem slice_patch_of_disjoint {off a k : Nat} (h : a + k ≤ off ∨ off + data.length ≤ a) :
    (s.patch off data).slice a k = s.slice a k := by
  apply ext_getElem?
  intro i
  simp only [slice, getElem?_take, getElem?_drop]
  split
  · exact patch_getElem?_of_notMem (by omega)
  · rfl

theorem byte_patch_of_notMem {off i : Nat} (h : i < off ∨ off + data.length ≤ i) :
    (s.patch off data).byte i = s.byte i := by
  simp only [byte, getD_eq_getElem?_getD, patch_getElem?_of_notMem h]

/-! ## §3. Storing byte by byte. -/

/-- `s[i] = b`. -/
def set (s : FixedBytes n) (i : Nat) (b : UInt8) : FixedBytes n :=
  ⟨s.val.set i b, by rw [List.length_set]; exact s.property⟩

theorem byte_eq_getElem (s : FixedBytes n) {i : Nat} (h : i < s.val.length) :
    s.byte i = s.val[i] := by
  rw [byte, getD_eq_getElem?_getD, getElem?_eq_getElem h, Option.getD_some]

theorem slice_set_of_notMem {i start len : Nat} {b : UInt8} (h : ¬ (start ≤ i ∧ i < start + len)) :
    (s.set i b).slice start len = s.slice start len := by
  apply ext_getElem?
  intro j
  simp only [slice, set, getElem?_take, getElem?_drop]
  split
  · exact getElem?_set_ne (by omega)
  · rfl

/-- A store inside a range that leaves the range as it was stored the old byte. -/
theorem set_eq_of_slice_eq {i start len : Nat} {b : UInt8} (hi : start ≤ i ∧ i < start + len)
    (hlen : start + len ≤ n) (h : (s.set i b).slice start len = s.slice start len) :
    b = s.byte i := by
  have hs : i < s.val.length := by rw [s.property]; omega
  have hj := congrArg (fun bytes => bytes[i - start]?) h
  simp only [slice, set, getElem?_take, getElem?_drop,
    if_pos (show i - start < len by omega), show start + (i - start) = i by omega,
    getElem?_set_self hs, getElem?_eq_getElem hs, Option.some.injEq] at hj
  rw [byte_eq_getElem s hs]
  exact hj

/-- `for (offset, byte) in data.iter().enumerate() { s[start + offset] = *byte }`. -/
def storeFrom (s : FixedBytes n) (start : Nat) : Bytes → FixedBytes n
  | [] => s
  | b :: rest => (s.set start b).storeFrom (start + 1) rest

/-- Storing byte by byte replaces the range as a whole. -/
theorem storeFrom_eq_patch (s : FixedBytes n) {start : Nat} (h : start + data.length ≤ n) :
    s.storeFrom start data = s.patch start data := by
  induction data generalizing s start with
  | nil =>
    apply FixedBytes.ext
    rw [val_patch h]
    simp [storeFrom]
  | cons b rest ih =>
    have hl : (b :: rest).length = rest.length + 1 := length_cons
    have hs : start < s.val.length := by rw [s.property]; omega
    rw [storeFrom, ih _ (by omega)]
    apply FixedBytes.ext
    rw [val_patch h, val_patch (by omega)]
    show (s.val.set start b).take (start + 1) ++ rest
      ++ (s.val.set start b).drop (start + 1 + rest.length) = _
    -- the byte stored first closes the untouched part in front
    have htake : (s.val.set start b).take (start + 1) = s.val.take start ++ [b] := by
      rw [take_add_one, take_set_of_le (Nat.le_refl _),
        getElem?_set_self hs]
      rfl
    rw [htake, drop_set_of_lt (by omega), hl,
      show start + 1 + rest.length = start + (rest.length + 1) by omega]
    simp

/-- `bytes.try_into().ok()`: the array, if the slice has its length. -/
def ofBytes (n : Nat) (bytes : Bytes) : Option (FixedBytes n) :=
  if h : bytes.length = n then some ⟨bytes, h⟩ else none

theorem ofBytes_val (s : FixedBytes n) : ofBytes n s.val = some s := dif_pos s.property

end FixedBytes

/-! ## §4. Slices and big-endian words. -/

/-- The element at index `i` (out of range it reads `0`; no caller does). -/
def byteAt (bytes : Bytes) (i : Nat) : UInt8 := bytes.getD i 0

/-- The range `bytes[start..stop]`. -/
def range (bytes : Bytes) (start stop : Nat) : Bytes := (bytes.take stop).drop start

/-- The number a big-endian byte string denotes (`from_be_bytes`). -/
def beNat (bytes : Bytes) : Nat := bytes.foldl (fun n b => n * 256 + b.toNat) 0

/-- The two bytes of `n as u16`, high byte first (`to_be_bytes`). -/
def beBytes16 (n : Nat) : Bytes := [UInt8.ofNat (n / 256), UInt8.ofNat n]

@[simp] theorem beBytes16_length (n : Nat) : (beBytes16 n).length = 2 := rfl

theorem range_length {bytes : Bytes} {start stop : Nat} (h : stop ≤ bytes.length) :
    (range bytes start stop).length = stop - start := by
  rw [range, length_drop, length_take_of_le h]

/-- Reading a byte string that is known as a concatenation. -/
theorem range_of_append {bytes a m c : Bytes} {i j : Nat} (h : bytes = a ++ m ++ c)
    (hi : a.length = i) (hj : i + m.length = j) : range bytes i j = m := by
  subst h hi hj
  have htake : (a ++ m ++ c).take (a.length + m.length) = a ++ m := by
    rw [← length_append, take_left]
  rw [range, htake, drop_left]

theorem byteAt_of_append {bytes a c : Bytes} {x : UInt8} {i : Nat} (h : bytes = a ++ x :: c)
    (hi : a.length = i) : byteAt bytes i = x := by
  subst h hi
  simp [byteAt, getD]

end GenOS.Lib
