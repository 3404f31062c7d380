/-
  GenOS.Lib.Ascii — the string operations of the standard library that path
  code uses, on the UTF-8 bytes of a string.

  A `&str` is the list of its bytes.  Every separator and every case rule in
  use is ASCII, so searching, splitting and comparing act on bytes.
  Case-insensitive equality is equality of the case-folded strings
  (`eqIgnoreAsciiCase_iff`); everything that only depends on the folded
  string, such as the position of the last slash (`rfind_congr`), is
  therefore invariant under a change of case.
-/
import GenOS.Lib.Bytes

namespace GenOS.Lib

open List

/-! ## §1. Characters. -/

/-- A string literal made of ASCII characters, as bytes. -/
def ascii (cs : List Char) : Bytes := cs.map Char.toUInt8

/-- `u8::is_ascii`. -/
def isAscii (b : UInt8) : Bool := b < 128

/-- `u8::to_ascii_lowercase`. -/
def toAsciiLower (b : UInt8) : UInt8 := if 65 ≤ b ∧ b ≤ 90 then b + 32 else b

/-- `u8::is_ascii_alphanumeric`. -/
def isAsciiAlphanumeric (b : UInt8) : Bool :=
  (48 ≤ b ∧ b ≤ 57) ∨ (65 ≤ b ∧ b ≤ 90) ∨ (97 ≤ b ∧ b ≤ 122)

/-- A statement about a byte holds when it holds of all 256 values. -/
theorem forall_uint8 {p : UInt8 → Prop} (h : ∀ i : Fin 256, p ⟨⟨i⟩⟩) (b : UInt8) : p b :=
  h b.toBitVec.toFin

variable {sep : UInt8}

/-- Folding never creates or destroys a byte outside the letters. -/
theorem toAsciiLower_eq_iff_of_not_letter
    (h : ∀ i : Fin 256, (toAsciiLower ⟨⟨i⟩⟩ = sep ↔ (⟨⟨i⟩⟩ : UInt8) = sep)) (b : UInt8) :
    toAsciiLower b = sep ↔ b = sep :=
  forall_uint8 (p := fun b => toAsciiLower b = sep ↔ b = sep) h b

/-! ## §2. Case-insensitive comparison. -/

variable (s : Bytes) (a b : Bytes)

/-- The case-folded string. -/
def foldCase : Bytes := s.map toAsciiLower

/-- `a.len() == b.len() && zip(..).all(eq_ignore_ascii_case)`. -/
def eqIgnoreAsciiCase : Bool :=
  a.length == b.length && (a.zip b).all (fun p => toAsciiLower p.1 == toAsciiLower p.2)

@[simp] theorem foldCase_length : (foldCase s).length = s.length := by
  simp [foldCase]

@[simp] theorem foldCase_append : foldCase (a ++ b) = foldCase a ++ foldCase b := by
  simp [foldCase]

theorem foldCase_take (k : Nat) : foldCase (s.take k) = (foldCase s).take k := by
  simp [foldCase, map_take]

theorem eqIgnoreAsciiCase_iff : eqIgnoreAsciiCase a b = true ↔ foldCase a = foldCase b := by
  induction a generalizing b with
  | nil => cases b <;> simp [eqIgnoreAsciiCase, foldCase]
  | cons x xs ih =>
    cases b with
    | nil => simp [eqIgnoreAsciiCase, foldCase]
    | cons y ys =>
      have := ih ys
      simp only [eqIgnoreAsciiCase, foldCase, Bool.and_eq_true, beq_iff_eq, length_cons,
        zip_cons_cons, all_cons, map_cons, cons.injEq,
        Nat.add_right_cancel_iff] at this ⊢
      tauto

/-! ## §3. Searching from the right. -/

/-- `str::rfind` of a one-byte character. -/
def rfind (sep : UInt8) : Bytes → Option Nat
  | [] => none
  | x :: xs =>
    match rfind sep xs with
    | some i => some (i + 1)
    | none => if x = sep then some 0 else none

theorem rfind_eq_none_iff (sep : UInt8) (s : Bytes) : rfind sep s = none ↔ sep ∉ s := by
  induction s with
  | nil => simp [rfind]
  | cons x xs ih =>
    cases h : rfind sep xs with
    | some i => simp [rfind, h] at ih ⊢; simp [ih]
    | none =>
      simp only [rfind, h, true_iff] at ih ⊢
      by_cases hx : x = sep
      · simp [hx]
      · simp [hx, ih, Ne.symm hx]

/-- The found position splits the string at its last separator. -/
theorem rfind_eq_some_iff (sep : UInt8) (s : Bytes) (i : Nat) :
    rfind sep s = some i ↔ ∃ a c, s = a ++ sep :: c ∧ a.length = i ∧ sep ∉ c := by
  induction s generalizing i with
  | nil => simp [rfind]
  | cons x xs ih =>
    cases h : rfind sep xs with
    | some j =>
      obtain ⟨a, c, hs, ha, hc⟩ := (ih j).mp h
      simp only [rfind, h, Option.some.injEq]
      constructor
      · intro hij
        exact ⟨x :: a, c, by simp [hs], by simp [ha, hij], hc⟩
      · rintro ⟨a', c', hs', ha', hc'⟩
        cases a' with
        | nil =>
          -- the separator would occur in the tail `c'` of its last occurrence
          simp only [nil_append, cons.injEq] at hs'
          rw [← hs'.2, hs] at hc'
          simp at hc'
        | cons y a' =>
          simp only [cons_append, cons.injEq] at hs'
          have := (ih a'.length).mpr ⟨a', c', hs'.2, rfl, hc'⟩
          rw [h, Option.some.injEq] at this
          simp only [length_cons] at ha'
          omega
    | none =>
      have hno := (rfind_eq_none_iff sep xs).mp h
      simp only [rfind, h]
      constructor
      · intro hi
        split at hi
        · rename_i hx
          simp only [Option.some.injEq] at hi
          exact ⟨[], xs, by simp [hx], by simp [hi], hno⟩
        · simp at hi
      · rintro ⟨a, c, hs, ha, hc⟩
        cases a with
        | nil =>
          simp only [nil_append, cons.injEq] at hs
          simp [hs.1, ← ha]
        | cons y a =>
          simp only [cons_append, cons.injEq] at hs
          rw [hs.2] at hno
          simp at hno

/-- Folding the case does not move a separator that is not a letter. -/
theorem rfind_foldCase (hsep : ∀ b, toAsciiLower b = sep ↔ b = sep) (s : Bytes) :
    rfind sep (foldCase s) = rfind sep s := by
  induction s with
  | nil => rfl
  | cons x xs ih =>
    have ih' : rfind sep (map toAsciiLower xs) = rfind sep xs := ih
    simp only [foldCase, map_cons, rfind, ih', hsep x]

theorem rfind_congr (hsep : ∀ b, toAsciiLower b = sep ↔ b = sep) {s t : Bytes}
    (h : foldCase s = foldCase t) : rfind sep s = rfind sep t := by
  rw [← rfind_foldCase hsep s, h, rfind_foldCase hsep t]

/-! ## §4. Splitting. -/

/-- A piece without separators is split off whole. -/
theorem splitOn_append_sep {a : Bytes} (ha : sep ∉ a) (c : Bytes) :
    (a ++ sep :: c).splitOn sep = a :: c.splitOn sep := by
  induction a with
  | nil => simp [splitOn, splitOnP_cons_eq_if_modifyHead]
  | cons x xs ih =>
    have hx : (x == sep) = false := by simp at ha ⊢; exact fun h => ha.1 h.symm
    have hxs := ih (by simp at ha; exact ha.2)
    simp only [splitOn, cons_append] at hxs ⊢
    rw [splitOnP_cons_eq_if_modifyHead, hx]
    simp [hxs]

theorem splitOn_of_notMem {a : Bytes} (ha : sep ∉ a) : a.splitOn sep = [a] := by
  induction a with
  | nil => simp [splitOn]
  | cons x xs ih =>
    have hx : (x == sep) = false := by simp at ha ⊢; exact fun h => ha.1 h.symm
    have hxs := ih (by simp at ha; exact ha.2)
    simp only [splitOn] at hxs ⊢
    rw [splitOnP_cons_eq_if_modifyHead, hx]
    simp [hxs]

/-- The text behind the last separator is the last piece. -/
theorem splitOn_last (a : Bytes) {c : Bytes} (hc : sep ∉ c) :
    (a ++ sep :: c).splitOn sep = a.splitOn sep ++ [c] := by
  induction a with
  | nil =>
    rw [splitOn_append_sep not_mem_nil, splitOn_of_notMem hc]
    simp [splitOn]
  | cons b bs ih =>
    obtain ⟨x, l, hl⟩ : ∃ x l, splitOnP (· == sep) bs = x :: l :=
      exists_cons_of_ne_nil (splitOnP_ne_nil _ _)
    simp only [splitOn, cons_append] at ih ⊢
    rw [splitOnP_cons_eq_if_modifyHead, splitOnP_cons_eq_if_modifyHead, ih, hl]
    split <;> rfl

/-- Every byte that is no separator lies in one of the pieces. -/
theorem mem_splitOn {b : UInt8} {s : Bytes} (hb : b ∈ s) (hne : b ≠ sep) :
    ∃ c ∈ s.splitOn sep, b ∈ c := by
  induction s with
  | nil => simp at hb
  | cons x xs ih =>
    simp only [splitOn] at ih ⊢
    rw [splitOnP_cons_eq_if_modifyHead]
    by_cases hx : x = sep
    · have hxs : b ∈ xs := by
        rcases mem_cons.mp hb with h | h
        · exact absurd (h.trans hx) hne
        · exact h
      obtain ⟨c, hc, hbc⟩ := ih hxs
      exact ⟨c, by simp [hx, hc], hbc⟩
    · obtain ⟨h, t, ht⟩ : ∃ h t, splitOnP (· == sep) xs = h :: t :=
        exists_cons_of_ne_nil (splitOnP_ne_nil _ _)
      rw [ht] at ih ⊢
      simp only [beq_iff_eq, hx, if_false, modifyHead_cons]
      rcases mem_cons.mp hb with rfl | hxs
      · exact ⟨b :: h, mem_cons_self, mem_cons_self⟩
      obtain ⟨c, hc, hbc⟩ := ih hxs
      rcases mem_cons.mp hc with rfl | hc
      · exact ⟨x :: c, mem_cons_self, mem_cons_of_mem _ hbc⟩
      · exact ⟨c, mem_cons_of_mem _ hc, hbc⟩

/-! ## §5. Decoding UTF-8. -/

/-- `core::str::from_utf8`: the same bytes, when they are valid UTF-8. -/
def fromUtf8 (bytes : Bytes) : Option Bytes :=
  if bytes.toByteArray.validateUTF8 then some bytes else none

/-- ASCII is valid UTF-8. -/
theorem fromUtf8_of_isAscii {s : Bytes} (h : ∀ b ∈ s, isAscii b = true) : fromUtf8 s = some s := by
  have hone : ∀ x : UInt8, isAscii x = true → [x].toByteArray.IsValidUTF8 := by
    intro x hx
    have hc : (Char.ofUInt8 x).utf8Size = 1 ∧ (Char.ofUInt8 x).toUInt8 = x :=
      forall_uint8 (p := fun x => isAscii x = true →
        (Char.ofUInt8 x).utf8Size = 1 ∧ (Char.ofUInt8 x).toUInt8 = x) (by decide +kernel) x hx
    have := ByteArray.isValidUTF8_empty.push hc.1
    rwa [hc.2] at this
  have hv : s.toByteArray.IsValidUTF8 := by
    induction s with
    | nil => exact ByteArray.isValidUTF8_empty
    | cons x xs ih =>
      have hxs := ih (fun b hb => h b (mem_cons_of_mem _ hb))
      rw [← singleton_append, toByteArray_append]
      exact (hone x (h x mem_cons_self)).append hxs
  simp [fromUtf8, ByteArray.validateUTF8_eq_true_iff.mpr hv]

theorem fromUtf8_eq_some {s t : Bytes} (h : fromUtf8 s = some t) : t = s := by
  unfold fromUtf8 at h
  split at h
  · exact (Option.some.inj h).symm
  · simp at h

end GenOS.Lib
