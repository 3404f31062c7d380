/-
  GenOS.Vfs.PathPolicy — console text and the canonical pathname policy.

  Translates `console_text.rs` (`FixedText`) and `path_policy.rs`.  Paths are
  the bytes of a `&str`.  An absolute path is a slash followed by nonempty
  ASCII components; a user-writable path additionally lies below `/USER/` in
  any letter case.

  The second half studies `canonicalUserPath`, the spelling the snapshot
  format stores: it replaces the first six bytes by `/USER/`, is equal to the
  path up to case, and stays valid.
-/
import GenOS.Lib.Ascii

namespace GenOS.Vfs

open GenOS.Lib List

/-! ## §1. Bounded console text. -/

/-- `MAX_LINE_BYTES`. -/
def maxLineBytes : Nat := 160

/-- `FixedText`: at most 160 bytes, all of them ASCII because `push_str`
replaces every other byte by a question mark. -/
@[ext] structure FixedText where
  bytes : Bytes
  fits : bytes.length ≤ maxLineBytes
  allAscii : ∀ b ∈ bytes, isAscii b = true
  deriving DecidableEq

namespace FixedText

def empty : FixedText := ⟨[], Nat.zero_le _, by simp⟩

/-- The byte `push_str` stores for an input byte. -/
def stored (b : UInt8) : UInt8 := if isAscii b then b else '?'.toUInt8

theorem stored_isAscii (b : UInt8) : isAscii (stored b) = true := by
  unfold stored
  split
  · assumption
  · decide

variable (t : FixedText)

/-- `push_str`: appends until the line is full. -/
def pushStr (text : Bytes) : FixedText where
  bytes := t.bytes ++ (text.map stored).take (maxLineBytes - t.bytes.length)
  fits := by
    have := t.fits
    simp only [List.length_append, List.length_take, List.length_map]
    omega
  allAscii := by
    intro b hb
    rcases List.mem_append.mp hb with h | h
    · exact t.allAscii b h
    · obtain ⟨x, -, rfl⟩ := List.mem_map.mp (List.mem_of_mem_take h)
      exact stored_isAscii x

/-- `from_str`. -/
def fromStr (text : Bytes) : FixedText := empty.pushStr text

/-- `as_str`. The stored bytes are ASCII, so decoding them cannot fail. -/
def asStr : Bytes := t.bytes

def len : Nat := t.bytes.length

/-- ASCII text that fits is stored unchanged. -/
theorem pushStr_asStr {text : Bytes} (hl : t.len + text.length ≤ maxLineBytes)
    (ha : ∀ b ∈ text, isAscii b = true) : (t.pushStr text).asStr = t.asStr ++ text := by
  have hmap : text.map stored = text := by
    conv_rhs => rw [← map_id text]
    apply map_congr_left
    intro b hb
    simp [stored, ha b hb]
  show t.bytes ++ (text.map stored).take (maxLineBytes - t.len) = t.bytes ++ text
  rw [hmap, take_of_length_le (by omega)]

theorem fromStr_asStr {text : Bytes} (hl : text.length ≤ maxLineBytes)
    (ha : ∀ b ∈ text, isAscii b = true) : (fromStr text).asStr = text :=
  pushStr_asStr empty (by simpa [len, empty] using hl) ha

end FixedText

/-! ## §2. The policy. -/

/-- `USER_PATH_MAX`. -/
def userPathMax : Nat := 64

def slash : UInt8 := '/'.toUInt8

/-- The path `/`. -/
def rootPath : Bytes := ascii ['/']

/-- The path `/USER`. -/
def userRoot : Bytes := ascii ['/', 'U', 'S', 'E', 'R']

/-- `USER_WRITABLE_PREFIX`, the text `/USER/`. -/
def userWritablePrefix : Bytes := ascii ['/', 'U', 'S', 'E', 'R', '/']

/-- The bytes `valid_name` admits. -/
def nameByte (b : UInt8) : Bool :=
  isAsciiAlphanumeric b || b == '.'.toUInt8 || b == '_'.toUInt8 || b == '-'.toUInt8

/-- `valid_name`. -/
def validName (name : Bytes) : Bool :=
  !name.isEmpty && decide (name.length ≤ userPathMax) && name != ascii ['.']
    && name != ascii ['.', '.'] && name.all nameByte

/-- `valid_absolute_path`. -/
def validAbsolutePath (path : Bytes) : Bool :=
  decide (path.length ≤ userPathMax) &&
    (path == rootPath ||
      match path with
      | b :: rest => b == slash && (rest.splitOn slash).all validName
      | [] => false)

/-- `paths_equal`. -/
def pathsEqual (left right : Bytes) : Bool := eqIgnoreAsciiCase left right

/-- `is_user_writable_path`. -/
def isUserWritablePath (path : Bytes) : Bool :=
  validAbsolutePath path && decide (userWritablePrefix.length < path.length)
    && pathsEqual (path.take userWritablePrefix.length) userWritablePrefix

/-- `is_user_writable_directory`. -/
def isUserWritableDirectory (path : Bytes) : Bool :=
  pathsEqual path userRoot || isUserWritablePath path

/-- `join_child_path`.  The lengths are at most 160, so `checked_add` does not fail. -/
def joinChildPath (parent name : FixedText) : Option FixedText :=
  if validAbsolutePath parent.asStr = false ∨ validName name.asStr = false then none
  else
    let separator := if parent.asStr = rootPath then [] else [slash]
    let length := parent.len + separator.length + name.len
    if userPathMax < length then none
    else
      let target := (parent.pushStr separator).pushStr name.asStr
      if target.len = length then some target else none

/-! ## §3. What a valid path looks like. -/

theorem slash_fold (b : UInt8) : toAsciiLower b = slash ↔ b = slash :=
  toAsciiLower_eq_iff_of_not_letter (by decide +kernel) b

theorem nameByte_isAscii (b : UInt8) : nameByte b = true → isAscii b = true :=
  forall_uint8 (p := fun b => nameByte b = true → isAscii b = true) (by decide +kernel) b

theorem validName_iff (name : Bytes) :
    validName name = true ↔ name ≠ [] ∧ name.length ≤ userPathMax ∧ name ≠ ascii ['.']
      ∧ name ≠ ascii ['.', '.'] ∧ ∀ b ∈ name, nameByte b = true := by
  simp [validName, and_assoc]

/-- A path is valid when it is short and is `/`, or a slash followed by
valid components. -/
theorem validAbsolutePath_iff (path : Bytes) :
    validAbsolutePath path = true ↔ path.length ≤ userPathMax ∧
      (path = rootPath ∨ ∃ rest, path = slash :: rest ∧
        ∀ c ∈ rest.splitOn slash, validName c = true) := by
  unfold validAbsolutePath
  cases path with
  | nil => simp [rootPath, ascii]
  | cons b rest => simp [and_assoc]

variable {path : Bytes}

section

variable (h : validAbsolutePath path = true)

include h

theorem validAbsolutePath_isAscii : ∀ b ∈ path, isAscii b = true := by
  intro b hb
  obtain ⟨-, hroot | ⟨rest, rfl, hrest⟩⟩ := (validAbsolutePath_iff path).mp h
  · subst hroot
    simp only [rootPath, ascii, map_cons, map_nil, mem_singleton] at hb
    subst hb
    decide
  · by_cases hs : b = slash
    · subst hs; decide
    · have hb' : b ∈ rest := by
        rcases mem_cons.mp hb with h | h
        · exact absurd h hs
        · exact h
      obtain ⟨c, hc, hbc⟩ := mem_splitOn hb' hs
      exact nameByte_isAscii b (((validName_iff c).mp (hrest c hc)).2.2.2.2 b hbc)

theorem validAbsolutePath_length :
    path.length ≤ userPathMax := ((validAbsolutePath_iff path).mp h).1

/-- A valid path is stored unchanged in a `FixedText`. -/
theorem fromStr_validPath : (FixedText.fromStr path).asStr = path :=
  FixedText.fromStr_asStr
    (Nat.le_trans (validAbsolutePath_length h) (by decide)) (validAbsolutePath_isAscii h)

end

/-! ## §4. Canonical user paths. -/

/-- The spelling stored in a snapshot: the first six bytes become `/USER/`. -/
def canonicalUserPath (path : Bytes) : Bytes := userWritablePrefix ++ path.drop 6

theorem isUserWritablePath_iff (path : Bytes) :
    isUserWritablePath path = true ↔ validAbsolutePath path = true ∧ 6 < path.length
      ∧ foldCase (path.take 6) = foldCase userWritablePrefix := by
  have h6 : userWritablePrefix.length = 6 := rfl
  simp [isUserWritablePath, pathsEqual, h6, eqIgnoreAsciiCase_iff, and_assoc]

section

variable (h : isUserWritablePath path = true)

include h

theorem isUserWritablePath_valid :
    validAbsolutePath path = true := ((isUserWritablePath_iff path).mp h).1

theorem canonicalUserPath_length : (canonicalUserPath path).length = path.length := by
  have h6 : userWritablePrefix.length = 6 := rfl
  have := ((isUserWritablePath_iff path).mp h).2.1
  simp only [canonicalUserPath, length_append, length_drop]
  omega

/-- Canonicalisation only changes letter case. -/
theorem foldCase_canonicalUserPath : foldCase (canonicalUserPath path) = foldCase path := by
  have hp := ((isUserWritablePath_iff path).mp h).2.2
  rw [canonicalUserPath, foldCase_append, ← hp, ← foldCase_append, take_append_drop]

/-- A user-writable path is `/`, four letters `user` in some case, `/`, and
valid components. -/
theorem userWritable_split :
    ∃ u rest, path = slash :: (u ++ slash :: rest) ∧ u.length = 4 ∧ slash ∉ u
      ∧ ∀ c ∈ rest.splitOn slash, validName c = true := by
  obtain ⟨hv, hlen, hfold⟩ := (isUserWritablePath_iff path).mp h
  obtain ⟨-, hroot | ⟨tail, rfl, htail⟩⟩ := (validAbsolutePath_iff path).mp hv
  · subst hroot
    simp [rootPath, ascii] at hlen
  · -- name the first five bytes of the tail
    obtain ⟨a, b, c, d, e, rest, rfl⟩ : ∃ a b c d e rest,
        tail = a :: b :: c :: d :: e :: rest := by
      match tail, hlen with
      | a :: b :: c :: d :: e :: rest, _ => exact ⟨a, b, c, d, e, rest, rfl⟩
    have hfold' : [toAsciiLower slash, toAsciiLower a, toAsciiLower b, toAsciiLower c,
        toAsciiLower d, toAsciiLower e] = foldCase userWritablePrefix := hfold
    have hpre : foldCase userWritablePrefix
        = ascii ['/', 'u', 's', 'e', 'r', '/'] := by decide
    rw [hpre] at hfold'
    simp only [ascii, map_cons, map_nil, List.cons.injEq, and_true] at hfold'
    obtain ⟨-, ha, hb, hc, hd, he⟩ := hfold'
    have he' : e = slash := (slash_fold e).mp he
    have hno : slash ∉ [a, b, c, d] := by
      intro hs
      simp only [mem_cons, not_mem_nil, or_false] at hs
      rcases hs with rfl | rfl | rfl | rfl
      · revert ha; decide
      · revert hb; decide
      · revert hc; decide
      · revert hd; decide
    refine ⟨[a, b, c, d], rest, by simp [he'], rfl, hno, ?_⟩
    intro x hx
    apply htail x
    have : a :: b :: c :: d :: e :: rest = [a, b, c, d] ++ slash :: rest := by simp [he']
    rw [this, splitOn_append_sep hno]
    exact mem_cons_of_mem _ hx

/-- The canonical spelling of a user-writable path is again user-writable. -/
theorem canonicalUserPath_writable : isUserWritablePath (canonicalUserPath path) = true := by
  obtain ⟨u, rest, hpath, hu, -, hrest⟩ := userWritable_split h
  obtain ⟨hv, hlen, -⟩ := (isUserWritablePath_iff path).mp h
  have hcl := canonicalUserPath_length h
  have hdrop : path.drop 6 = rest := by
    rw [hpath, show (6 : Nat) = (slash :: u ++ [slash]).length by simp [hu],
      show slash :: (u ++ slash :: rest) = (slash :: u ++ [slash]) ++ rest by simp,
      drop_left]
  have hno : slash ∉ ascii ['U', 'S', 'E', 'R'] := by decide
  have hcanon : canonicalUserPath path = slash :: (ascii ['U', 'S', 'E', 'R'] ++ slash :: rest) := by
    rw [canonicalUserPath, hdrop]
    rfl
  refine (isUserWritablePath_iff _).mpr ⟨?_, by omega, ?_⟩
  · refine (validAbsolutePath_iff _).mpr
      ⟨by rw [hcl]; exact validAbsolutePath_length hv, .inr ⟨_, hcanon, ?_⟩⟩
    rw [splitOn_append_sep hno]
    intro c hc
    rcases mem_cons.mp hc with rfl | hc
    · decide
    · exact hrest c hc
  · rw [canonicalUserPath, show (6 : Nat) = userWritablePrefix.length from rfl, take_left]

end

/-! ## §5. Parents. -/

/-- The directory part `insert` and `validate_snapshot` look up. -/
def parentPath (path : Bytes) : Bytes :=
  match rfind slash path with
  | some 0 => rootPath
  | some k => path.take k
  | none => rootPath

theorem foldCase_parentPath {p q : Bytes} (h : foldCase p = foldCase q) :
    foldCase (parentPath p) = foldCase (parentPath q) := by
  unfold parentPath
  rw [rfind_congr slash_fold h]
  split
  · rfl
  · rw [foldCase_take, foldCase_take, h]
  · rfl

/-- A valid path that starts like `/USER/` continues behind that slash. -/
theorem isUserWritablePath_of_fold (hv : validAbsolutePath path = true)
    (hf : foldCase (path.take 6) = foldCase userWritablePrefix) :
    isUserWritablePath path = true := by
  have h6 : userWritablePrefix.length = 6 := rfl
  refine (isUserWritablePath_iff path).mpr ⟨hv, ?_, hf⟩
  by_contra hlen
  have hle : 6 ≤ path.length := by
    have := congrArg List.length hf
    simp only [foldCase_length, length_take, h6] at this
    omega
  obtain ⟨-, hroot | ⟨rest, rfl, hrest⟩⟩ := (validAbsolutePath_iff path).mp hv
  · subst hroot
    simp [rootPath, ascii] at hle
  · -- the sixth byte is a slash, so the last component would be empty
    have hrl : rest.length = 5 := by
      simp only [length_cons] at hlen hle
      omega
    obtain ⟨a, b, c, d, e, rfl⟩ : ∃ a b c d e, rest = [a, b, c, d, e] := by
      match rest, hrl with
      | [a, b, c, d, e], _ => exact ⟨a, b, c, d, e, rfl⟩
    have hfold : [toAsciiLower slash, toAsciiLower a, toAsciiLower b, toAsciiLower c,
        toAsciiLower d, toAsciiLower e] = ascii ['/', 'u', 's', 'e', 'r', '/'] :=
      hf.trans (by decide)
    simp only [ascii, map_cons, map_nil, List.cons.injEq, and_true] at hfold
    have he : e = slash := (slash_fold e).mp hfold.2.2.2.2.2
    have hempty : validName [] = true := by
      apply hrest
      rw [he, show [a, b, c, d, slash] = [a, b, c, d] ++ slash :: [] from rfl,
        splitOn_last _ not_mem_nil]
      simp
    exact absurd hempty (by decide)

/-- The parent of a path below `/USER/` is `/USER` or lies below it. -/
theorem parentPath_userPath (h : userWritablePrefix <+: path) :
    ∃ k, rfind slash path = some k ∧ parentPath path = path.take k
      ∧ (parentPath path = userRoot ∨ userWritablePrefix <+: parentPath path) := by
  obtain ⟨rest, rfl⟩ := h
  have hpre : userWritablePrefix ++ rest = userRoot ++ slash :: rest := rfl
  cases hr : rfind slash rest with
  | none =>
    have hk : rfind slash (userWritablePrefix ++ rest) = some 5 :=
      (rfind_eq_some_iff slash _ 5).mpr
        ⟨userRoot, rest, hpre, rfl, (rfind_eq_none_iff slash rest).mp hr⟩
    have hp : parentPath (userWritablePrefix ++ rest) = (userWritablePrefix ++ rest).take 5 := by
      rw [parentPath, hk]
      rfl
    have htake : (userRoot ++ slash :: rest).take userRoot.length = userRoot := take_left
    exact ⟨5, hk, hp, .inl (by rw [hp, hpre]; exact htake)⟩
  | some j =>
    obtain ⟨a, c, rfl, rfl, hc⟩ := (rfind_eq_some_iff slash rest j).mp hr
    have hk : rfind slash (userWritablePrefix ++ (a ++ slash :: c))
        = some (userWritablePrefix ++ a).length :=
      (rfind_eq_some_iff slash _ _).mpr ⟨userWritablePrefix ++ a, c, by simp, rfl, hc⟩
    have hp : parentPath (userWritablePrefix ++ (a ++ slash :: c)) = userWritablePrefix ++ a := by
      rw [parentPath, hk, ← append_assoc]
      exact take_left
    refine ⟨_, hk, ?_, .inr ⟨a, hp.symm⟩⟩
    rw [hp, ← append_assoc, take_left]

end GenOS.Vfs
