/-
  GenOS.Lib.Checked — computations that return an error or panic.

  A `Checked ε α` is a value, an error that the caller sees, or a panic: a slice
  out of range or an overflow of a 64-bit word.  `Lands E x P` says that `x` does
  not panic, that a value it returns satisfies `P` and an error `E`; it has a rule
  for each operation, for sequences and for the loops over a list.
-/
import GenOS.Lib.Bytes

namespace GenOS.Lib

open List

/-- `none` is a panic. -/
abbrev Checked (ε α : Type) := ExceptT ε Option α

namespace Checked

variable {ε α β σ : Type}

def abort : Checked ε α := ExceptT.mk none

/-- Return the error unless the condition holds. -/
def require (c : Prop) [Decidable c] (error : ε) : Checked ε Unit :=
  if c then pure () else throw error

/-- `a + b`. -/
def add (a b : Nat) : Checked ε Nat := if a + b < 2 ^ 64 then pure (a + b) else abort

/-- `a - b`. -/
def sub (a b : Nat) : Checked ε Nat := if b ≤ a then pure (a - b) else abort

/-- `a.checked_add(b).ok_or(error)`. -/
def checkedAdd (a b : Nat) (error : ε) : Checked ε Nat :=
  if a + b < 2 ^ 64 then pure (a + b) else throw error

/-- `&bytes[start..stop]`. -/
def slice (bytes : Bytes) (start stop : Nat) : Checked ε Bytes :=
  if start ≤ stop ∧ stop ≤ bytes.length then pure (range bytes start stop) else abort

/-- The little-endian word of `width` bytes at an offset. -/
def wordAt (width : Nat) (bytes : Bytes) (offset : Nat) : Checked ε Nat := do
  let field ← slice bytes offset (offset + width)
  pure (leNat field)

/-- `bytes[start..start + data.len()].copy_from_slice(data)`. -/
def copyAt (bytes : Bytes) (start : Nat) (data : Bytes) : Checked ε Bytes :=
  if start + data.length ≤ bytes.length then
    pure (bytes.take start ++ data ++ bytes.drop (start + data.length))
  else abort

/-- `is_power_of_two`. -/
def isPowerOfTwo (n : Nat) : Bool := n != 0 && n &&& (n - 1) == 0

/-- `map_err`. -/
def mapError {δ : Type} (f : ε → δ) (x : Checked ε α) : Checked δ α :=
  ExceptT.mk (x.run.map fun r => r.mapError f)

/-- The byte string after `copyAt`, byte by byte. -/
theorem getElem?_copied {bytes data : Bytes} {start : Nat} (h : start + data.length ≤ bytes.length)
    (i : Nat) :
    (bytes.take start ++ data ++ bytes.drop (start + data.length))[i]?
      = if start ≤ i ∧ i < start + data.length then data[i - start]? else bytes[i]? := by
  have htake : (bytes.take start).length = start := length_take_of_le (by omega)
  rw [append_assoc, getElem?_append, htake, getElem?_append, getElem?_take,
    getElem?_drop]
  by_cases hlow : i < start
  · rw [if_pos hlow, if_pos hlow, if_neg (by omega)]
  rw [if_neg hlow]
  by_cases hhigh : i < start + data.length
  · rw [if_pos (by omega), if_pos ⟨Nat.le_of_not_lt hlow, hhigh⟩]
  rw [if_neg (by omega), if_neg (by omega)]
  congr 1
  omega

/-- No panic; a value that is returned satisfies `P`, and an error `E`. -/
def Lands (E : ε → Prop) (x : Checked ε α) (P : α → Prop) : Prop :=
  ∃ r, x.run = some r ∧ (∀ a, r = .ok a → P a) ∧ ∀ e, r = .error e → E e

/-- No panic; a value that is returned satisfies `P`. -/
abbrev Safe (x : Checked ε α) (P : α → Prop) : Prop := Lands (fun _ => True) x P

/-- Neither panic nor error. -/
abbrev Returns (x : Checked ε α) (P : α → Prop) : Prop := Lands (fun _ => False) x P

section Rules

variable {E : ε → Prop} {P Q : α → Prop} {R : β → Prop}

theorem Lands.pure {a : α} (h : P a) : Lands E (Pure.pure a : Checked ε α) P := by
  refine ⟨.ok a, rfl, ?_, nofun⟩
  rintro b ⟨⟩
  exact h

theorem Safe.throw (error : ε) : Safe (MonadExcept.throw error : Checked ε α) P :=
  ⟨.error error, rfl, nofun, fun _ _ => trivial⟩

theorem Lands.mono {x : Checked ε α} (h : Lands E x P) (hPQ : ∀ a, P a → Q a) : Lands E x Q := by
  obtain ⟨r, hr, hP, hE⟩ := h
  exact ⟨r, hr, fun a ha => hPQ a (hP a ha), hE⟩

theorem Lands.bind {x : Checked ε α} {f : α → Checked ε β} (hx : Lands E x P)
    (hf : ∀ a, P a → Lands E (f a) R) : Lands E (x >>= f) R := by
  obtain ⟨r, hr, hP, hE⟩ := hx
  have hrun : (x >>= f).run = ExceptT.bindCont f r := by
    show (x.run >>= ExceptT.bindCont f) = _
    rw [hr]
    rfl
  cases r with
  | error e =>
    refine ⟨.error e, hrun, nofun, ?_⟩
    rintro e' ⟨⟩
    exact hE e rfl
  | ok a =>
    obtain ⟨r', hr', hR⟩ := hf a (hP a rfl)
    exact ⟨r', hrun.trans hr', hR⟩

/-- A step whose value is known. -/
theorem Lands.next {x : Checked ε α} {a : α} {f : α → Checked ε β} (hx : Lands E x (· = a))
    (hf : Lands E (f a) R) : Lands E (x >>= f) R :=
  hx.bind fun _ ha => ha ▸ hf

theorem Safe.mapError {δ : Type} {x : Checked ε α} (f : ε → δ) (h : Safe x P) :
    Safe (x.mapError f) P := by
  obtain ⟨r, hr, hP, -⟩ := h
  refine ⟨r.mapError f, ?_, ?_, fun _ _ => trivial⟩
  · show x.run.map _ = _
    rw [hr]
    rfl
  · intro a ha
    cases r with
    | error e => cases ha
    | ok b =>
      cases ha
      exact hP a rfl

theorem safe_require (c : Prop) [Decidable c] (error : ε) :
    Safe (require c error) fun _ => c := by
  unfold require
  split
  · rename_i h
    exact .pure h
  · exact .throw error

theorem safe_checkedAdd (a b : Nat) (error : ε) :
    Safe (checkedAdd a b error) fun sum => sum = a + b ∧ sum < 2 ^ 64 := by
  unfold checkedAdd
  split
  · rename_i h
    exact .pure ⟨rfl, h⟩
  · exact .throw error

theorem Lands.require {c : Prop} [Decidable c] {error : ε} {f : Unit → Checked ε β}
    (h : c → Safe (f ()) R) : Safe (Checked.require c error >>= f) R :=
  (safe_require c error).bind fun _ => h

theorem Lands.checkedAdd {a b : Nat} {error : ε} {f : Nat → Checked ε β}
    (h : a + b < 2 ^ 64 → Safe (f (a + b)) R) : Safe (Checked.checkedAdd a b error >>= f) R := by
  refine (safe_checkedAdd a b error).bind ?_
  rintro sum ⟨rfl, hsum⟩
  exact h hsum

theorem lands_add {a b : Nat} (h : a + b < 2 ^ 64) : Lands E (add a b) (· = a + b) := by
  rw [add, if_pos h]
  exact .pure rfl

theorem lands_sub {a b : Nat} (h : b ≤ a) : Lands E (sub a b) (· = a - b) := by
  rw [sub, if_pos h]
  exact .pure rfl

variable {bytes : Bytes}

theorem lands_slice {start stop : Nat} (horder : start ≤ stop) (hstop : stop ≤ bytes.length) :
    Lands E (slice bytes start stop) (· = range bytes start stop) := by
  rw [slice, if_pos ⟨horder, hstop⟩]
  exact .pure rfl

theorem lands_wordAt {width : Nat} {offset : Nat} (h : offset + width ≤ bytes.length) :
    Lands E (wordAt width bytes offset) (· = leNat (range bytes offset (offset + width))) := by
  refine (lands_slice (Nat.le_add_right _ _) h).next ?_
  exact .pure rfl

theorem lands_copyAt {start : Nat} {data : Bytes} (h : start + data.length ≤ bytes.length) :
    Lands E (copyAt bytes start data)
      (· = bytes.take start ++ data ++ bytes.drop (start + data.length)) := by
  rw [copyAt, if_pos h]
  exact .pure rfl

/-- A loop that adds to a state: what holds after each element holds at the end. -/
theorem Lands.foldlM {f : σ → α → Checked ε σ} (I : List α → σ → Prop) {l : List α} {s : σ}
    (hstep : ∀ done x rest s, l = done ++ x :: rest → I done s →
      Lands E (f s x) (I (done ++ [x])))
    (hinit : I [] s) : Lands E (l.foldlM f s) (I l) := by
  suffices hsuffix : ∀ rest done s, l = done ++ rest → I done s →
      Lands E (rest.foldlM f s) (I l) from hsuffix l [] s rfl hinit
  intro rest
  induction rest with
  | nil =>
    intro done s hl hI
    rw [append_nil] at hl
    exact .pure (hl ▸ hI)
  | cons x rest ih =>
    intro done s hl hI
    rw [foldlM_cons]
    refine (hstep done x rest s hl hI).bind fun s' hI' => ih (done ++ [x]) s' ?_ hI'
    rw [hl, append_assoc, singleton_append]

/-- A search: what a hit means holds of some element. -/
theorem Lands.anyM {p : α → Checked ε Bool} {l : List α}
    (hstep : ∀ x ∈ l, Lands E (p x) fun found => found = true → Q x) :
    Lands E (l.anyM p) fun found => found = true → ∃ x ∈ l, Q x := by
  induction l with
  | nil => exact .pure fun h => by cases h
  | cons x l ih =>
    rw [anyM_cons]
    refine (hstep x (mem_cons_self ..)).bind fun found hfound => ?_
    cases found with
    | true => exact .pure fun _ => ⟨x, mem_cons_self .., hfound rfl⟩
    | false =>
      refine (ih fun y hy => hstep y (mem_cons_of_mem x hy)).mono fun b hb h => ?_
      obtain ⟨y, hy, hQ⟩ := hb h
      exact ⟨y, mem_cons_of_mem x hy, hQ⟩

end Rules

end Checked

end GenOS.Lib
