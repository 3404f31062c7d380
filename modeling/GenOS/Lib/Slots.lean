/-
  GenOS.Lib.Slots — fixed tables of optional entries.

  An array `[Option<T>; N]` that is filled at its first free slot and emptied
  slot by slot.  The executable operations are those such code writes
  (`position`, `iter().flatten()`, `find`, a loop over the slots).  For the
  proofs a table is its `bag`, the multiset of its entries: filling a free slot
  adds one element, emptying a slot removes one, and no proof looks at the order
  of the slots again.
-/
import Mathlib.Algebra.Order.Group.Multiset
import Mathlib.Data.List.FinRange
import Mathlib.Logic.Function.Basic

namespace GenOS.Lib

open List Function

/-- `[Option<T>; N]`. -/
abbrev Slots (n : Nat) (α : Type) := Fin n → Option α

namespace Slots

variable {n : Nat} {α β : Type}

/-! ## §1. Operations. -/

/-- `[None; N]`. -/
def empty : Slots n α := fun _ => none

section

variable (t : Slots n α)

/-- `self[slot] = Some(x)`. -/
def put (slot : Fin n) (x : α) : Slots n α := Function.update t slot (some x)

/-- `self[slot] = None`. -/
def drop (slot : Fin n) : Slots n α := Function.update t slot none

/-- `iter().position(Option::is_none)`. -/
def firstFree : Option (Fin n) :=
  (List.finRange n).find? fun slot => (t slot).isNone

/-- `iter().position(|entry| entry.is_some_and(p))`. -/
def position (p : α → Bool) : Option (Fin n) :=
  (List.finRange n).find? fun slot => (t slot).any p

/-- `iter().flatten()`. -/
def values : List α := (List.finRange n).filterMap t

/-- `iter().flatten().find(p)`. -/
def find (p : α → Bool) : Option α := t.values.find? p

/-- Every entry replaced by its image. -/
def map (f : α → β) (t : Slots n α) : Slots n β := fun slot => (t slot).map f

/-- The entries, in no order. -/
def bag : Multiset α := t.values

end

/-! ## §2. Reading. -/

variable {t : Slots n α} {slot : Fin n} {x : α} {p : α → Bool}

@[simp] theorem put_self (t : Slots n α) (slot : Fin n) (x : α) : t.put slot x slot = some x :=
  update_self ..

theorem put_of_ne {other : Fin n} (h : other ≠ slot) : t.put slot x other = t other :=
  update_of_ne h ..

theorem put_eq_self (h : t slot = some x) : t.put slot x = t :=
  update_eq_self_iff.mpr h.symm

@[simp] theorem drop_self (t : Slots n α) (slot : Fin n) : t.drop slot slot = none :=
  update_self ..

theorem drop_of_ne {other : Fin n} (h : other ≠ slot) : t.drop slot other = t other :=
  update_of_ne h ..

theorem put_drop (t : Slots n α) (slot : Fin n) (x : α) :
    (t.drop slot).put slot x = t.put slot x :=
  update_idem ..

theorem firstFree_some (h : t.firstFree = some slot) : t slot = none := by
  simpa using find?_some h

theorem position_some (h : t.position p = some slot) : ∃ x, t slot = some x ∧ p x = true := by
  have := find?_some h
  rwa [Option.any_eq_true] at this

theorem position_none (h : t.position p = none) (hx : t slot = some x) : p x = false := by
  have := find?_eq_none.mp h slot (mem_finRange slot)
  rw [hx] at this
  simpa using this

theorem mem_values : x ∈ t.values ↔ ∃ slot, t slot = some x := by
  unfold values
  rw [mem_filterMap]
  exact ⟨fun ⟨slot, _, h⟩ => ⟨slot, h⟩, fun ⟨slot, h⟩ => ⟨slot, mem_finRange slot, h⟩⟩

theorem mem_bag : x ∈ t.bag ↔ ∃ slot, t slot = some x := mem_values

/-- `find` is the entry at `position`. -/
theorem find_eq_position (t : Slots n α) (p : α → Bool) : t.find p = (t.position p).bind t := by
  unfold find position values
  induction List.finRange n with
  | nil => rfl
  | cons slot slots ih =>
    rw [find?_cons, filterMap_cons]
    cases hx : t slot with
    | none => exact ih
    | some x =>
      show List.find? p (x :: _) = Option.bind (match p x with | true => _ | false => _) t
      rw [find?_cons]
      cases p x with
      | true => exact hx.symm
      | false => exact ih

/-- Replacing an entry by one that answers the test alike moves nothing. -/
theorem position_put (h : (t slot).any p = p x) : (t.put slot x).position p = t.position p := by
  unfold position
  congr 1
  funext other
  by_cases hother : other = slot
  · rw [hother, put_self, h]
    rfl
  · rw [put_of_ne hother]

theorem find_put_self {y : α} (h : t.position p = some slot) (hy : p y = true) :
    (t.put slot y).find p = some y := by
  obtain ⟨x, hx, hmatch⟩ := position_some h
  have hsame : (t slot).any p = p y := by
    rw [hx, hy]
    exact hmatch
  rw [find_eq_position, position_put hsame, h]
  exact put_self ..

theorem find_put_other {y : α} (hx : t slot = some x) (hold : p x = false) (hnew : p y = false) :
    (t.put slot y).find p = t.find p := by
  have hsame : (t slot).any p = p y := by
    rw [hx, hnew]
    exact hold
  rw [find_eq_position, find_eq_position, position_put hsame]
  cases hpos : t.position p with
  | none => rfl
  | some other =>
    have hother : other ≠ slot := by
      rintro rfl
      obtain ⟨x', hx', hmatch⟩ := position_some hpos
      rw [hx] at hx'
      cases hx'
      rw [hold] at hmatch
      cases hmatch
    exact put_of_ne hother

/-! ## §3. The bag of a changed table. -/

/-- A list without repetitions is split at one of its elements. -/
theorem split_finRange (slot : Fin n) : ∃ before after : List (Fin n),
    List.finRange n = before ++ slot :: after ∧ slot ∉ before ∧ slot ∉ after := by
  obtain ⟨before, after, h⟩ := append_of_mem (mem_finRange slot)
  have hnodup := nodup_finRange n
  rw [h, nodup_append, nodup_cons] at hnodup
  exact ⟨before, after, h, fun hmem => hnodup.2.2 slot hmem slot (mem_cons_self ..) rfl,
    hnodup.2.1.1⟩

/-- A table that differs in one slot has the same entries around it. -/
theorem filterMap_update {l : List (Fin n)} (h : slot ∉ l) (o : Option α) :
    l.filterMap (update t slot o) = l.filterMap t := by
  refine filterMap_congr fun other hother => ?_
  have hne : other ≠ slot := by
    intro heq
    rw [heq] at hother
    exact h hother
  exact update_of_ne hne ..

/-- The bag is the rest of the table and the entry of one slot. -/
theorem bag_update (t : Slots n α) (slot : Fin n) :
    ∃ rest : Multiset α, ∀ o : Option α,
      Slots.bag (update t slot o) = (o.elim 0 ({·})) + rest := by
  obtain ⟨before, after, h, hbefore, hafter⟩ := split_finRange slot
  refine ⟨(before.filterMap t ++ after.filterMap t : List α), fun o => ?_⟩
  have hvalues : Slots.values (update t slot o)
      = before.filterMap t ++ (o.toList ++ after.filterMap t) := by
    unfold values
    rw [h, filterMap_append, filterMap_cons, update_self,
      filterMap_update hbefore, filterMap_update hafter]
    cases o <;> rfl
  unfold bag
  rw [hvalues]
  cases o with
  | none =>
    rw [Option.toList_none, nil_append, Option.elim_none, zero_add]
  | some x =>
    rw [Option.toList_some, Option.elim_some, Multiset.singleton_add]
    exact Multiset.coe_eq_coe.mpr perm_middle

theorem bag_put (h : t slot = none) (x : α) : (t.put slot x).bag = x ::ₘ t.bag := by
  obtain ⟨rest, hrest⟩ := t.bag_update slot
  have hold := hrest none
  rw [← h, update_eq_self, h] at hold
  rw [hold]
  exact (hrest (some x)).trans (congrArg (x ::ₘ ·) (zero_add rest).symm)

theorem bag_drop (h : t slot = some x) : t.bag = x ::ₘ (t.drop slot).bag := by
  have := bag_put (t.drop_self slot) x
  rw [put_drop] at this
  rw [← this]
  unfold put
  rw [← h, update_eq_self]

@[simp] theorem bag_empty : (empty : Slots n α).bag = 0 := by
  unfold bag values empty
  simp

end Slots

end GenOS.Lib
