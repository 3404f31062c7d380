/-
  GenOS.Lib.Ring — ring buffers as queues.

  A ring keeps its cells in a fixed array, the index of its oldest element and
  the number of its elements.  `toList` reads the elements in order of arrival;
  `push` appends to that list and `pop` takes its head, whatever the position of
  the head in the array.
-/
import Mathlib.Algebra.GroupWithZero.Nat
import Mathlib.Data.List.FinRange
import Mathlib.Logic.Function.Basic

namespace GenOS.Lib

/-- The ring: `n` cells, the oldest element at `head`, `len` of them in use. -/
structure Ring (n : Nat) [NeZero n] (α : Type) where
  cells : Fin n → α
  head : Fin n
  len : Nat
  fits : len ≤ n

namespace Ring

variable {n : Nat} [NeZero n] {α : Type}

/-! ## §1. Operations. -/

/-- A ring without elements. -/
def empty (filler : α) : Ring n α := ⟨fun _ => filler, 0, 0, Nat.zero_le _⟩

/-- The cell `offset` places behind the head. -/
def cell (q : Ring n α) (offset : Nat) : Fin n := Fin.ofNat n (q.head.val + offset)

/-- Store one more element behind the last one. -/
def push (q : Ring n α) (x : α) (h : q.len < n) : Ring n α :=
  { q with cells := Function.update q.cells (q.cell q.len) x, len := q.len + 1, fits := h }

/-- Take the oldest element. -/
def pop (q : Ring n α) : Option (α × Ring n α) :=
  if q.len = 0 then none
  else
    some (q.cells q.head,
      { q with head := q.cell 1, len := q.len - 1, fits := Nat.le_trans (Nat.sub_le ..) q.fits })

/-! ## §2. Refinement of lists. -/

/-- The elements, oldest first. -/
def toList (q : Ring n α) : List α := (List.range q.len).map fun offset => q.cells (q.cell offset)

/-- Two offsets below the capacity name two cells. -/
theorem cell_ne (q : Ring n α) {i j : Nat} (hij : i < j) (hj : j < n) : q.cell i ≠ q.cell j := by
  intro h
  have hmod := Nat.sub_mod_eq_zero_of_mod_eq (congrArg Fin.val h).symm
  rw [Nat.add_sub_add_left, Nat.mod_eq_of_lt (by omega)] at hmod
  omega

theorem toList_push (q : Ring n α) (x : α) (h : q.len < n) :
    (q.push x h).toList = q.toList ++ [x] := by
  show (List.range (q.len + 1)).map
    (fun offset => Function.update q.cells (q.cell q.len) x (q.cell offset)) = _
  rw [List.range_succ, List.map_append, List.map_singleton, Function.update_self]
  congr 1
  -- the elements already stored are in other cells
  refine List.map_congr_left fun offset hoffset => ?_
  exact Function.update_of_ne (q.cell_ne (List.mem_range.mp hoffset) h) ..

/-- A pop fails on the empty ring only. -/
theorem pop_cases (q : Ring n α) :
    (q.pop = none ∧ q.toList = [])
      ∨ ∃ x q', q.pop = some (x, q') ∧ q.toList = x :: q'.toList := by
  obtain ⟨cells, head, len, fits⟩ := q
  cases len with
  | zero => exact .inl ⟨rfl, rfl⟩
  | succ len =>
    refine .inr ⟨_, _, rfl, ?_⟩
    show (List.range (len + 1)).map _ = _ :: (List.range len).map _
    rw [List.range_succ_eq_map, List.map_cons, List.map_map]
    -- the cells behind the head are the same, counted from the next cell
    congr 1
    · exact congrArg cells (Fin.ext (Nat.mod_eq_of_lt head.isLt))
    · refine List.map_congr_left fun offset _ => congrArg cells (Fin.ext ?_)
      show (head.val + (offset + 1)) % n = ((head.val + 1) % n + offset) % n
      rw [Nat.mod_add_mod, Nat.add_assoc, Nat.add_comm 1]

end Ring

end GenOS.Lib
