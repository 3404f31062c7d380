/-
  GenOS.Process.RoundRobin — the round-robin schedule of `scheduler.rs`.

  A scan starts behind the slot that was selected last and visits every slot
  once.  `poll` selects the first ready slot of a scan; `wake_socket_waiters`
  wakes ready slots up to its budget and records the last of them.  A slot that
  waits `d` places ahead and is not reached has moved at least `budget` places
  closer after the pass (`Ahead.pass`), whatever the other slots do.
-/
import Mathlib.Data.Fintype.Card
import Mathlib.Data.List.Count

namespace GenOS.Process

open List

/-! ## §1. The schedule. -/

variable {N : Nat}

/-- `RoundRobin<N>`: the slot selected last. -/
structure RoundRobin (N : Nat) where
  last : Fin N

section

variable (r : RoundRobin N)

/-- `selected`: an index out of capacity changes nothing. -/
def RoundRobin.selected (index : Nat) : RoundRobin N × Bool :=
  if h : index < N then (⟨⟨index, h⟩⟩, true) else (r, false)

/-- The slot after `last` in a scan. -/
def advance (last : Fin N) : Fin N :=
  if h : last.val = N - 1 then ⟨0, by omega⟩ else ⟨last.val + 1, by omega⟩

/-- The slots that `Scan::next` yields until `remaining` is zero. -/
def visits (last : Fin N) : Nat → List (Fin N)
  | 0 => []
  | remaining + 1 => advance last :: visits (advance last) remaining

def RoundRobin.scan : List (Fin N) := visits r.last N

/-- The selection of `poll`: the first slot of the scan that is ready. -/
def poll (ready : Fin N → Bool) (r : RoundRobin N) : RoundRobin N × Option (Fin N) :=
  match r.scan.find? ready with
  | some index => ((r.selected index).1, some index)
  | none => (r, none)

/-- The loop of `wake_socket_waiters`: the slots it wakes. -/
def wakeLoop (budget : Nat) (ready : Fin N → Bool) : List (Fin N) → Nat → List (Fin N)
  | [], _ => []
  | index :: rest, woke =>
    if budget ≤ woke then []
    else if ready index then index :: wakeLoop budget ready rest (woke + 1)
    else wakeLoop budget ready rest woke

def wakeSocketWaiters (budget : Nat) (ready : Fin N → Bool) (r : RoundRobin N) :
    RoundRobin N × List (Fin N) :=
  let woken := wakeLoop budget ready r.scan 0
  match woken.getLast? with
  | some index => ((r.selected index).1, woken)
  | none => (r, woken)

/-- The schedule before pass `k`, where `ready k` are the slots that are ready then. -/
def schedule {α : Type} (pass : (Fin N → Bool) → RoundRobin N → RoundRobin N × α)
    (ready : Nat → Fin N → Bool) (r : RoundRobin N) : Nat → RoundRobin N
  | 0 => r
  | k + 1 => (pass (ready k) (schedule pass ready r k)).1

/-- What pass `k` selects or wakes. -/
def passed {α : Type} (pass : (Fin N → Bool) → RoundRobin N → RoundRobin N × α)
    (ready : Nat → Fin N → Bool) (r : RoundRobin N) (k : Nat) : α :=
  (pass (ready k) (schedule pass ready r k)).2

/-! ## §2. Scans. -/

theorem RoundRobin.selected_val (index : Fin N) : (r.selected index).1 = ⟨index⟩ := by
  rw [selected, dif_pos index.isLt]

theorem advance_val (last : Fin N) : (advance last).val = (last.val + 1) % N := by
  have hlt := last.isLt
  unfold advance
  split
  · rename_i hend
    rw [show last.val + 1 = N by omega, Nat.mod_self]
  · rw [Nat.mod_eq_of_lt (by omega)]

@[simp] theorem visits_length (last : Fin N) (n : Nat) : (visits last n).length = n := by
  induction n generalizing last with
  | zero => rfl
  | succ n ih => rw [visits, length_cons, ih]

/-- The slot `d` places behind the first one of a scan. -/
theorem visits_split {last x : Fin N} {n : Nat} {front back : List (Fin N)}
    (h : visits last n = front ++ x :: back) :
    x.val = (last.val + 1 + front.length) % N := by
  induction front generalizing last n with
  | nil =>
    cases n with
    | zero => cases h
    | succ n =>
      rw [← (List.cons.inj h).1, advance_val]
      rfl
  | cons y front ih =>
    cases n with
    | zero => cases h
    | succ n =>
      rw [ih (List.cons.inj h).2, advance_val, Nat.add_assoc, Nat.mod_add_mod, length_cons]
      congr 1
      omega

/-- `x` is `d` places ahead of the last selection. -/
structure Ahead (r : RoundRobin N) (x : Fin N) (d : Nat) : Prop where
  lt : d < N
  eq : x.val = (r.last.val + 1 + d) % N

theorem exists_ahead (x : Fin N) : ∃ d, Ahead r x d := by
  have hlast := r.last.isLt
  have hx := x.isLt
  refine ⟨(x.val + (N - 1 - r.last.val)) % N, Nat.mod_lt _ (by omega), ?_⟩
  rw [Nat.add_mod_mod, show r.last.val + 1 + (x.val + (N - 1 - r.last.val)) = x.val + N by omega,
    Nat.add_mod_right, Nat.mod_eq_of_lt hx]

theorem Ahead.split {r : RoundRobin N} {x : Fin N} {d : Nat} (h : Ahead r x d) :
    ∃ front back, r.scan = front ++ x :: back ∧ front.length = d := by
  have hin : d < r.scan.length := by
    rw [RoundRobin.scan, visits_length]
    exact h.lt
  have hlen : (r.scan.take d).length = d := length_take_of_le (Nat.le_of_lt hin)
  have hsplit : r.scan = r.scan.take d ++ r.scan[d] :: r.scan.drop (d + 1) := by
    rw [← drop_eq_getElem_cons hin, take_append_drop]
  have hx : r.scan[d] = x := by
    apply Fin.ext
    rw [visits_split hsplit, hlen, h.eq]
  exact ⟨r.scan.take d, r.scan.drop (d + 1), hx ▸ hsplit, hlen⟩

/-- **A scan visits every slot once.** -/
theorem count_scan (x : Fin N) : r.scan.count x = 1 := by
  have hmem : ∀ x, x ∈ r.scan := by
    intro x
    obtain ⟨d, hd⟩ := exists_ahead r x
    obtain ⟨front, back, hscan, -⟩ := hd.split
    rw [hscan]
    exact mem_append_right _ (mem_cons_self ..)
  have hnodup : r.scan.Nodup := by
    have hall : r.scan.toFinset = Finset.univ :=
      Finset.eq_univ_iff_forall.mpr fun x => mem_toFinset.mpr (hmem x)
    rw [← Multiset.coe_nodup, ← Multiset.toFinset_card_eq_card_iff_nodup]
    show r.scan.toFinset.card = r.scan.length
    rw [hall, Finset.card_univ, Fintype.card_fin, RoundRobin.scan, visits_length]
  exact count_eq_one_of_mem hnodup (hmem x)

end

/-! ## §3. Passes. -/

/-- A ready slot is woken, or the loop ended with a slot before it, having spent
the budget. -/
theorem wakeLoop_cases (budget : Nat) {ready : Fin N → Bool} {x : Fin N} (hready : ready x = true)
    (front back : List (Fin N)) (woke : Nat) :
    x ∈ wakeLoop budget ready (front ++ x :: back) woke
      ∨ (wakeLoop budget ready (front ++ x :: back) woke = [] ∧ budget ≤ woke)
      ∨ ∃ before y after, front = before ++ y :: after
        ∧ (wakeLoop budget ready (front ++ x :: back) woke).getLast? = some y
        ∧ budget ≤ woke + before.length + 1 := by
  induction front generalizing woke with
  | nil =>
    rw [nil_append, wakeLoop, if_pos hready]
    split
    · exact .inr (.inl ⟨rfl, by assumption⟩)
    · exact .inl (mem_cons_self ..)
  | cons z front ih =>
    rw [cons_append, wakeLoop]
    split
    · exact .inr (.inl ⟨rfl, by assumption⟩)
    rename_i hroom
    split
    · -- `z` is woken; it is the last one if the budget is spent now
      rcases ih (woke + 1) with hin | ⟨hnone, hspent⟩ | ⟨before, y, after, rfl, hlast, hspent⟩
      · exact .inl (mem_cons_of_mem z hin)
      · rw [hnone]
        exact .inr (.inr ⟨[], z, front, rfl, rfl, by omega⟩)
      · refine .inr (.inr ⟨z :: before, y, after, rfl, ?_, ?_⟩)
        · rw [getLast?_cons, hlast]
          rfl
        · rw [length_cons]
          omega
    · rcases ih woke with hin | ⟨-, hspent⟩ | ⟨before, y, after, rfl, hlast, hspent⟩
      · exact .inl hin
      · exact absurd hspent hroom
      refine .inr (.inr ⟨z :: before, y, after, rfl, hlast, ?_⟩)
      rw [length_cons]
      omega

/-- **One pass** wakes a ready slot, or brings it `budget` places closer. -/
theorem Ahead.pass {r : RoundRobin N} {x : Fin N} {d budget : Nat} (h : Ahead r x d)
    (hbudget : 1 ≤ budget) {ready : Fin N → Bool} (hready : ready x = true) :
    x ∈ (wakeSocketWaiters budget ready r).2
      ∨ ∃ d', d' + budget ≤ d ∧ Ahead (wakeSocketWaiters budget ready r).1 x d' := by
  obtain ⟨front, back, hscan, rfl⟩ := h.split
  have hcases := wakeLoop_cases budget hready front back 0
  rw [← hscan] at hcases
  unfold wakeSocketWaiters
  dsimp only
  rcases hcases with hin | ⟨-, hspent⟩ | ⟨before, y, after, rfl, hlast, hspent⟩
  · refine .inl ?_
    split <;> exact hin
  · omega
  refine .inr ⟨after.length, ?_, ?_⟩
  · rw [length_append, length_cons]
    omega
  · have hsplit : visits r.last N = before ++ y :: (after ++ x :: back) := by
      rw [← RoundRobin.scan, hscan, append_assoc]
      rfl
    have hlt := h.lt
    rw [hlast]
    dsimp only
    rw [r.selected_val]
    refine ⟨?_, ?_⟩
    · rw [length_append, length_cons] at hlt
      omega
    · rw [h.eq, visits_split hsplit, Nat.add_assoc (_ % N), Nat.mod_add_mod, length_append,
        length_cons]
      congr 1
      omega

/-! ## §4. Bounded waiting. -/

section Bounded

variable {budget : Nat} (hbudget : 1 ≤ budget) (r : RoundRobin N) (x : Fin N)
  (ready : Nat → Fin N → Bool)

include hbudget

/-- A slot that was ready in `k` passes and never woken is `k` budgets closer. -/
theorem ahead_after (k : Nat) (hready : ∀ i < k, ready i x = true)
    (hnot : ∀ i < k, x ∉ passed (wakeSocketWaiters budget) ready r i) :
    ∃ d, d + k * budget < N ∧ Ahead (schedule (wakeSocketWaiters budget) ready r k) x d := by
  induction k with
  | zero =>
    obtain ⟨d, hd⟩ := exists_ahead r x
    exact ⟨d, by rw [Nat.zero_mul]; exact hd.lt, hd⟩
  | succ k ih =>
    obtain ⟨d, hd, hahead⟩ := ih (fun i hi => hready i (by omega)) fun i hi => hnot i (by omega)
    rcases hahead.pass hbudget (hready k (Nat.lt_succ_self k)) with hin | ⟨d', hd', hnext⟩
    · exact absurd hin (hnot k (Nat.lt_succ_self k))
    refine ⟨d', ?_, hnext⟩
    rw [Nat.succ_mul]
    omega

theorem woken_within (hready : ∀ k < (N + budget - 1) / budget,
      (∀ j < k, x ∉ passed (wakeSocketWaiters budget) ready r j) → ready k x = true) :
    ∃ k < (N + budget - 1) / budget, x ∈ passed (wakeSocketWaiters budget) ready r k := by
  by_contra hnone
  have hnot : ∀ k < (N + budget - 1) / budget, x ∉ passed (wakeSocketWaiters budget) ready r k :=
    fun k hk hin => hnone ⟨k, hk, hin⟩
  obtain ⟨d, hd, -⟩ := ahead_after hbudget r x ready _
    (fun k hk => hready k hk fun j hj => hnot j (by omega)) hnot
  -- that many budgets are at least `N`
  have hceil := Nat.div_add_mod (N + budget - 1) budget
  have hmod := Nat.mod_lt (N + budget - 1) hbudget
  rw [Nat.mul_comm] at hceil
  omega

end Bounded

/-- The selection of `poll` is a pass with a budget of one. -/
theorem poll_eq_wake (ready : Fin N → Bool) (r : RoundRobin N) :
    (wakeSocketWaiters 1 ready r).1 = (poll ready r).1
      ∧ (wakeSocketWaiters 1 ready r).2 = (poll ready r).2.toList := by
  have hloop : ∀ l : List (Fin N), wakeLoop 1 ready l 0 = (l.find? ready).toList := by
    intro l
    induction l with
    | nil => rfl
    | cons z l ih =>
      rw [wakeLoop, if_neg (by decide), find?_cons]
      cases ready z with
      | true =>
        cases l <;> rfl
      | false => exact ih
  unfold wakeSocketWaiters poll
  dsimp only
  rw [hloop]
  cases r.scan.find? ready <;> exact ⟨rfl, rfl⟩

theorem schedule_poll (ready : Nat → Fin N → Bool) (r : RoundRobin N) (k : Nat) :
    schedule (wakeSocketWaiters 1) ready r k = schedule poll ready r k := by
  induction k with
  | zero => rfl
  | succ k ih =>
    rw [schedule, schedule, ih]
    exact (poll_eq_wake _ _).1

/-- **Round-robin bounded waiting.** -/
theorem round_robin_bounded_waiting (r : RoundRobin N) (x : Fin N) (ready : Nat → Fin N → Bool) :
    r.scan.count x = 1
      ∧ ((∀ k < N, ready k x = true) → ∃ k < N, passed poll ready r k = some x)
      ∧ ∀ budget, 1 ≤ budget →
        (∀ k < (N + budget - 1) / budget,
          (∀ j < k, x ∉ passed (wakeSocketWaiters budget) ready r j) → ready k x = true) →
        ∃ k < (N + budget - 1) / budget, x ∈ passed (wakeSocketWaiters budget) ready r k := by
  refine ⟨count_scan r x, fun hready => ?_, fun budget hbudget hready =>
    woken_within hbudget r x ready hready⟩
  have hone : (N + 1 - 1) / 1 = N := by rw [Nat.div_one, Nat.add_sub_cancel]
  obtain ⟨k, hk, hwoken⟩ := woken_within (Nat.le_refl 1) r x ready
    fun k hk _ => hready k (hone ▸ hk)
  rw [hone] at hk
  rw [passed, schedule_poll, (poll_eq_wake _ _).2, Option.mem_toList] at hwoken
  exact ⟨k, hk, hwoken⟩

end GenOS.Process
