/-
  GenOS.Lib.Prior — lists whose elements are each judged against the ones
  before them.

  `AllPrior R seen l` says that walking `l` with the already seen elements
  `seen` in hand, `R` holds of every element and everything before it.  It is
  what a validating loop with a growing table checks, and what a store that
  only admits an element after inspecting its contents maintains.
-/
import Mathlib.Data.List.Basic

namespace GenOS.Lib

open List

variable {α β : Type}

/-- `R` holds of each element and the list of all elements before it. -/
def AllPrior (R : List α → α → Prop) : List α → List α → Prop
  | _, [] => True
  | seen, x :: xs => R seen x ∧ AllPrior R (seen ++ [x]) xs

variable (R : List α → α → Prop) (seen : List α)

@[simp] theorem allPrior_nil : AllPrior R seen [] :=
  trivial

@[simp] theorem allPrior_cons (x : α) (xs : List α) :
    AllPrior R seen (x :: xs) ↔ R seen x ∧ AllPrior R (seen ++ [x]) xs := Iff.rfl

theorem allPrior_append (seen a b : List α) :
    AllPrior R seen (a ++ b) ↔ AllPrior R seen a ∧ AllPrior R (seen ++ a) b := by
  induction a generalizing seen with
  | nil => simp
  | cons x xs ih => simp [ih, and_assoc]

theorem allPrior_singleton (x : α) : AllPrior R seen [x] ↔ R seen x := by simp

variable {R : List α → α → Prop}

/-- Weakening of the judgement, possibly from another table. -/
theorem AllPrior.imp {S : List α → α → Prop} {seen seen' l : List α}
    (h : ∀ t x, x ∈ l → R (seen ++ t) x → S (seen' ++ t) x) (hl : AllPrior R seen l) :
    AllPrior S seen' l := by
  induction l generalizing seen seen' with
  | nil => trivial
  | cons x xs ih =>
    obtain ⟨hx, hxs⟩ := hl
    refine ⟨?_, ih ?_ hxs⟩
    · simpa using h [] x mem_cons_self (by simpa using hx)
    intro t y hy hR
    have := h (x :: t) y (mem_cons_of_mem _ hy)
    simp only [append_assoc, singleton_append] at hR ⊢
    exact this hR

/-- The judgement on the element at a split. -/
theorem AllPrior.at_split {seen pre post : List α} {x : α} (h : AllPrior R seen (pre ++ x :: post))
    : R (seen ++ pre) x :=
  ((allPrior_append R seen pre (x :: post)).mp h).2.1

/-- What holds of an element whatever comes before it holds of all. -/
theorem AllPrior.forall {p : α → Prop} {seen l : List α} (h : AllPrior R seen l)
    (hp : ∀ s x, R s x → p x) : ∀ x ∈ l, p x := by
  intro x hx
  obtain ⟨pre, post, rfl⟩ := append_of_mem hx
  exact hp _ _ h.at_split

/-- A property of all elements is known of the ones before each element. -/
theorem AllPrior.and_prior {p : α → Prop} {seen l : List α} (h : AllPrior R seen l)
    (hseen : ∀ x ∈ seen, p x) (hl : ∀ x ∈ l, p x) :
    AllPrior (fun s x => R s x ∧ ∀ y ∈ s, p y) seen l := by
  induction l generalizing seen with
  | nil => trivial
  | cons x xs ih =>
    refine ⟨⟨h.1, hseen⟩, ih h.2 ?_ (fun y hy => hl y (mem_cons_of_mem _ hy))⟩
    intro y hy
    rcases mem_append.mp hy with hy | hy
    · exact hseen y hy
    · rw [mem_singleton.mp hy]
      exact hl x mem_cons_self

/-- A judgement that survives dropping the elements outside `p`. -/
theorem AllPrior.filter {S : List α → α → Prop} {p : α → Bool} {seen l : List α}
    (h : ∀ t x, p x = true → x ∈ l → R (seen ++ t) x → S ((seen ++ t).filter p) x)
    (hl : AllPrior R seen l) : AllPrior S (seen.filter p) (l.filter p) := by
  induction l generalizing seen with
  | nil => trivial
  | cons x xs ih =>
    obtain ⟨hx, hxs⟩ := hl
    have hrec : AllPrior S ((seen ++ [x]).filter p) (xs.filter p) := by
      refine ih (fun t y hp hy hR => ?_) hxs
      have := h (x :: t) y hp (mem_cons_of_mem _ hy)
      simp only [append_assoc, singleton_append] at hR ⊢
      exact this hR
    by_cases hp : p x = true
    · rw [filter_cons_of_pos hp]
      refine ⟨?_, by simpa [hp] using hrec⟩
      simpa using h [] x hp mem_cons_self (by simpa using hx)
    · rw [filter_cons_of_neg hp]
      simpa [hp] using hrec

/-- The judgement on a mapped list, pulled back along the map. -/
theorem allPrior_map (R : List β → β → Prop) (f : α → β) (seen l : List α) :
    AllPrior R (seen.map f) (l.map f) ↔ AllPrior (fun s x => R (s.map f) (f x)) seen l := by
  induction l generalizing seen with
  | nil => simp
  | cons x xs ih =>
    have := ih (seen ++ [x])
    simp only [map_append, map_cons, map_nil] at this
    simp only [map_cons, allPrior_cons, this]

end GenOS.Lib
