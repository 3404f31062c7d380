/-
  GenOS.Lib.Loops — the invariant rule for loops that may stop.

  A `for` loop over a list, run in a monad that may stop, is `List.foldlM`.
  If the invariant `I done` is kept by every round, the loop does not stop and
  ends in `I` of the whole list.
-/
import Mathlib.Data.List.Basic

namespace GenOS.Lib

/-- `done` are the elements already processed. -/
theorem foldlM_pure {α β : Type} {M : Type → Type} [Monad M] [LawfulMonad M]
    {f : β → α → M β} {l : List α} {I : List α → β → Prop} {b : β} (h₀ : I [] b)
    (hstep : ∀ done a rest b, l = done ++ a :: rest → I done b →
      ∃ b', f b a = pure b' ∧ I (done ++ [a]) b') :
    ∃ b', l.foldlM f b = pure b' ∧ I l b' := by
  have hgen : ∀ (rest done : List α) (b : β), l = done ++ rest → I done b →
      ∃ b', rest.foldlM f b = pure b' ∧ I l b' := by
    intro rest
    induction rest with
    | nil =>
      intro done b hsplit hb
      refine ⟨b, rfl, ?_⟩
      rw [hsplit, List.append_nil]
      exact hb
    | cons a rest ih =>
      intro done b hsplit hb
      obtain ⟨b', hval, hb'⟩ := hstep done a rest b hsplit hb
      rw [List.foldlM_cons, hval, pure_bind]
      exact ih (done ++ [a]) b' (by simp [hsplit]) hb'
  exact hgen l [] b rfl h₀

end GenOS.Lib
