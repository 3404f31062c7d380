/-
  GenOS.Lib.Fallible — computations that change a state and may stop early.

  A Rust method with `&mut` arguments that returns a `Result` keeps every
  assignment it made before the error.  `Fallible S E α` is exactly that: a
  function from the state to the new state and an `Except`.

  `Triple P m Q R` is the pre- and postcondition rule set for it: from a state
  in `P`, a run that returns ends in `Q` and a run that stops ends in `R`.
-/
import Mathlib.Data.List.Basic

namespace GenOS.Lib

/-- A pure computation in two stages succeeds when both stages do. -/
theorem except_bind_eq_ok {E α β : Type} {x : Except E α} {f : α → Except E β} {b : β} :
    (x >>= f) = .ok b ↔ ∃ a, x = .ok a ∧ f a = .ok b := by
  cases x with
  | error e =>
    constructor
    · intro h
      cases h
    · intro ⟨_, h, _⟩
      cases h
  | ok a =>
    constructor
    · exact fun h => ⟨a, rfl, h⟩
    intro ⟨a', ha, hf⟩
    cases ha
    exact hf

/-- A computation over a state `S` that may stop with an error `E`. -/
def Fallible (S E α : Type) := S → S × Except E α

namespace Fallible

variable {S E α β ι : Type}

instance : Monad (Fallible S E) where
  pure a := fun s => (s, .ok a)
  bind m f := fun s =>
    match m s with
    | (s', .ok a) => f a s'
    | (s', .error e) => (s', .error e)

variable {f : α → Fallible S E β}

theorem bind_ok {m : Fallible S E α} {s s' : S} {a : α} (h : m s = (s', .ok a)) :
    (m >>= f) s = f a s' := by
  show (match m s with | (s', .ok a) => f a s' | (s', .error e) => (s', .error e)) = _
  rw [h]

theorem bind_error {m : Fallible S E α} {s s' : S} {e : E} (h : m s = (s', .error e)) :
    (m >>= f) s = (s', .error e) := by
  show (match m s with | (s', .ok a) => f a s' | (s', .error e) => (s', .error e)) = _
  rw [h]

/-- Stop with an error. -/
def fail (e : E) : Fallible S E α := fun s => (s, .error e)

/-- Return a result that was computed without touching the state. -/
def ofExcept (r : Except E α) : Fallible S E α := fun s => (s, r)

/-- A `for` loop whose body may stop the computation. -/
def forEach (f : ι → Fallible S E Unit) : List ι → Fallible S E Unit
  | [] => pure ()
  | i :: is => do
    f i
    forEach f is

/-! ## Pre- and postconditions. -/

/-- From a state in `P`, a run that returns `a` ends in `Q a`, a run that
stops with an error ends in `R`. -/
def Triple (P : S → Prop) (m : Fallible S E α) (Q : α → S → Prop) (R : S → Prop) : Prop :=
  ∀ s, P s →
    match m s with
    | (s', .ok a) => Q a s'
    | (s', .error _) => R s'

variable {P P' : S → Prop} {Q Q' : α → S → Prop} {R R' : S → Prop} {m : Fallible S E α}

theorem Triple.ok (h : Triple P m Q R) {s s' : S} {a : α} (hs : P s) (hm : m s = (s', .ok a)) :
    Q a s' := by
  have := h s hs
  rw [hm] at this
  exact this

theorem Triple.error (h : Triple P m Q R) {s s' : S} {e : E} (hs : P s)
    (hm : m s = (s', .error e)) : R s' := by
  have := h s hs
  rw [hm] at this
  exact this

theorem Triple.intro (hok : ∀ s s' a, P s → m s = (s', .ok a) → Q a s')
    (herr : ∀ s s' e, P s → m s = (s', .error e) → R s') : Triple P m Q R := by
  intro s hs
  rcases hm : m s with ⟨s', _ | _⟩
  · exact herr s s' _ hs hm
  · exact hok s s' _ hs hm

theorem Triple.conseq (h : Triple P m Q R) (hP : ∀ s, P' s → P s)
    (hQ : ∀ a s, Q a s → Q' a s) (hR : ∀ s, R s → R' s) : Triple P' m Q' R' :=
  .intro (fun s s' a hs hm => hQ a s' (h.ok (hP s hs) hm))
    (fun s s' _ hs hm => hR s' (h.error (hP s hs) hm))

theorem Triple.pure {a : α} (h : ∀ s, P s → Q a s) :
    Triple P (Pure.pure a : Fallible S E α) Q R := fun s hs => h s hs

theorem Triple.bind {Q₂ : β → S → Prop} (hm : Triple P m Q R) (hf : ∀ a, Triple (Q a) (f a) Q₂ R) :
    Triple P (m >>= f) Q₂ R := by
  intro s hs
  rcases h : m s with ⟨s', e | a⟩
  · rw [bind_error h]
    exact hm.error hs h
  · rw [bind_ok h]
    exact hf a s' (hm.ok hs h)

theorem Triple.ofExcept {r : Except E α} (hok : ∀ s a, P s → r = .ok a → Q a s)
    (herr : ∀ s e, P s → r = .error e → R s) :
    Triple P (.ofExcept r : Fallible S E α) Q R := by
  intro s hs
  cases r with
  | ok a => exact hok s a hs rfl
  | error e => exact herr s e hs rfl

/-- The loop rule: `I done` holds once the elements `done` have been processed. -/
theorem Triple.forEach {f : ι → Fallible S E Unit} {I : List ι → S → Prop} {l : List ι}
    (h : ∀ done i rest, l = done ++ i :: rest →
      Triple (I done) (f i) (fun _ => I (done ++ [i])) R) :
    Triple (I []) (forEach f l) (fun _ => I l) R := by
  have hgen : ∀ (rest done : List ι), l = done ++ rest →
      Triple (I done) (.forEach f rest) (fun _ => I l) R := by
    intro rest
    induction rest with
    | nil =>
      intro done hsplit
      refine .pure (fun s hs => ?_)
      rw [hsplit, List.append_nil]
      exact hs
    | cons i rest ih =>
      intro done hsplit
      refine .bind (h done i rest hsplit) (fun _ => ?_)
      exact ih (done ++ [i]) (by simp [hsplit])
  exact hgen l [] rfl

end Fallible

end GenOS.Lib
