/-
  GenOS.Lib.Medium — a block medium with a volatile write queue.

  `Media β` is what a device holds: the durable content and the writes issued
  since the last successful flush.  A crash keeps any subset of these writes
  in any order (`CrashImage`).

  `Within D W m` bounds what can be on the medium while a known set of writes
  `W` is on its way to the content `D`: every block is that of `D` or one of
  `W`.  It survives issuing a write of `W` and settling the queue, and it
  bounds every crash image (`Within.crashImage`).
-/
import Mathlib.Data.List.Perm.Subperm
import Mathlib.Logic.Function.Basic

namespace GenOS.Lib

open List Function

variable {β : Type}

/-- The content after a sequence of writes. -/
def applyWrites (m : Nat → β) (ws : List (Nat × β)) : Nat → β :=
  ws.foldl (fun m w => Function.update m w.1 w.2) m

theorem applyWrites_append (m : Nat → β) (ws : List (Nat × β)) (l : Nat) (x : β) :
    applyWrites m (ws ++ [(l, x)]) = update (applyWrites m ws) l x := by
  simp [applyWrites]

/-- A block outside the writes keeps its content. -/
theorem applyWrites_of_notMem {m : Nat → β} {ws : List (Nat × β)} {l : Nat}
    (h : ∀ w ∈ ws, w.1 ≠ l) : applyWrites m ws l = m l := by
  induction ws generalizing m with
  | nil => rfl
  | cons w ws ih =>
    show applyWrites (update m w.1 w.2) ws l = m l
    rw [ih (fun x hx => h x (mem_cons_of_mem _ hx)),
      update_of_ne (h w mem_cons_self).symm]

/-- A block all of whose writes agree holds their value. -/
theorem applyWrites_of_mem {m : Nat → β} {ws : List (Nat × β)} {l : Nat} {x : β}
    (hmem : ∃ w ∈ ws, w.1 = l) (h : ∀ w ∈ ws, w.1 = l → w.2 = x) : applyWrites m ws l = x := by
  induction ws generalizing m with
  | nil =>
    obtain ⟨w, hw, -⟩ := hmem
    exact absurd hw not_mem_nil
  | cons w ws ih =>
    show applyWrites (update m w.1 w.2) ws l = x
    by_cases hlater : ∃ w' ∈ ws, w'.1 = l
    · exact ih hlater (fun y hy => h y (mem_cons_of_mem _ hy))
    have hw : w.1 = l := by
      obtain ⟨y, hy, hyl⟩ := hmem
      rcases mem_cons.mp hy with rfl | hy
      · exact hyl
      · exact absurd ⟨y, hy, hyl⟩ hlater
    rw [applyWrites_of_notMem (fun y hy hyl => hlater ⟨y, hy, hyl⟩), ← hw,
      update_self]
    exact h w mem_cons_self hw

/-- The durable content and the writes that are not yet durable, oldest first. -/
structure Media (β : Type) where
  durable : Nat → β
  pending : List (Nat × β)

namespace Media

variable (m : Media β)

/-- What a read returns: the newest write to each block. -/
def visible : Nat → β := applyWrites m.durable m.pending

/-- Issue a write. -/
def push (lba : Nat) (data : β) : Media β :=
  { m with pending := m.pending ++ [(lba, data)] }

/-- Make every issued write durable. -/
def settle : Media β := ⟨m.visible, []⟩

/-- A content a crash can leave behind: any subset of the pending writes, in
any order. -/
def CrashImage (image : Nat → β) : Prop :=
  ∃ ws, List.Subperm ws m.pending ∧ image = applyWrites m.durable ws

theorem visible_push (lba : Nat) (data : β) :
    (m.push lba data).visible = update m.visible lba data := by
  simp [visible, push, applyWrites]

@[simp] theorem visible_settle : m.settle.visible = m.visible := rfl

/-- Without pending writes a crash changes nothing. -/
theorem CrashImage.of_clean {m : Media β} {image : Nat → β} (h : m.CrashImage image)
    (hm : m.pending = []) : image = m.durable := by
  obtain ⟨ws, hws, rfl⟩ := h
  rw [hm] at hws
  have : ws = [] := length_eq_zero_iff.mp (Nat.le_zero.mp hws.length_le)
  rw [this]
  rfl

end Media

/-- Every block is that of `D` or written by `W`, and so are the pending writes. -/
structure Within (D : Nat → β) (W : Nat → β → Prop) (m : Media β) : Prop where
  durable : ∀ l, m.durable l = D l ∨ W l (m.durable l)
  pending : ∀ w ∈ m.pending, W w.1 w.2

section Within

variable {D : Nat → β} {W : Nat → β → Prop}

theorem applyWrites_within {m : Nat → β} {ws : List (Nat × β)}
    (hm : ∀ l, m l = D l ∨ W l (m l)) (hws : ∀ w ∈ ws, W w.1 w.2) :
    ∀ l, applyWrites m ws l = D l ∨ W l (applyWrites m ws l) := by
  induction ws generalizing m with
  | nil => exact hm
  | cons w ws ih =>
    apply ih _ (fun x hx => hws x (mem_cons_of_mem _ hx))
    intro l
    show update m w.1 w.2 l = D l ∨ W l (update m w.1 w.2 l)
    by_cases hl : l = w.1
    · subst hl
      rw [update_self]
      exact .inr (hws w mem_cons_self)
    · rw [update_of_ne hl]
      exact hm l

namespace Within

variable {m : Media β}

theorem of_clean (hd : m.durable = D) (hp : m.pending = []) : Within D W m :=
  ⟨fun l => .inl (by rw [hd]), by rw [hp]; intro w hw; exact absurd hw not_mem_nil⟩

theorem push (h : Within D W m) {lba : Nat} {data : β} (hw : W lba data) :
    Within D W (m.push lba data) := by
  refine ⟨h.durable, ?_⟩
  intro w hmem
  rcases mem_append.mp hmem with hmem | hmem
  · exact h.pending w hmem
  · rw [mem_singleton.mp hmem]
    exact hw

theorem settle (h : Within D W m) : Within D W m.settle :=
  ⟨applyWrites_within h.durable h.pending, by
    intro w hw
    exact absurd hw not_mem_nil⟩

/-- **A crash leaves nothing but blocks of `D` and of `W`.** -/
theorem crashImage (h : Within D W m) {image : Nat → β} (hi : m.CrashImage image) :
    ∀ l, image l = D l ∨ W l (image l) := by
  obtain ⟨ws, hws, rfl⟩ := hi
  exact applyWrites_within h.durable (fun w hw => h.pending w (hws.subset hw))

end Within

end Within

end GenOS.Lib
