/-
  GenOS.Memory.Layers — the ledger and the bitmap never disagree.

  One call has one of the effects of `Effect` (`step_effect`), and no
  assertion of the source can fail.  From it follow, for every reachable state
  and every call with any grant: both layers have the same live frames, a
  refused allocation leaks nothing, an allocated frame is zero, a released
  frame is scrubbed, and a grant that is not live has no effect.  A grant that
  was once released is never live again (`steps_spent`).
-/
import GenOS.Memory.MemoryState

namespace GenOS.Memory

open Ledger

/-! ## §1. The effect of a call. -/

section Effects

variable {words n : Nat} {m m' : MemoryState words n}

open MemoryState

/-- What a call can do, with its reply. -/
inductive Effect (m : MemoryState words n) : Call → Reply → MemoryState words n → Prop
  | owner {o m'} : Quiet m m' → Effect m .newOwner (.owner o) m'
  | refused {owner kind m'} : Quiet m m' → Effect m (.allocFrame owner kind) (.grant none) m'
  | granted {owner kind g m'} :
      Granted m owner kind g m' → Effect m (.allocFrame owner kind) (.grant (some g)) m'
  | denied {g m'} : Quiet m m' → Effect m (.freeFrame g) (.done false) m'
  | released {g r m'} : m.grants.Held g.slot r → r.grant g.slot = g →
      Released m g m' → Effect m (.freeFrame g) (.done true) m'
  | unpinned {g owner address m'} :
      Quiet m m' → Effect m (.pinMapping g owner address) (.done false) m'
  | pinned {g r owner address} : m.grants.Held g.slot r → r.grant g.slot = g →
      Effect m (.pinMapping g owner address) (.done true)
        { m with grants := m.grants.setMappedAt g.slot address }
  | kept {owner frame address} : Effect m (.retireMapping owner frame address) (.grant none) m
  | retired {g r owner frame address} : m.grants.Held g.slot r → r.grant g.slot = g →
      Effect m (.retireMapping owner frame address) (.grant (some g))
        { m with grants := m.grants.setMappedAt g.slot 0 }
  | stored {frame page} : Effect m (.store frame page) (.done true)
      { m with contents := Function.update m.contents frame page }

theorem newOwner_quiet (m : MemoryState words n) : Quiet m m.newOwner.1
    ∧ m.newOwner.1.grants.live = m.grants.live ∧ m.newOwner.1.allocator = m.allocator := by
  unfold MemoryState.newOwner Ledger.newOwner
  cases hnext : checkedSucc m.grants.nextOwner with
  | none => exact ⟨⟨rfl, rfl, rfl, rfl, Nat.le_refl _, rfl⟩, rfl, rfl⟩
  | some next =>
    refine ⟨⟨rfl, rfl, rfl, rfl, ?_, rfl⟩, rfl, rfl⟩
    show m.grants.nextOwner ≤ next
    rw [(checkedSucc_eq_some.mp hnext).1]
    exact Nat.le_succ _

/-- **Every call succeeds or is refused, and keeps the invariant.**  No
assertion of the source fails. -/
theorem step_effect (h : MemInv m) (call : Call) :
    ∃ m' reply, m.step call = some (m', reply) ∧ MemInv m' ∧ Effect m call reply m' := by
  cases call with
  | newOwner =>
    obtain ⟨hq, hlive, ha⟩ := newOwner_quiet m
    exact ⟨_, _, rfl, hq.inv h (by rw [ha]; exact h.allocator) hlive, .owner hq⟩
  | allocFrame owner kind =>
    rcases allocFrame_cases h owner kind with ⟨m', hval, hinv, hq⟩ | ⟨m', g, hval, hinv, hg⟩
    · exact ⟨m', .grant none, by simp only [step, hval], hinv, .refused hq⟩
    · exact ⟨m', .grant (some g), by simp only [step, hval], hinv, .granted hg⟩
  | freeFrame g =>
    rcases freeFrame_cases h g with hval | ⟨m', r, hr, hrg, -, hval, hinv, hrel⟩
    · refine ⟨{ m with grants := m.grants.deny }, .done false, by
        simp only [step, hval], ?_, .denied (.deny m)⟩
      exact (Quiet.deny m).inv h h.allocator rfl
    · exact ⟨m', .done true, by simp only [step, hval], hinv, .released hr hrg hrel⟩
  | pinMapping g owner address =>
    rcases bind_cases m.grants g owner address with
      hval | ⟨r, hr, hrg, -, hkind, -, haligned, -, hval⟩
    · refine ⟨{ m with grants := m.grants.deny }, .done false, by
        simp only [step, pinMapping, hval], ?_, .unpinned (.deny m)⟩
      exact (Quiet.deny m).inv h h.allocator rfl
    · refine ⟨{ m with grants := m.grants.setMappedAt g.slot address }, .done true, by
        simp only [step, pinMapping, hval], ?_, .pinned hr hrg⟩
      refine h.setMappedAt hr (fun _ => ⟨?_, haligned⟩)
      rw [← hkind, ← hrg]
      rfl
  | retireMapping owner frame address =>
    rcases retire_cases m.grants owner frame address with
      hval | ⟨g, r, hr, hrg, -, -, -, -, -, hval⟩
    · exact ⟨m, .grant none, by
        simp only [step, retireMapping, hval], h, .kept⟩
    · exact ⟨{ m with grants := m.grants.setMappedAt g.slot 0 }, .grant (some g), by
        simp only [step, retireMapping, hval],
        h.setMappedAt hr (fun hne => absurd rfl hne), .retired hr hrg⟩
  | store frame page =>
    exact ⟨_, _, rfl, ⟨h.allocator, h.grants, h.coupled⟩, .stored⟩

/-- The effect of the call that was made. -/
theorem effect_of_step (h : MemInv m) {call : Call} {reply : Reply}
    (hstep : m.step call = some (m', reply)) : MemInv m' ∧ Effect m call reply m' := by
  obtain ⟨m₁, reply₁, hstep₁, hinv, heffect⟩ := step_effect h call
  rw [hstep] at hstep₁
  cases hstep₁
  exact ⟨hinv, heffect⟩

theorem steps_inv (h : MemInv m) (hsteps : Steps m m') : MemInv m' := by
  induction hsteps with
  | refl => exact h
  | step _ hstep ih => exact (effect_of_step ih hstep).1

theorem Reachable.inv (h : MemoryState.Reachable m) : MemInv m := by
  obtain ⟨map, contents, hsteps⟩ := h
  exact steps_inv (.boot map contents) hsteps

/-! ## §2. Retired grants. -/

/-- The grant was issued before, and is not live. -/
def Spent (m : MemoryState words n) (g : Grant) : Prop :=
  g.generation < m.grants.nextGeneration ∧ m.grants.isLive g = false

theorem Quiet.isLive (hq : Quiet m m') (g : Grant) : m'.grants.isLive g = m.grants.isLive g := by
  unfold Ledger.isLive
  rw [hq.records]

theorem Quiet.spent (hq : Quiet m m') {g : Grant} (h : Spent m g) : Spent m' g := by
  refine ⟨?_, ?_⟩
  · rw [hq.generation]
    exact h.1
  · rw [hq.isLive]
    exact h.2

theorem Effect.spent {call : Call} {reply : Reply} (he : Effect m call reply m') {g : Grant}
    (h : Spent m g) : Spent m' g := by
  cases he with
  | owner hq | refused hq | denied hq | unpinned hq => exact hq.spent h
  | granted hg =>
    rename_i g'
    constructor
    · rw [hg.grants]
      exact Nat.lt_succ_of_lt h.1
    · -- the new grant has a newer generation
      rw [hg.grants, Bool.eq_false_iff]
      intro hlive
      rcases isLive_of_issue hg.admitted.lt hlive with hlive | rfl
      · rw [h.2] at hlive
        cases hlive
      · have hlt : g'.generation < m.grants.nextGeneration := h.1
        rw [hg.generation] at hlt
        exact Nat.lt_irrefl _ hlt
  | released hr _ hrel =>
    constructor
    · rw [hrel.grants]
      exact h.1
    · rw [hrel.grants, Bool.eq_false_iff]
      intro hlive
      exact Bool.noConfusion ((isLive_of_vacate hr hlive).symm.trans h.2)
  | pinned hr _ | retired hr _ => exact ⟨h.1, by rw [isLive_setMappedAt hr]; exact h.2⟩
  | kept => exact h
  | stored => exact h

/-- A retired grant stays retired. -/
theorem steps_spent (hinv : MemInv m) (hsteps : Steps m m') {g : Grant} (h : Spent m g) :
    Spent m' g := by
  induction hsteps with
  | refl => exact h
  | step hbefore hstep ih => exact (effect_of_step (steps_inv hinv hbefore) hstep).2.spent ih

theorem Effect.generation_le {call : Call} {reply : Reply} (he : Effect m call reply m') :
    m.grants.nextGeneration ≤ m'.grants.nextGeneration := by
  cases he with
  | owner hq | refused hq | denied hq | unpinned hq => exact Nat.le_of_eq hq.generation.symm
  | granted hg =>
    rw [hg.grants]
    exact Nat.le_succ _
  | released _ _ hrel =>
    rw [hrel.grants]
    exact Nat.le_refl _
  | pinned _ _ | kept | retired _ _ | stored => exact Nat.le_refl _

theorem steps_generation_le (hinv : MemInv m) (hsteps : Steps m m') :
    m.grants.nextGeneration ≤ m'.grants.nextGeneration := by
  induction hsteps with
  | refl => exact Nat.le_refl _
  | step hbefore hstep ih =>
    exact Nat.le_trans ih (effect_of_step (steps_inv hinv hbefore) hstep).2.generation_le

/-- A grant that was live and is no longer is retired for good. -/
theorem never_live_again (hinv : MemInv m) {g : Grant} (hlive : m.grants.isLive g = true)
    {m₁ m₂ : MemoryState words n} (hbefore : Steps m m₁) (hdead : m₁.grants.isLive g = false)
    (hafter : Steps m₁ m₂) : m₂.grants.isLive g = false := by
  obtain ⟨r, hr, hrg⟩ := isLive_iff.mp hlive
  have hold : g.generation < m.grants.nextGeneration := by
    rw [← hrg]
    exact hinv.grants.older hr
  have hle := steps_generation_le hinv hbefore
  exact (steps_spent (steps_inv hinv hbefore) hafter ⟨by omega, hdead⟩).2

/-! ## §3. Agreement. -/

/-- The live addresses of the ledger are the live frames of the bitmap, and no
two live grants name the same frame. -/
structure Agreement (m : MemoryState words n) : Prop where
  frames : ∀ f, (∃ g, m.grants.isLive g = true ∧ g.address = f) ↔ m.allocator.containsLive f = true
  unique : ∀ g g', m.grants.isLive g = true → m.grants.isLive g' = true →
    g.address = g'.address → g = g'

/-- The live frames, the records and the memory are the same. -/
structure Unchanged (m m' : MemoryState words n) : Prop where
  frames : ∀ f, m'.allocator.containsLive f = m.allocator.containsLive f
  records : m'.grants.records = m.grants.records
  contents : m'.contents = m.contents

structure StepSafe (m : MemoryState words n) (call : Call) (reply : Reply)
    (m' : MemoryState words n) : Prop where
  -- a refused allocation leaks no frame and no record
  refused : ∀ owner kind, call = .allocFrame owner kind → reply = .grant none → Unchanged m m'
  -- a new frame was free, is zero, and is the only change
  granted : ∀ owner kind g, call = .allocFrame owner kind → reply = .grant (some g) →
    m.allocator.containsLive g.address = false ∧ m'.grants.isLive g = true
      ∧ g.owner = owner ∧ g.kind = kind ∧ m'.contents g.address = zeroPage
      ∧ ∀ f, f ≠ g.address → m'.allocator.containsLive f = m.allocator.containsLive f
        ∧ m'.contents f = m.contents f
  -- a frame that becomes free is scrubbed
  scrubbed : ∀ f, m.allocator.containsLive f = true → m'.allocator.containsLive f = false →
    m'.contents f = zeroPage
  -- a grant that is not live frees and modifies nothing
  stale : ∀ g, m.grants.isLive g = false →
    (call = .freeFrame g ∨ ∃ owner address, call = .pinMapping g owner address) →
    reply = .done false ∧ Unchanged m m'

theorem MemInv.agreement (h : MemInv m) : Agreement m where
  frames f := by
    rw [containsLive_iff h.allocator, h.coupled f]
    exact holds_iff.symm
  unique _ _ hg hg' haddress := h.grants.grant_unique hg hg' haddress

theorem containsLive_congr (h : MemInv m) (h' : MemInv m') {f : Nat}
    (hlive : LiveAt m'.allocator f ↔ LiveAt m.allocator f) :
    m'.allocator.containsLive f = m.allocator.containsLive f := by
  rw [Bool.eq_iff_iff, containsLive_iff h.allocator, containsLive_iff h'.allocator]
  exact hlive

theorem Quiet.unchanged (hq : Quiet m m') (h : MemInv m) (h' : MemInv m') : Unchanged m m' :=
  ⟨fun f => containsLive_congr h h' (liveAt_congr hq.regions hq.allocated f), hq.records,
    hq.contents⟩

/-- A frame leaves the live set only when it is released. -/
theorem Effect.liveAt {call : Call} {reply : Reply} (he : Effect m call reply m') {f : Nat}
    (hf : LiveAt m.allocator f) : LiveAt m'.allocator f ∨ m'.contents f = zeroPage := by
  cases he with
  | owner hq => exact .inl ((liveAt_congr hq.regions hq.allocated f).mpr hf)
  | refused hq => exact .inl ((liveAt_congr hq.regions hq.allocated f).mpr hf)
  | granted hg => exact .inl ((hg.live f).mpr (.inr hf))
  | denied hq => exact .inl ((liveAt_congr hq.regions hq.allocated f).mpr hf)
  | released hr hrg hrel =>
    rename_i g r
    by_cases hfg : f = g.address
    · refine .inr ?_
      rw [hrel.contents, hfg, Function.update_self]
    · exact .inl ((hrel.live f).mpr ⟨hfg, hf⟩)
  | unpinned hq => exact .inl ((liveAt_congr hq.regions hq.allocated f).mpr hf)
  | pinned _ _ | kept | retired _ _ | stored => exact .inl hf

theorem Granted.isLive {owner : Owner} {kind : Kind} {g : Grant} (hg : Granted m owner kind g m')
    (h' : MemInv m') : m'.grants.isLive g = true := by
  refine isLive_iff.mpr ⟨_, hg.held_new h', ?_⟩
  rw [← hg.ownedBy, ← hg.ofKind]
  rfl

theorem Effect.safe {call : Call} {reply : Reply} (he : Effect m call reply m') (h : MemInv m)
    (h' : MemInv m') : StepSafe m call reply m' where
  refused := by
    intro owner kind hcall hreply
    subst hcall hreply
    cases he with
    | refused hq => exact hq.unchanged h h'
  granted := by
    intro owner kind g hcall hreply
    subst hcall hreply
    cases he with
    | granted hg =>
      refine ⟨?_, hg.isLive h', hg.ownedBy, hg.ofKind, ?_, fun f hf => ⟨?_, ?_⟩⟩
      · rw [Bool.eq_false_iff, Ne, containsLive_iff h.allocator]
        exact hg.fresh
      · rw [hg.contents, Function.update_self]
      · refine containsLive_congr h h' ?_
        rw [hg.live f, or_iff_right hf]
      · rw [hg.contents, Function.update_of_ne hf]
  scrubbed := by
    intro f hbefore hafter
    rcases he.liveAt ((containsLive_iff h.allocator).mp hbefore) with hlive | hzero
    · rw [(containsLive_iff h'.allocator).mpr hlive] at hafter
      cases hafter
    · exact hzero
  stale := by
    intro g hdead hcall
    have hlive : ∀ r, m.grants.Held g.slot r → r.grant g.slot ≠ g := by
      intro r hr hrg
      rw [isLive_iff.mpr ⟨r, hr, hrg⟩] at hdead
      cases hdead
    rcases hcall with rfl | ⟨owner, address, rfl⟩
    · cases he with
      | denied hq => exact ⟨rfl, hq.unchanged h h'⟩
      | released hr hrg _ => exact absurd hrg (hlive _ hr)
    · cases he with
      | unpinned hq => exact ⟨rfl, hq.unchanged h h'⟩
      | pinned hr hrg => exact absurd hrg (hlive _ hr)

/-- **The two memory layers agree.**  In every reachable state, for any call
with any owner and any grant: no assertion fails, the layers agree after the
call, and the call is safe.  A grant that is no longer live never becomes live
again. -/
theorem layers_agree (h : MemoryState.Reachable m) :
    Agreement m
      ∧ (∀ call, ∃ m' reply, m.step call = some (m', reply) ∧ Agreement m'
        ∧ StepSafe m call reply m')
      ∧ ∀ g m₁ m₂, m.grants.isLive g = true → Steps m m₁ → m₁.grants.isLive g = false →
        Steps m₁ m₂ → m₂.grants.isLive g = false := by
  have hinv := Reachable.inv h
  refine ⟨hinv.agreement, fun call => ?_, fun g m₁ m₂ hlive hbefore hdead hafter =>
    never_live_again hinv hlive hbefore hdead hafter⟩
  obtain ⟨m', reply, hstep, hinv', heffect⟩ := step_effect hinv call
  exact ⟨m', reply, hstep, hinv'.agreement, heffect.safe hinv hinv'⟩

end Effects

/-- Three usable pages from `0x1000` on. -/
def threePages : MemoryState 1 4 := MemoryState.boot [⟨0x1000, 0x3000, .usable⟩] (fun _ => zeroPage)

theorem layers_agree_threePages :
    ∃ m' g, threePages.step (.allocFrame ⟨1⟩ .user) = some (m', .grant (some g))
      ∧ g.address = 0x1000 ∧ MemoryState.Reachable m' ∧ Agreement m' := by
  have hreply : (threePages.step (.allocFrame ⟨1⟩ .user)).map Prod.snd
      = some (.grant (some ⟨0x1000, 1, ⟨1⟩, 0, .user⟩)) := by decide +kernel
  obtain ⟨⟨m', reply⟩, hstep, rfl⟩ := Option.map_eq_some_iff.mp hreply
  have hreach : MemoryState.Reachable m' := ⟨_, _, .step (.refl _) hstep⟩
  exact ⟨m', _, hstep, rfl, hreach, (layers_agree hreach).1⟩

end GenOS.Memory
