/-
  GenOS.Process.EndpointLifetime — endpoint capabilities over whole histories.

  An endpoint state and the registry it works with, under any sequence of
  `create`, `allocate`, `close`, `revoke_send_handles` and `clear`, with the
  registrations of other subsystems in between.  Two facts about one call carry
  everything: it keeps the two tables in agreement (`Sound`), and a capability
  that is there after it was there before or has a generation that was not taken
  yet (`Advances`).  A handle that was dropped has an old generation, so it never
  comes back.

  A failed call leaves both tables and what is published as they were; a
  generation that was taken before the registry refused the handle stays taken.
-/
import GenOS.Process.Holdings

namespace GenOS.Process

open GenOS.Lib Holdings Slots HandleTable.Distinct Multiset HandleTable

/-! ## §1. Generations and handles. -/

theorem lt_next {generation : BitVec 64} (h : generation ≤ endpointGenerationMax) :
    generation < generation + 1 := by
  rw [BitVec.le_def] at h
  rw [BitVec.lt_def, BitVec.toNat_add]
  have hmax : endpointGenerationMax.toNat = 4294967295 := rfl
  have hone : (1 : BitVec 64).toNat = 1 := rfl
  omega

theorem le_next {generation : BitVec 64} (h : generation ≤ endpointGenerationMax) :
    generation ≤ generation + 1 := BitVec.le_of_lt (lt_next h)

/-- A generation is read back from the middle part of a handle. -/
theorem endpointMiddle_generation {pid pid' : BitVec 8} {generation generation' : BitVec 64}
    (hgen : generation ≤ endpointGenerationMax) (hgen' : generation' ≤ endpointGenerationMax)
    (h : endpointMiddle pid generation = endpointMiddle pid' generation') :
    generation = generation' := by
  have hlt : generation.toNat < 2 ^ 32 := Nat.lt_of_le_of_lt hgen (by decide)
  have hlt' : generation'.toNat < 2 ^ 32 := Nat.lt_of_le_of_lt hgen' (by decide)
  apply BitVec.eq_of_getLsbD_eq
  intro i hi
  by_cases hhigh : 32 ≤ i
  · rw [getLsbD_of_lt_pow hlt hhigh, getLsbD_of_lt_pow hlt' hhigh]
  have hbit := congrArg (fun word => word.getLsbD (i + 8)) h
  unfold endpointMiddle at hbit
  simp only [BitVec.getLsbD_or, BitVec.getLsbD_shiftLeft,
    decide_eq_true (show i + 8 < 40 by omega), decide_eq_true (show i + 8 < 64 by omega),
    decide_eq_false (show ¬ i + 8 < 8 by omega), Nat.add_sub_cancel] at hbit
  simpa using hbit

/-- Equal handles have equal generations. -/
theorem endpointHandle_generation {pid pid' : BitVec 8} {generation generation' : BitVec 64}
    {slot slot' : Fin endpointHandleCapacity} (hgen : generation ≤ endpointGenerationMax)
    (hgen' : generation' ≤ endpointGenerationMax)
    (h : endpointHandle pid generation slot = endpointHandle pid' generation' slot') :
    generation = generation' := by
  rw [endpointHandle_packed, endpointHandle_packed] at h
  exact endpointMiddle_generation hgen hgen'
    (Packed.middle_eq (middle_endpointMiddle pid hgen) (middle_endpointMiddle pid' hgen')
      (endpoint_slot_lt slot) (endpoint_slot_lt slot') h)

/-- Equal handles are in the same slot. -/
theorem Holdings.EndpointOk.slot_eq {pid : BitVec 8} {slot slot' : Fin endpointHandleCapacity}
    {c c' : EndpointCapability} (hc : EndpointOk pid slot c) (hc' : EndpointOk pid slot' c')
    (h : c.handle = c'.handle) : slot = slot' := by
  have hslot := endpointHandleSlot_endpointHandle c.ownerPid hc.generation slot
  have hslot' := endpointHandleSlot_endpointHandle c'.ownerPid hc'.generation slot'
  rw [← hc.handle] at hslot
  rw [← hc'.handle, ← h, hslot] at hslot'
  exact Option.some.inj hslot'

namespace EndpointState

variable {n : Nat} (s : EndpointState)

theorem takeGeneration_cases :
    (endpointGenerationMax < s.nextGeneration ∧ s.takeGeneration = none)
      ∨ s.nextGeneration ≤ endpointGenerationMax
        ∧ s.takeGeneration
          = some (s.nextGeneration, { s with nextGeneration := s.nextGeneration + 1 }) := by
  unfold takeGeneration
  split
  · rename_i h
    exact .inl ⟨h, rfl⟩
  · rename_i h
    exact .inr ⟨BitVec.not_lt.mp h, rfl⟩

/-- The capability that the next allocation stores. -/
def fresh (slot : Fin endpointHandleCapacity) (role : EndpointRole) : EndpointCapability :=
  ⟨endpointHandle s.ownerPid s.nextGeneration slot, s.ownerPid, s.nextGeneration, slot, role⟩

/-- An allocation that stores its capability. -/
def grant (slot : Fin endpointHandleCapacity) (role : EndpointRole) : EndpointState :=
  { s with
    nextGeneration := s.nextGeneration + 1
    handles := s.handles.put slot (s.fresh slot role) }

variable (handles : HandleTable n)

/-- An allocation fails, possibly after it took a generation, or it stores one
capability with its entry. -/
theorem allocate_cases (role : EndpointRole) :
    s.allocate handles role = (s, handles, none)
      ∨ s.nextGeneration ≤ endpointGenerationMax
        ∧ (s.allocate handles role
            = ({ s with nextGeneration := s.nextGeneration + 1 }, handles, none)
          ∨ ∃ slot t, s.handles slot = none
            ∧ handles.register (s.fresh slot role).handle role.kind handleRightUse = (t, true)
            ∧ s.allocate handles role = (s.grant slot role, t, some (s.fresh slot role).handle)) := by
  unfold allocate
  split
  · exact .inl rfl
  rename_i slot hfree
  rcases s.takeGeneration_cases with ⟨-, htake⟩ | ⟨hmax, htake⟩
  · rw [htake]
    exact .inl rfl
  rw [htake]
  refine .inr ⟨hmax, ?_⟩
  dsimp only
  rcases register_cases handles (endpointHandle s.ownerPid s.nextGeneration slot)
      role.kind handleRightUse with hfail | ⟨t, hreg, -⟩
  · rw [hfail]
    exact .inl rfl
  · rw [hreg]
    exact .inr ⟨slot, t, firstFree_some hfree, hreg, rfl⟩

/-- Publishing is allocating a receive capability for the next generation. -/
theorem create_eq (h : s.published = none) :
    s.create handles = match s.allocate handles (.receive s.nextGeneration) with
      | (s', handles, none) => (s', handles, none)
      | (s', handles, some handle) =>
        ({ s' with published := some ⟨s.nextGeneration, ChannelQueue.new⟩ }, handles,
          some handle) := by
  unfold create allocate
  rw [h]
  dsimp only [Option.isSome_none]
  rw [if_neg Bool.false_ne_true]
  split
  · rfl
  rcases s.takeGeneration_cases with ⟨-, htake⟩ | ⟨-, htake⟩
  · rw [htake]
  rw [htake]
  dsimp only [EndpointRole.kind]
  split <;> rfl

theorem create_published {s : EndpointState} {endpoint : PublishedEndpoint}
    (h : s.published = some endpoint) (handles : HandleTable n) :
    s.create handles = (s, handles, none) := by
  unfold create
  rw [h]
  exact if_pos rfl

/-- What a resolved handle says. -/
theorem capability_some {s : EndpointState} {handles : HandleTable n} {handle : BitVec 64}
    {c : EndpointCapability} (h : s.capability handles handle = some c) :
    s.handles c.slot = some c ∧ c.handle = handle
      ∧ handles.allows handle c.role.kind handleRightUse = true := by
  unfold capability at h
  split at h
  · cases h
  rename_i slot _
  split at h
  · cases h
  rename_i c' hc'
  split at h
  · rename_i hcond
    cases h
    refine ⟨?_, hcond.1, hcond.2.2.2.2⟩
    rw [hcond.2.2.1]
    exact hc'
  · cases h

/-- A close fails without a change, or it drops one capability with its entry;
a receive capability takes the endpoint with it. -/
theorem close_cases (handle : BitVec 64) :
    s.close handles handle = (s, handles, none)
      ∨ ∃ c s' t, s.capability handles handle = some c ∧ s.unpublish c.role = some s'
        ∧ handles.unregister handle c.role.kind = (t, true)
        ∧ s.close handles handle
          = ({ s' with handles := s'.handles.drop c.slot }, t, some c.role) := by
  unfold close
  cases hc : s.capability handles handle with
  | none => exact .inl rfl
  | some c =>
    dsimp only
    cases hs : s.unpublish c.role with
    | none => exact .inl rfl
    | some s' =>
      dsimp only
      obtain ⟨-, -, hallowed⟩ := capability_some hc
      obtain ⟨e, he, hhandle, hkind, -⟩ := allows_iff.mp hallowed
      rcases handles.unregister_cases handle c.role.kind with ⟨-, hnone⟩ | ⟨t, _, ht, -⟩
      · exact absurd ⟨hhandle, hkind⟩ (hnone e he)
      · rw [ht]
        exact .inr ⟨c, s', t, rfl, hs, ht, rfl⟩

theorem revokeSlot_held {targetPid : BitVec 8} {targetGeneration : BitVec 64}
    {o : EndpointState × HandleTable n × Nat} {slot slot' : Fin endpointHandleCapacity}
    {c : EndpointCapability}
    (hc : (revokeSlot targetPid targetGeneration o slot).1.handles slot' = some c) :
    o.1.handles slot' = some c ∧ (slot' = slot → c.role ≠ .send targetPid targetGeneration) := by
  unfold revokeSlot at hc
  split at hc
  · rename_i hnone
    refine ⟨hc, fun heq => ?_⟩
    rw [heq, hnone] at hc
    cases hc
  rename_i c' hc'
  split at hc
  · by_cases hslot : slot' = slot
    · rw [hslot] at hc
      cases (drop_self o.1.handles slot).symm.trans hc
    · exact ⟨(drop_of_ne hslot).symm.trans hc, fun heq => absurd heq hslot⟩
  · rename_i hrole
    refine ⟨hc, fun heq => ?_⟩
    rw [heq, hc'] at hc
    cases hc
    exact hrole

/-- The loop of `revoke_send_handles` drops what names the endpoint and adds
nothing. -/
theorem revokeSlots_held {targetPid : BitVec 8} {targetGeneration : BitVec 64}
    (slots : List (Fin endpointHandleCapacity)) {o : EndpointState × HandleTable n × Nat}
    {slot : Fin endpointHandleCapacity} {c : EndpointCapability}
    (hc : (slots.foldl (revokeSlot targetPid targetGeneration) o).1.handles slot = some c) :
    o.1.handles slot = some c
      ∧ (slot ∈ slots → c.role ≠ .send targetPid targetGeneration) := by
  induction slots generalizing o with
  | nil => exact ⟨hc, nofun⟩
  | cons first slots ih =>
    obtain ⟨hmid, hrest⟩ := ih hc
    obtain ⟨hold, hfirst⟩ := revokeSlot_held hmid
    exact ⟨hold, fun hmem => (List.mem_cons.mp hmem).elim hfirst hrest⟩

theorem unpublish_keeps {s s' : EndpointState} {role : EndpointRole}
    (h : s.unpublish role = some s') :
    s'.handles = s.handles ∧ s'.ownerPid = s.ownerPid ∧ s'.nextGeneration = s.nextGeneration := by
  unfold unpublish at h
  split at h
  · cases h
    exact ⟨rfl, rfl, rfl⟩
  · split at h
    · cases h
    · cases h
      exact ⟨rfl, rfl, rfl⟩

end EndpointState

open EndpointState

/-! ## §2. Calls. -/

/-- An endpoint state with the registry of its process. -/
structure EndpointAuthority (n : Nat) where
  state : EndpointState
  table : HandleTable n

inductive EndpointCall where
  | create
  | allocate (role : EndpointRole)
  | close (handle : BitVec 64)
  | revoke (targetPid : BitVec 8) (targetGeneration : BitVec 64)
  | clear
  /-- Another subsystem registers a handle of its own kind. -/
  | register (handle : BitVec 64)
      (kind : { kind : HandleKind // kind ≠ .endpointReceive ∧ kind ≠ .endpointSend })
      (rights : BitVec 64)
  /-- Another subsystem removes a handle of its own kind. -/
  | unregister (handle : BitVec 64)
      (kind : { kind : HandleKind // kind ≠ .endpointReceive ∧ kind ≠ .endpointSend })

inductive EndpointReply where
  | granted (handle : BitVec 64)
  | closed (role : EndpointRole)
  | revoked (count : Nat)
  | done
  | failed
  deriving DecidableEq

namespace EndpointAuthority

variable {n : Nat}

/-- A new process: no capabilities, an empty registry. -/
def new (ownerPid : BitVec 8) : EndpointAuthority n := ⟨EndpointState.new ownerPid, Slots.empty⟩

/-- The capability a handle resolves to. -/
def resolve (a : EndpointAuthority n) (handle : BitVec 64) : Option EndpointCapability :=
  a.state.capability a.table handle

/-- One call. -/
def step (a : EndpointAuthority n) : EndpointCall → EndpointAuthority n × EndpointReply
  | .create =>
    match a.state.create a.table with
    | (s, t, handle) => (⟨s, t⟩, handle.elim .failed .granted)
  | .allocate role =>
    match a.state.allocate a.table role with
    | (s, t, handle) => (⟨s, t⟩, handle.elim .failed .granted)
  | .close handle =>
    match a.state.close a.table handle with
    | (s, t, role) => (⟨s, t⟩, role.elim .failed .closed)
  | .revoke targetPid targetGeneration =>
    match a.state.revokeSendHandles a.table targetPid targetGeneration with
    | (s, t, count) => (⟨s, t⟩, .revoked count)
  | .clear =>
    match a.state.clear a.table with
    | (s, t) => (⟨s, t⟩, .done)
  | .register handle kind rights =>
    match a.table.register handle kind rights with
    | (t, ok) => (⟨a.state, t⟩, if ok then .done else .failed)
  | .unregister handle kind =>
    match a.table.unregister handle kind with
    | (t, ok) => (⟨a.state, t⟩, if ok then .done else .failed)

/-- A sequence of calls. -/
def run (a : EndpointAuthority n) : List EndpointCall → EndpointAuthority n
  | [] => a
  | call :: calls => (a.step call).1.run calls

/-- The generations and the handles that a sequence of calls grants. -/
def grants (a : EndpointAuthority n) : List EndpointCall → List (BitVec 64 × BitVec 64)
  | [] => []
  | call :: calls =>
    match a.step call with
    | (a', .granted handle) => (a.state.nextGeneration, handle) :: a'.grants calls
    | (a', _) => a'.grants calls

/-! ## §3. What a call keeps. -/

/-- The two tables agree: every capability has its handle, a generation that was
taken, and an entry in the registry. -/
structure Sound (a : EndpointAuthority n) : Prop where
  ok : ∀ slot c, a.state.handles slot = some c → EndpointOk a.state.ownerPid slot c
  taken : ∀ slot c, a.state.handles slot = some c → c.generation < a.state.nextGeneration
  registered : ∀ slot c, a.state.handles slot = some c → endpointEntry c ∈ a.table.bag
  distinct : a.table.Distinct

/-- Time has passed: what is held was held before or has a generation that was
not taken before. -/
structure Advances (a a' : EndpointAuthority n) : Prop where
  ownerPid : a'.state.ownerPid = a.state.ownerPid
  nextGeneration : a.state.nextGeneration ≤ a'.state.nextGeneration
  held : ∀ slot c, a'.state.handles slot = some c →
    a.state.handles slot = some c ∨ a.state.nextGeneration ≤ c.generation

variable {a b c : EndpointAuthority n}

theorem Advances.refl (a : EndpointAuthority n) : Advances a a :=
  ⟨rfl, BitVec.le_refl _, fun _ _ h => .inl h⟩

theorem Advances.trans (hab : Advances a b) (hbc : Advances b c) : Advances a c where
  ownerPid := hbc.ownerPid.trans hab.ownerPid
  nextGeneration := BitVec.le_trans hab.nextGeneration hbc.nextGeneration
  held slot cap hcap := by
    rcases hbc.held slot cap hcap with hb | hlate
    · exact hab.held slot cap hb
    · exact .inr (BitVec.le_trans hab.nextGeneration hlate)

/-- A call keeps the agreement and moves forward. -/
structure Keeps (a a' : EndpointAuthority n) : Prop where
  sound : a.Sound → a'.Sound
  advances : Advances a a'

theorem Keeps.refl (a : EndpointAuthority n) : Keeps a a := ⟨id, .refl a⟩

theorem Keeps.trans (hab : Keeps a b) (hbc : Keeps b c) : Keeps a c :=
  ⟨fun h => hbc.sound (hab.sound h), hab.advances.trans hbc.advances⟩

theorem sound_new (ownerPid : BitVec 8) : (new ownerPid : EndpointAuthority n).Sound :=
  ⟨nofun, nofun, nofun, distinct_empty⟩

/-- What is published and parked does not matter to either fact. -/
theorem Keeps.of_tables (hab : Keeps a b) {s : EndpointState} (hhandles : s.handles = b.state.handles)
    (howner : s.ownerPid = b.state.ownerPid) (hnext : s.nextGeneration = b.state.nextGeneration) :
    Keeps a ⟨s, b.table⟩ := by
  refine hab.trans ⟨fun h => ⟨?_, ?_, ?_, h.distinct⟩, ⟨howner, ?_, ?_⟩⟩
  · intro slot c hc
    rw [howner]
    exact h.ok slot c (hhandles ▸ hc)
  · intro slot c hc
    rw [hnext]
    exact h.taken slot c (hhandles ▸ hc)
  · intro slot c hc
    exact h.registered slot c (hhandles ▸ hc)
  · exact hnext ▸ BitVec.le_refl _
  · intro slot c hc
    exact .inl (hhandles ▸ hc)

/-- A generation is taken for nothing. -/
theorem skip_keeps (hmax : a.state.nextGeneration ≤ endpointGenerationMax) :
    Keeps a ⟨{ a.state with nextGeneration := a.state.nextGeneration + 1 }, a.table⟩ where
  sound h := ⟨h.ok, fun slot c hc => BitVec.lt_trans (h.taken slot c hc) (lt_next hmax),
    h.registered, h.distinct⟩
  advances := ⟨rfl, le_next hmax, fun _ _ hc => .inl hc⟩

/-- A capability is stored with its entry. -/
theorem grant_keeps {slot : Fin endpointHandleCapacity} {role : EndpointRole} {t : HandleTable n}
    (hmax : a.state.nextGeneration ≤ endpointGenerationMax)
    (hreg : a.table.register (a.state.fresh slot role).handle role.kind handleRightUse = (t, true)) :
    Keeps a ⟨a.state.grant slot role, t⟩ := by
  have hcases : ∀ slot' c, (a.state.grant slot role).handles slot' = some c →
      (slot' = slot ∧ c = a.state.fresh slot role) ∨ a.state.handles slot' = some c := by
    intro slot' c hc
    by_cases hslot : slot' = slot
    · rw [hslot] at hc
      exact .inl ⟨hslot, (Option.some.inj ((put_self ..).symm.trans hc)).symm⟩
    · exact .inr ((put_of_ne hslot).symm.trans hc)
  have hbag : t.bag = endpointEntry (a.state.fresh slot role) ::ₘ a.table.bag := by
    rcases a.table.register_cases (a.state.fresh slot role).handle role.kind handleRightUse with
      hfail | ⟨t', hok, hbag, -⟩
    · rw [hreg] at hfail
      exact absurd (congrArg Prod.snd hfail) Bool.noConfusion
    · rw [hreg] at hok
      cases hok
      exact hbag
  refine ⟨fun h => ⟨?_, ?_, ?_, ?_⟩, ⟨rfl, le_next hmax, ?_⟩⟩
  · intro slot' c hc
    rcases hcases slot' c hc with ⟨rfl, rfl⟩ | hold
    · exact ⟨rfl, rfl, rfl, hmax⟩
    · exact h.ok slot' c hold
  · intro slot' c hc
    rcases hcases slot' c hc with ⟨-, rfl⟩ | hold
    · exact lt_next hmax
    · exact BitVec.lt_trans (h.taken slot' c hold) (lt_next hmax)
  · intro slot' c hc
    rw [hbag]
    rcases hcases slot' c hc with ⟨-, rfl⟩ | hold
    · exact mem_cons_self ..
    · exact mem_cons_of_mem (h.registered slot' c hold)
  · have hdistinct : (a.table.register (a.state.fresh slot role).handle role.kind
        handleRightUse).1.Distinct := register h.distinct
    rwa [hreg] at hdistinct
  · intro slot' c hc
    rcases hcases slot' c hc with ⟨-, rfl⟩ | hold
    · exact .inr (BitVec.le_refl _)
    · exact .inl hold

/-- A capability is dropped with its entry. -/
theorem drop_keeps {slot : Fin endpointHandleCapacity} {c : EndpointCapability}
    (hc : a.state.handles slot = some c) :
    Keeps a ⟨{ a.state with handles := a.state.handles.drop slot },
      (a.table.unregister c.handle c.role.kind).1⟩ := by
  have hrest : ∀ slot' c', a.state.handles.drop slot slot' = some c' →
      slot' ≠ slot ∧ a.state.handles slot' = some c' := by
    intro slot' c' hc'
    by_cases hslot : slot' = slot
    · rw [hslot, drop_self] at hc'
      cases hc'
    · exact ⟨hslot, (drop_of_ne hslot).symm.trans hc'⟩
  refine ⟨fun h => ?_, ⟨rfl, BitVec.le_refl _, fun slot' c' hc' => .inl (hrest slot' c' hc').2⟩⟩
  obtain ⟨t, ht, hbag⟩ := unregister_of_mem h.distinct (h.registered slot c hc)
  rw [show a.table.unregister c.handle c.role.kind = (t, true) from ht]
  refine ⟨fun slot' c' hc' => h.ok slot' c' (hrest slot' c' hc').2,
    fun slot' c' hc' => h.taken slot' c' (hrest slot' c' hc').2, fun slot' c' hc' => ?_,
    of_cons h.distinct hbag⟩
  -- The entry that left the registry has another handle.
  obtain ⟨hslot, hold⟩ := hrest slot' c' hc'
  have hmem := h.registered slot' c' hold
  rw [hbag] at hmem
  rcases mem_cons.mp hmem with heq | hmem
  · exact absurd ((h.ok slot' c' hold).slot_eq (h.ok slot c hc) (congrArg HandleEntry.handle heq))
      hslot
  · exact hmem

/-- What `create` and `allocate` can do. -/
inductive GrantStep (a : EndpointAuthority n) : EndpointAuthority n × EndpointReply → Prop
  | refused : GrantStep a (a, .failed)
  /-- The registry refused the handle. -/
  | skipped (hmax : a.state.nextGeneration ≤ endpointGenerationMax) : GrantStep a
      (⟨{ a.state with nextGeneration := a.state.nextGeneration + 1 }, a.table⟩, .failed)
  | granted (slot : Fin endpointHandleCapacity) (role : EndpointRole) (t : HandleTable n)
      (published : Option PublishedEndpoint)
      (hmax : a.state.nextGeneration ≤ endpointGenerationMax)
      (hreg : a.table.register (a.state.fresh slot role).handle role.kind handleRightUse
        = (t, true)) :
      GrantStep a (⟨{ a.state.grant slot role with published := published }, t⟩,
        .granted (a.state.fresh slot role).handle)

theorem allocate_step (a : EndpointAuthority n) (role : EndpointRole) :
    GrantStep a (a.step (.allocate role)) := by
  unfold step
  dsimp only
  rcases a.state.allocate_cases a.table role with
    hfail | ⟨hmax, hskip | ⟨slot, t, -, hreg, hok⟩⟩
  · rw [hfail]
    exact .refused
  · rw [hskip]
    exact .skipped hmax
  · rw [hok]
    exact .granted slot role t a.state.published hmax hreg

theorem create_step (a : EndpointAuthority n) : GrantStep a (a.step .create) := by
  unfold step
  dsimp only
  cases hold : a.state.published with
  | some endpoint =>
    rw [create_published hold]
    exact .refused
  | none =>
    rw [create_eq _ _ hold]
    rcases a.state.allocate_cases a.table (.receive a.state.nextGeneration) with
      hfail | ⟨hmax, hskip | ⟨slot, t, -, hreg, hok⟩⟩
    · rw [hfail]
      exact .refused
    · rw [hskip]
      exact .skipped hmax
    · rw [hok]
      exact .granted slot _ t _ hmax hreg

variable {o : EndpointAuthority n × EndpointReply}

theorem GrantStep.keeps (h : GrantStep a o) : Keeps a o.1 := by
  cases h with
  | refused => exact .refl a
  | skipped hmax => exact skip_keeps hmax
  | granted slot role t published hmax hreg =>
    exact (grant_keeps hmax hreg).of_tables rfl rfl rfl

section

variable (a : EndpointAuthority n)

theorem close_keeps (handle : BitVec 64) : Keeps a (a.step (.close handle)).1 := by
  unfold step
  dsimp only
  rcases a.state.close_cases a.table handle with hfail | ⟨c, s', t, hc, hs', ht, hok⟩
  · rw [hfail]
    exact .refl a
  · obtain ⟨hslot, hhandle, -⟩ := capability_some hc
    obtain ⟨hhandles, howner, hnext⟩ := unpublish_keeps hs'
    have hdrop := drop_keeps hslot
    rw [hhandle, ht] at hdrop
    rw [hok]
    exact hdrop.of_tables (congrArg (Slots.drop · c.slot) hhandles) howner hnext

theorem revokeSlot_keeps (targetPid : BitVec 8) (targetGeneration : BitVec 64)
    (o : EndpointState × HandleTable n × Nat) (slot : Fin endpointHandleCapacity) :
    Keeps ⟨o.1, o.2.1⟩ ⟨(revokeSlot targetPid targetGeneration o slot).1,
      (revokeSlot targetPid targetGeneration o slot).2.1⟩ := by
  unfold revokeSlot
  split
  · exact .refl _
  rename_i c hc
  split
  · rename_i hrole
    have hdrop := drop_keeps (a := ⟨o.1, o.2.1⟩) hc
    rw [hrole] at hdrop
    exact hdrop
  · exact .refl _

theorem revoke_keeps (targetPid : BitVec 8) (targetGeneration : BitVec 64) :
    Keeps a (a.step (.revoke targetPid targetGeneration)).1 := by
  have hloop : ∀ (slots : List (Fin endpointHandleCapacity))
      (o : EndpointState × HandleTable n × Nat),
      Keeps ⟨o.1, o.2.1⟩
        ⟨(slots.foldl (revokeSlot targetPid targetGeneration) o).1,
          (slots.foldl (revokeSlot targetPid targetGeneration) o).2.1⟩ := by
    intro slots
    induction slots with
    | nil => exact fun o => .refl _
    | cons slot slots ih =>
      exact fun o => (revokeSlot_keeps targetPid targetGeneration o slot).trans (ih _)
  exact hloop (List.finRange endpointHandleCapacity) (a.state, a.table, 0)

theorem clear_keeps : Keeps a (a.step .clear).1 := by
  have hloop : ∀ (capabilities : List EndpointCapability) (t : HandleTable n), t.Distinct →
      HandleTable.Distinct (capabilities.foldl (fun handles capability =>
        (HandleTable.unregister handles capability.handle capability.role.kind).1) t) := by
    intro capabilities
    induction capabilities with
    | nil => exact fun t ht => ht
    | cons c capabilities ih =>
      intro t ht
      refine ih _ ?_
      show (t.unregister c.handle c.role.kind).1.Distinct
      rcases t.unregister_cases c.handle c.role.kind with ⟨heq, -⟩ | ⟨t', e, heq, hbag, -⟩
      · rw [heq]
        exact ht
      · rw [heq]
        exact of_cons ht hbag
  exact ⟨fun h => ⟨nofun, nofun, nofun, hloop _ _ h.distinct⟩, ⟨rfl, BitVec.le_refl _, nofun⟩⟩

end

/-- The handles of other subsystems have other kinds. -/
theorem foreign_keeps {t : HandleTable n} (hdistinct : a.table.Distinct → t.Distinct)
    (hkept : ∀ c : EndpointCapability, endpointEntry c ∈ a.table.bag → endpointEntry c ∈ t.bag) :
    Keeps a ⟨a.state, t⟩ :=
  ⟨fun h => ⟨h.ok, h.taken, fun slot c hc => hkept c (h.registered slot c hc),
    hdistinct h.distinct⟩, ⟨rfl, BitVec.le_refl _, fun _ _ hc => .inl hc⟩⟩

/-- **Every call** keeps the two tables in agreement and moves forward. -/
theorem step_keeps (a : EndpointAuthority n) (call : EndpointCall) : Keeps a (a.step call).1 := by
  cases call with
  | create => exact a.create_step.keeps
  | allocate role => exact (a.allocate_step role).keeps
  | close handle => exact a.close_keeps handle
  | revoke targetPid targetGeneration => exact a.revoke_keeps targetPid targetGeneration
  | clear => exact a.clear_keeps
  | register handle kind rights =>
    unfold step
    dsimp only
    rcases a.table.register_cases handle kind rights with heq | ⟨t, heq, hbag, -⟩
    · rw [heq]
      exact .refl a
    · have hdistinct : a.table.Distinct → (a.table.register handle kind rights).1.Distinct :=
        register
      rw [heq] at hdistinct ⊢
      refine foreign_keeps hdistinct fun c hc => ?_
      rw [hbag]
      exact mem_cons_of_mem hc
  | unregister handle kind =>
    unfold step
    dsimp only
    rcases a.table.unregister_cases handle kind with ⟨heq, -⟩ | ⟨t, e, heq, hbag, -, hkind⟩
    · rw [heq]
      exact .refl a
    · rw [heq]
      refine foreign_keeps (fun h => of_cons h hbag) fun c hc => ?_
      rw [hbag] at hc
      rcases mem_cons.mp hc with rfl | hc
      · -- The removed entry would have the kind of an endpoint.
        have hrole : c.role.kind = kind := hkind
        cases hr : c.role with
        | receive generation =>
          rw [hr] at hrole
          exact absurd hrole.symm kind.property.1
        | send targetPid targetGeneration =>
          rw [hr] at hrole
          exact absurd hrole.symm kind.property.2
      · exact hc

theorem run_keeps (a : EndpointAuthority n) (calls : List EndpointCall) : Keeps a (a.run calls) := by
  induction calls generalizing a with
  | nil => exact .refl a
  | cons call calls ih => exact (a.step_keeps call).trans (ih _)

/-! ## §4. Handles that are gone. -/

/-- The handle was issued and is not held any more. -/
structure Spent (a : EndpointAuthority n) (handle : BitVec 64) : Prop where
  issued : ∃ generation slot, generation < a.state.nextGeneration
    ∧ generation ≤ endpointGenerationMax
    ∧ handle = endpointHandle a.state.ownerPid generation (slot : Fin endpointHandleCapacity)
  dropped : ∀ slot c, a.state.handles slot = some c → c.handle ≠ handle

/-- **A spent handle never resolves again.** -/
theorem Spent.resolve_later {handle : BitVec 64} (h : a.Spent handle) (hb : b.Sound)
    (hab : Advances a b) : b.resolve handle = none := by
  cases hc : b.resolve handle with
  | none => rfl
  | some c =>
    obtain ⟨hheld, hhandle, -⟩ := capability_some hc
    have hok := hb.ok c.slot c hheld
    rcases hab.held c.slot c hheld with hold | hlate
    · exact absurd hhandle (h.dropped c.slot c hold)
    obtain ⟨generation, slot, hlt, hmax, hissued⟩ := h.issued
    rw [← hhandle, hok.handle] at hissued
    rw [endpointHandle_generation hok.generation hmax hissued] at hlate
    exact absurd hlt (BitVec.not_lt.mpr hlate)

/-- A handle that resolved and is dropped is spent. -/
theorem spent_of_resolved {handle : BitVec 64} {c : EndpointCapability} (ha : a.Sound)
    (hc : a.resolve handle = some c) (hab : Advances a b)
    (hdropped : ∀ slot c, b.state.handles slot = some c → c.handle ≠ handle) : b.Spent handle := by
  obtain ⟨hheld, hhandle, -⟩ := capability_some hc
  have hok := ha.ok c.slot c hheld
  refine ⟨⟨c.generation, c.slot,
    Nat.lt_of_lt_of_le (ha.taken c.slot c hheld) hab.nextGeneration, hok.generation, ?_⟩,
    hdropped⟩
  rw [← hhandle, hab.ownerPid, ← hok.ownerPid]
  exact hok.handle

/-- The call closes or revokes what the handle resolves to. -/
def Ends (a : EndpointAuthority n) (handle : BitVec 64) : EndpointCall → Prop
  | .close closed => closed = handle ∧ (a.step (.close closed)).2 ≠ .failed
  | .revoke targetPid targetGeneration =>
    ∃ c, a.resolve handle = some c ∧ c.role = .send targetPid targetGeneration
  | .clear => (a.resolve handle).isSome
  | _ => False

variable {call : EndpointCall}

/-- A handle that a call ends is spent. -/
theorem spent_of_ends {handle : BitVec 64} (ha : a.Sound) (h : a.Ends handle call) :
    (a.step call).1.Spent handle := by
  have hadvances := (a.step_keeps call).advances
  have honly : ∀ c, a.resolve handle = some c → ∀ slot c', a.state.handles slot = some c' →
      c'.handle = handle → c' = c := by
    intro c hc slot c' hc' hhandle'
    obtain ⟨hheld, hhandle, -⟩ := capability_some hc
    have hslot := (ha.ok slot c' hc').slot_eq (ha.ok c.slot c hheld) (hhandle'.trans hhandle.symm)
    rw [hslot, hheld] at hc'
    exact (Option.some.inj hc').symm
  cases call with
  | close closed =>
    obtain ⟨rfl, hreply⟩ := h
    unfold step at hreply hadvances ⊢
    dsimp only at hreply hadvances ⊢
    rcases a.state.close_cases a.table closed with hfail | ⟨c, s', t, hc, hs', ht, hok⟩
    · rw [hfail] at hreply
      exact absurd rfl hreply
    · rw [hok] at hadvances ⊢
      refine spent_of_resolved ha hc hadvances fun slot c' hc' hhandle => ?_
      dsimp only at hc'
      rw [(unpublish_keeps hs').1] at hc'
      by_cases hslot : slot = c.slot
      · rw [hslot, drop_self] at hc'
        cases hc'
      · rw [drop_of_ne hslot] at hc'
        have hsame := honly c hc slot c' hc' hhandle
        exact hslot ((ha.ok slot c' hc').slot.symm.trans (congrArg EndpointCapability.slot hsame))
  | revoke targetPid targetGeneration =>
    obtain ⟨c, hc, hrole⟩ := h
    refine spent_of_resolved ha hc hadvances fun slot c' hc' hhandle => ?_
    obtain ⟨hold, hother⟩ := revokeSlots_held (o := (a.state, a.table, 0))
      (List.finRange endpointHandleCapacity) hc'
    rw [honly c hc slot c' hold hhandle] at hother
    exact hother (List.mem_finRange slot) hrole
  | clear =>
    obtain ⟨c, hc⟩ := Option.isSome_iff_exists.mp h
    exact spent_of_resolved ha hc hadvances nofun
  | create => exact h.elim
  | allocate role => exact h.elim
  | register handle kind rights => exact h.elim
  | unregister handle kind => exact h.elim

/-! ## §5. Failures and grants. -/

/-- Nothing changed, except that a generation may have been taken. -/
def NoAuthority (a b : EndpointAuthority n) : Prop :=
  b = a ∨ a.state.nextGeneration ≤ endpointGenerationMax
    ∧ b = ⟨{ a.state with nextGeneration := a.state.nextGeneration + 1 }, a.table⟩

theorem GrantStep.failed (h : GrantStep a o) (hreply : o.2 = .failed) : NoAuthority a o.1 := by
  cases h with
  | refused => exact .inl rfl
  | skipped hmax => exact .inr ⟨hmax, rfl⟩
  | granted slot role t published hmax hreg => cases hreply

/-- A grant takes the next generation, which is in the handle. -/
theorem GrantStep.next {handle : BitVec 64} (h : GrantStep a o) (hreply : o.2 = .granted handle) :
    ∃ slot : Fin endpointHandleCapacity, a.state.nextGeneration ≤ endpointGenerationMax
      ∧ handle = endpointHandle a.state.ownerPid a.state.nextGeneration slot
      ∧ o.1.state.nextGeneration = a.state.nextGeneration + 1 := by
  cases h with
  | refused => cases hreply
  | skipped hmax => cases hreply
  | granted slot role t published hmax hreg =>
    exact ⟨slot, hmax, (EndpointReply.granted.inj hreply).symm, rfl⟩

/-- The other calls grant nothing and change nothing when they fail. -/
theorem step_cases (a : EndpointAuthority n) (call : EndpointCall) :
    GrantStep a (a.step call)
      ∨ (∀ handle, (a.step call).2 ≠ .granted handle)
        ∧ ((a.step call).2 = .failed → (a.step call).1 = a) := by
  cases call with
  | create => exact .inl a.create_step
  | allocate role => exact .inl (a.allocate_step role)
  | close handle =>
    unfold step
    dsimp only
    rcases a.state.close_cases a.table handle with hfail | ⟨c, s', t, -, -, -, hok⟩
    · rw [hfail]
      exact .inr ⟨nofun, fun _ => rfl⟩
    · rw [hok]
      exact .inr ⟨nofun, nofun⟩
  | revoke targetPid targetGeneration | clear => exact .inr ⟨nofun, nofun⟩
  | register handle kind rights =>
    unfold step
    dsimp only
    rcases a.table.register_cases handle kind rights with heq | ⟨t, heq, -⟩
    · rw [heq]
      exact .inr ⟨nofun, fun _ => rfl⟩
    · rw [heq]
      exact .inr ⟨nofun, nofun⟩
  | unregister handle kind =>
    unfold step
    dsimp only
    rcases a.table.unregister_cases handle kind with ⟨heq, -⟩ | ⟨t, e, heq, -⟩
    · rw [heq]
      exact .inr ⟨nofun, fun _ => rfl⟩
    · rw [heq]
      exact .inr ⟨nofun, nofun⟩

theorem failed_noAuthority (h : (a.step call).2 = .failed) : NoAuthority a (a.step call).1 := by
  rcases a.step_cases call with hgrant | ⟨-, hsame⟩
  · exact hgrant.failed h
  · exact .inl (hsame h)

theorem granted_next {handle : BitVec 64} (h : (a.step call).2 = .granted handle) :
    ∃ slot : Fin endpointHandleCapacity, a.state.nextGeneration ≤ endpointGenerationMax
      ∧ handle = endpointHandle a.state.ownerPid a.state.nextGeneration slot
      ∧ (a.step call).1.state.nextGeneration = a.state.nextGeneration + 1 := by
  rcases a.step_cases call with hgrant | ⟨hnone, -⟩
  · exact hgrant.next h
  · exact absurd h (hnone handle)

section

variable (a : EndpointAuthority n)

/-- A grant in a sequence of calls has its generation in its handle, and the
generation was not taken when the sequence began. -/
def GrantOf (grant : BitVec 64 × BitVec 64) : Prop :=
  a.state.nextGeneration ≤ grant.1 ∧ grant.1 ≤ endpointGenerationMax
    ∧ ∃ slot : Fin endpointHandleCapacity,
      grant.2 = endpointHandle a.state.ownerPid grant.1 slot

theorem grants_cons (call : EndpointCall) (calls : List EndpointCall) :
    a.grants (call :: calls) = (a.step call).1.grants calls
      ∨ ∃ handle, (a.step call).2 = .granted handle
        ∧ a.grants (call :: calls)
          = (a.state.nextGeneration, handle) :: (a.step call).1.grants calls := by
  show (match a.step call with
    | (a', .granted handle) => (a.state.nextGeneration, handle) :: a'.grants calls
    | (a', _) => a'.grants calls) = _ ∨ ∃ handle, _ ∧ (match a.step call with
    | (a', .granted handle) => (a.state.nextGeneration, handle) :: a'.grants calls
    | (a', _) => a'.grants calls) = _
  generalize a.step call = o
  obtain ⟨a', reply⟩ := o
  cases reply with
  | granted handle => exact .inr ⟨handle, rfl, rfl⟩
  | closed role | revoked count | done | failed => exact .inl rfl

theorem grantOf_grants (calls : List EndpointCall) : ∀ grant ∈ a.grants calls, GrantOf a grant := by
  induction calls generalizing a with
  | nil => exact nofun
  | cons call calls ih =>
    have hadvances := (a.step_keeps call).advances
    have hlater : ∀ grant ∈ (a.step call).1.grants calls, GrantOf a grant := by
      intro grant hgrant
      obtain ⟨hle, hmax, slot, hhandle⟩ := ih _ grant hgrant
      rw [hadvances.ownerPid] at hhandle
      exact ⟨BitVec.le_trans hadvances.nextGeneration hle, hmax, slot, hhandle⟩
    rcases a.grants_cons call calls with heq | ⟨handle, hreply, heq⟩
    · rw [heq]
      exact hlater
    · rw [heq]
      intro grant hgrant
      rcases List.mem_cons.mp hgrant with rfl | hgrant
      · obtain ⟨slot, hmax, hhandle, -⟩ := granted_next hreply
        exact ⟨BitVec.le_refl _, hmax, slot, hhandle⟩
      · exact hlater grant hgrant

/-- **No generation is granted twice.** -/
theorem grants_increasing (calls : List EndpointCall) :
    (a.grants calls).Pairwise fun earlier later => earlier.1 < later.1 := by
  induction calls generalizing a with
  | nil => exact List.Pairwise.nil
  | cons call calls ih =>
    rcases a.grants_cons call calls with heq | ⟨handle, hreply, heq⟩
    · rw [heq]
      exact ih _
    · rw [heq]
      obtain ⟨slot, hmax, -, hnext⟩ := granted_next hreply
      refine List.Pairwise.cons (fun later hlater => ?_) (ih _)
      have hle := (grantOf_grants _ calls later hlater).1
      rw [hnext] at hle
      exact Nat.lt_of_lt_of_le (lt_next hmax) hle

end

/-- With no generation left, no call grants a handle. -/
theorem exhausted (h : endpointGenerationMax < a.state.nextGeneration)
    (hcall : call = .create ∨ ∃ role, call = .allocate role) : a.step call = (a, .failed) := by
  have hgrant : GrantStep a (a.step call) := by
    rcases hcall with rfl | ⟨role, rfl⟩
    · exact a.create_step
    · exact a.allocate_step role
  generalize a.step call = o at hgrant
  cases hgrant with
  | refused => rfl
  | skipped hmax => exact absurd hmax (BitVec.not_le.mpr h)
  | granted slot role t published hmax hreg => exact absurd hmax (BitVec.not_le.mpr h)

/-- **Endpoint capability lifetime.** After any calls the registry test passes;
a handle that a call closes or revokes resolves in no later state; a failed call
leaves the tables, the endpoint and the parked receive; generations are granted
in increasing order, and none is granted when they are used up. -/
theorem capability_lifetime (ownerPid : BitVec 8) (calls : List EndpointCall) :
    let a := (new ownerPid : EndpointAuthority n).run calls
    a.state.registryIsConsistent a.table = true
      ∧ (∀ handle call, a.Ends handle call →
        ∀ later, ((a.step call).1.run later).resolve handle = none)
      ∧ (∀ call, (a.step call).2 = .failed → NoAuthority a (a.step call).1)
      ∧ ((new ownerPid : EndpointAuthority n).grants calls).Pairwise
        (fun earlier later => earlier.1 < later.1)
      ∧ (∀ grant ∈ (new ownerPid : EndpointAuthority n).grants calls,
        grant.1 ≤ endpointGenerationMax
          ∧ ∃ slot : Fin endpointHandleCapacity, grant.2 = endpointHandle ownerPid grant.1 slot)
      ∧ (endpointGenerationMax < a.state.nextGeneration → ∀ later call,
        call = .create ∨ (∃ role, call = .allocate role) →
          (a.run later).step call = (a.run later, .failed)) := by
  intro a
  have hsound : a.Sound := (run_keeps _ calls).sound (sound_new ownerPid)
  refine ⟨EndpointState.consistent_of_registered hsound.distinct hsound.ok hsound.registered,
    fun handle call hends later => ?_, fun call => failed_noAuthority, grants_increasing _ calls,
    fun grant hgrant => (grantOf_grants _ calls grant hgrant).2, fun hmax later call hcall => ?_⟩
  · have hlater := run_keeps (a.step call).1 later
    exact (spent_of_ends hsound hends).resolve_later
      (hlater.sound ((a.step_keeps call).sound hsound)) hlater.advances
  · exact exhausted (Nat.lt_of_lt_of_le hmax (run_keeps a later).advances.nextGeneration) hcall

/-- A failed call may take a generation: the registry has one slot, which the
receive capability fills. -/
theorem failed_allocate_takes_generation :
    let a := (new 7 : EndpointAuthority 1).run [.create]
    (a.step (.allocate (.send 8 1))).2 = .failed
      ∧ a.state.nextGeneration = 2
      ∧ (a.step (.allocate (.send 8 1))).1.state.nextGeneration = 3 := by
  decide

end EndpointAuthority

end GenOS.Process
