/-
  GenOS.Socket.Authority — handles, requests and queued peers over whole runs.

  `Origin` says where an entry after a call comes from: it was there and the
  call did not concern it, the call moved it, `accept` took a peer from it, or
  it is new and has the next generation.  Everything about runs is an induction
  over the calls with this one case distinction: a closed handle has an old
  generation, so it resolves never again; a request in flight was begun on its
  own socket and nothing ended it since (`Pending`); the waiting peers of a
  listener are the queue that its calls describe (`queueOf`).
-/
import GenOS.Socket.EntryMoves

namespace GenOS.Socket

open GenOS.Lib List SocketSet

/-! ## §1. Generations of handles. -/

theorem socket_slot_lt (slot : Fin socketCapacity) : slot.val + 1 < 256 := by
  have := slot.isLt
  unfold socketCapacity at this
  omega

variable {owner : SocketOwner} {slot : Fin socketCapacity} {s : SocketSet} {e' : SocketEntry}
  {op : SocketOp} {handle id : BitVec 64} {earlier : List SocketOp}

/-- A generation is read back from a handle. -/
theorem socketHandle_generation {owner' : SocketOwner} {generation generation' : BitVec 64}
    {slot' : Fin socketCapacity} (hgen : generation ≤ socketGenerationMax)
    (hgen' : generation' ≤ socketGenerationMax)
    (h : socketHandle owner generation slot = socketHandle owner' generation' slot') :
    generation = generation' := by
  have hlt : generation.toNat < 2 ^ 16 := Nat.lt_of_le_of_lt hgen (by decide)
  have hlt' : generation'.toNat < 2 ^ 16 := Nat.lt_of_le_of_lt hgen' (by decide)
  rw [socketHandle_eq, socketHandle_eq] at h
  have hmiddle := Packed.middle_eq (middle_socketMiddle owner hgen)
    (middle_socketMiddle owner' hgen') (socket_slot_lt slot) (socket_slot_lt slot') h
  apply BitVec.eq_of_getLsbD_eq
  intro i hi
  by_cases hhigh : 16 ≤ i
  · rw [getLsbD_of_lt_pow hlt hhigh, getLsbD_of_lt_pow hlt' hhigh]
  -- Below the parts of the owner the middle is the generation.
  have hbit := congrArg (fun word => word.getLsbD (i + 8)) hmiddle
  unfold socketMiddle at hbit
  simp only [BitVec.getLsbD_or, BitVec.getLsbD_shiftLeft,
    decide_eq_true (show i + 8 < 52 by omega), decide_eq_true (show i + 8 < 24 by omega),
    decide_eq_true (show i + 8 < 64 by omega), decide_eq_false (show ¬ i + 8 < 8 by omega),
    Nat.add_sub_cancel] at hbit
  simpa using hbit

theorem SetInv.slot_eq {t : SocketSet} (hs : SetInv s) (ht : SetInv t)
    {slot' : Fin socketCapacity} {e : SocketEntry} (he : s.entries slot = some e)
    (he' : t.entries slot' = some e') (h : e.handle = e'.handle) : slot = slot' := by
  have hslot := socketSlot_socketHandle e.owner (hs.handle slot e he).2 slot
  have hslot' := socketSlot_socketHandle e'.owner (ht.handle slot' e' he').2 slot'
  rw [← (hs.handle slot e he).1] at hslot
  rw [← (ht.handle slot' e' he').1, ← h, hslot] at hslot'
  exact Option.some.inj hslot'

/-! ## §2. What a call does to the set. -/

namespace SocketOp

variable (s : SocketSet) (op : SocketOp)

/-- The owner and the handle of the socket a call opens. -/
def issues : SocketOp → Option (SocketOwner × BitVec 64)
  | .openSocket owner protocol =>
    match (s.openSocket owner protocol).2 with
    | .ok handle => some (owner, handle)
    | .error _ => none
  | .accept owner handle =>
    match (s.accept owner handle).2 with
    | .ok accepted => some (owner, accepted)
    | .error _ => none
  | _ => none

variable (owner : SocketOwner) (handle : BitVec 64)

/-- The call closes the socket of the handle. -/
def Closes : Prop :=
  (op = .close owner handle ∧ op.ok s = true)
    ∨ (op = .closeOwner owner ∧ ∃ slot, s.slotFor owner handle = .ok slot)

/-- The call closes the socket, fails it or shuts its write side. -/
def Stops : Prop :=
  op.Closes s owner handle
    ∨ (op.shuts = true ∧ op.caller = some owner ∧ op.handle = some handle ∧ op.ok s = true)

/-- The call completes or fails this request of the socket. -/
def Settles (handle id : BitVec 64) : Prop :=
  op.settles = some id ∧ op.caller = some owner ∧ op.handle = some handle ∧ op.ok s = true

/-- The call leaves the socket with no request in flight. -/
def Ends : Prop :=
  op.Stops s owner handle ∨ ∃ id, op.Settles s owner handle id

end SocketOp

open SocketOp

/-- Every generation in use was issued. -/
structure SetSound (s : SocketSet) : Prop where
  inv : SetInv s
  taken : ∀ slot e, s.entries slot = some e → e.generation < s.nextGeneration

/-- Where an entry after a call comes from. -/
inductive Origin (s : SocketSet) (op : SocketOp) (slot : Fin socketCapacity) (e' : SocketEntry) :
    Prop
  /-- The call does not concern it. -/
  | kept (he : s.entries slot = some e') (hother : op.handle = some e'.handle → op.ok s = false)
  /-- The call worked on it. -/
  | moved (e : SocketEntry) (f : SocketEntry → SocketEntry × Bool) (he : s.entries slot = some e)
      (hcall : op.entryCall = some f) (hcaller : op.caller = some e.owner)
      (htarget : op.handle = some e.handle) (hnew : e' = (f e).1) (hok : op.ok s = (f e).2)
  /-- `accept` took the first peer from it. -/
  | took (e : SocketEntry) (he : s.entries slot = some e) (hop : op = .accept e.owner e.handle)
      (hpos : 0 < e.backlogLen) (hnew : e' = e.removeIncoming 0) (hok : op.ok s = true)
  /-- The call opened it. -/
  | opened (hfree : s.entries slot = none) (hissues : op.issues s = some (e'.owner, e'.handle))
      (hgeneration : e'.generation = s.nextGeneration) (hrequest : e'.inFlightRequest = 0)
      (hwaiting : e'.waiting = [])

/-- **Where the entries come from**, for every call. -/
theorem origin (hs : SetInv s) (he' : (op.apply s).entries slot = some e') : Origin s op slot e' := by
  cases effect s op with
  | unchanged heq hok =>
    rw [heq] at he'
    exact .kept he' fun _ => hok
  | replaced owner handle found e f hcaller htarget hslot he hcall heq hok =>
    obtain ⟨e₀, he₀, hhandle, howner⟩ := slotFor_ok hslot
    cases he.symm.trans he₀
    rw [heq] at he'
    rcases update_some he' with ⟨rfl, hnew⟩ | ⟨hne, hold⟩
    · exact .moved e f he hcall (howner ▸ hcaller) (hhandle ▸ htarget)
        (Option.some.inj hnew).symm hok
    · refine .kept hold fun htarget' => absurd ?_ hne
      rw [htarget] at htarget'
      exact hs.slot_eq hs hold he ((Option.some.inj htarget').symm.trans hhandle.symm)
  | removed owner handle found hop hslot heq =>
    obtain ⟨e, he, hhandle, -⟩ := slotFor_ok hslot
    rw [heq] at he'
    rcases update_some he' with ⟨-, hnew⟩ | ⟨hne, hold⟩
    · cases hnew
    refine .kept hold fun htarget => absurd ?_ hne
    rw [hop] at htarget
    exact hs.slot_eq hs hold he ((Option.some.inj htarget).symm.trans hhandle.symm)
  | opened owner protocol free hop hempty hgen heq =>
    subst hop
    rw [show apply s (.openSocket owner protocol) = s.opened owner protocol free from
      congrArg Prod.fst heq] at he'
    rcases update_some he' with ⟨rfl, hnew⟩ | ⟨-, hold⟩
    · cases hnew
      refine .opened hempty ?_ rfl rfl rfl
      unfold issues
      dsimp only
      rw [heq]
      rfl
    · exact .kept hold nofun
  | accepted owner handle found child listener connection localPort hop hslot hl hpos hempty hgen
      hentries hreply hnext =>
      subst hop
      obtain ⟨e, he, hhandle, howner⟩ := slotFor_ok hslot
      cases hl.symm.trans he
      rw [hentries] at he'
      rcases update_some he' with ⟨rfl, hnew⟩ | ⟨-, hold⟩
      · cases hnew
        refine .opened hempty ?_ rfl rfl rfl
        unfold issues
        dsimp only
        rw [hreply]
        rfl
      · rcases update_some hold with ⟨rfl, hnew⟩ | ⟨hne, hold⟩
        · refine .took listener hl (by rw [hhandle, howner]) hpos (Option.some.inj hnew).symm ?_
          show (s.accept owner handle).2.isOk = true
          rw [hreply]
          rfl
        · refine .kept hold fun htarget => absurd ?_ hne
          exact hs.slot_eq hs hold hl ((Option.some.inj htarget).symm.trans hhandle.symm)
  | ownerClosed owner hop =>
    subst hop
    exact .kept (closeOwner_entries he').1 nofun

/-! ## §3. Generations along a run. -/

/-- A call that opens a socket takes the next generation, and no other does. -/
theorem issues_cases (s : SocketSet) (op : SocketOp) :
    (op.issues s = none ∧ (op.apply s).nextGeneration = s.nextGeneration)
      ∨ ∃ owner, ∃ slot : Fin socketCapacity,
        op.issues s = some (owner, socketHandle owner s.nextGeneration slot)
        ∧ s.nextGeneration ≤ socketGenerationMax
        ∧ (op.apply s).nextGeneration = s.nextGeneration + 1 := by
  cases effect s op with
  | unchanged heq hok =>
    refine .inl ⟨?_, congrArg nextGeneration heq⟩
    unfold issues
    split
    · split
      · rename_i hreply
        rw [ok, hreply] at hok
        cases hok
      · rfl
    · split
      · rename_i hreply
        rw [ok, hreply] at hok
        cases hok
      · rfl
    · rfl
  | replaced owner handle found e f hcaller htarget hslot he hcall heq hok =>
    refine .inl ⟨?_, (congrArg nextGeneration heq).trans rfl⟩
    cases op <;> first | rfl | cases hcall
  | removed owner handle found hop hslot heq =>
    exact .inl ⟨hop ▸ rfl, (congrArg nextGeneration heq).trans rfl⟩
  | opened owner protocol slot hop hempty hgen heq =>
    subst hop
    refine .inr ⟨owner, slot, ?_, hgen, congrArg (fun o => o.1.nextGeneration) heq⟩
    unfold issues
    dsimp only
    rw [heq]
  | accepted owner handle found child listener connection localPort hop hslot hl hpos hempty hgen
      hentries hreply hnext =>
      subst hop
      refine .inr ⟨owner, child, ?_, hgen, hnext⟩
      unfold issues
      dsimp only
      rw [hreply]
  | ownerClosed owner hop => exact .inl ⟨hop ▸ rfl, hop ▸ rfl⟩

theorem issues_next (h : op.issues s = some (owner, handle)) :
    s.nextGeneration ≤ socketGenerationMax
      ∧ (op.apply s).nextGeneration = s.nextGeneration + 1
      ∧ ∃ slot : Fin socketCapacity, handle = socketHandle owner s.nextGeneration slot := by
  rcases issues_cases s op with ⟨hnone, -⟩ | ⟨owner', slot, hissues, hgen, hnext⟩
  · rw [hnone] at h
    cases h
  · cases h.symm.trans hissues
    exact ⟨hgen, hnext, slot, rfl⟩

theorem socket_lt_next {generation : BitVec 64} (h : generation ≤ socketGenerationMax) :
    generation < generation + 1 := by
  rw [BitVec.le_def] at h
  rw [BitVec.lt_def, BitVec.toNat_add]
  have hmax : socketGenerationMax.toNat = 65535 := rfl
  have hone : (1 : BitVec 64).toNat = 1 := rfl
  omega

theorem nextGeneration_le (s : SocketSet) (op : SocketOp) :
    s.nextGeneration ≤ (op.apply s).nextGeneration := by
  rcases issues_cases s op with ⟨-, hsame⟩ | ⟨_, _, -, hmax, hnext⟩
  · rw [hsame]
    exact BitVec.le_refl _
  · rw [hnext]
    exact BitVec.le_of_lt (socket_lt_next hmax)

/-- The identity of an entry that comes from another is that of the other. -/
theorem Origin.identity (h : Origin s op slot e') :
    (∃ e, s.entries slot = some e ∧ e'.handle = e.handle ∧ e'.owner = e.owner
        ∧ e'.generation = e.generation)
      ∨ (op.issues s = some (e'.owner, e'.handle) ∧ e'.generation = s.nextGeneration) := by
  cases h with
  | kept he hother => exact .inl ⟨e', he, rfl, rfl, rfl⟩
  | moved e f he hcall hcaller htarget hnew hok =>
    have hstep := (entryCall_move hcall e).step
    rw [← hnew] at hstep
    exact .inl ⟨e, he, hstep.handle, hstep.owner, hstep.generation⟩
  | took e he hop hpos hnew hok =>
    rw [hnew]
    exact .inl ⟨e, he, rfl, rfl, rfl⟩
  | opened hfree hissues hgeneration hrequest hwaiting => exact .inr ⟨hissues, hgeneration⟩

theorem SetSound.apply (h : SetSound s) (op : SocketOp) : SetSound (op.apply s) := by
  refine ⟨h.inv.apply op, fun slot e' he' => ?_⟩
  rcases (origin h.inv he').identity with ⟨e, he, -, -, hgeneration⟩ | ⟨hissues, hgeneration⟩
  · rw [hgeneration]
    exact Nat.lt_of_lt_of_le (h.taken slot e he) (nextGeneration_le s op)
  · obtain ⟨hmax, hnext, -⟩ := issues_next hissues
    rw [hgeneration, hnext]
    exact socket_lt_next hmax

variable (ops : List SocketOp)

/-- The set after a sequence of calls. -/
def reached : SocketSet :=
  ops.foldl (fun s op => op.apply s) SocketSet.new

theorem reached_snoc (op : SocketOp) : reached (ops ++ [op]) = op.apply (reached ops) := by
  unfold reached
  rw [foldl_append]
  rfl

theorem reached_sound : SetSound (reached ops) := by
  induction ops using reverseRecOn with
  | nil => exact ⟨⟨nofun, nofun⟩, nofun⟩
  | append_singleton ops op ih =>
    rw [reached_snoc]
    exact ih.apply op

/-- The handle was issued. -/
def Old (s : SocketSet) (handle : BitVec 64) : Prop :=
  ∃ owner generation, ∃ slot : Fin socketCapacity, handle = socketHandle owner generation slot
    ∧ generation ≤ socketGenerationMax ∧ generation < s.nextGeneration

theorem SetSound.old (h : SetSound s) {e : SocketEntry} (he : s.entries slot = some e) : Old s e.handle :=
  ⟨e.owner, e.generation, slot, (h.inv.handle slot e he).1, (h.inv.handle slot e he).2,
    h.taken slot e he⟩

theorem Old.apply (h : Old s handle) (op : SocketOp) :
    Old (op.apply s) handle := by
  obtain ⟨owner, generation, slot, heq, hmax, hlt⟩ := h
  exact ⟨owner, generation, slot, heq, hmax, Nat.lt_of_lt_of_le hlt (nextGeneration_le s op)⟩

/-- A handle that is issued now was not issued before. -/
theorem Old.not_issued (h : Old s handle) : op.issues s ≠ some (owner, handle) := by
  intro hissues
  obtain ⟨owner', generation, slot, heq, hmax, hlt⟩ := h
  obtain ⟨hmax', -, slot', heq'⟩ := issues_next hissues
  have hsame := socketHandle_generation hmax hmax' (heq.symm.trans heq')
  rw [hsame] at hlt
  exact absurd hlt (BitVec.lt_irrefl _)

/-- **What all entries of an old handle satisfy stays so**, if the call on the
entry of the handle keeps it. -/
theorem Old.all_apply (h : Old s handle) (hs : SetInv s)
    {P : SocketEntry → Prop}
    (hmove : ∀ f, op.entryCall = some f → op.handle = some handle → ∀ slot e,
      s.entries slot = some e → e.handle = handle → P e → P (f e).1)
    (htook : ∀ e, P e → P (e.removeIncoming 0))
    (hall : ∀ slot e, s.entries slot = some e → e.handle = handle → P e)
    (slot : Fin socketCapacity) (e' : SocketEntry) (he' : (op.apply s).entries slot = some e')
    (hhandle : e'.handle = handle) : P e' := by
  cases origin hs he' with
  | kept he hother => exact hall slot e' he hhandle
  | moved e f he hcall hcaller htarget hnew hok =>
    have hstep := (entryCall_move hcall e).step
    rw [← hnew] at hstep
    have heq := hstep.handle.symm.trans hhandle
    rw [hnew]
    exact hmove f hcall (heq ▸ htarget) slot e he heq (hall slot e he heq)
  | took e he hop hpos hnew hok =>
    rw [hnew] at hhandle ⊢
    exact htook e (hall slot e he hhandle)
  | opened hfree hissues hgeneration hrequest hwaiting =>
    rw [hhandle] at hissues
    exact absurd hissues h.not_issued

/-- The same along a run. -/
theorem Old.all_run {P : SocketEntry → Prop}
    (hmove : ∀ op f, entryCall op = some f → ∀ e, P e → P (f e).1)
    (htook : ∀ e, P e → P (e.removeIncoming 0)) (h : Old (reached earlier) handle)
    (hall : ∀ slot e, (reached earlier).entries slot = some e → e.handle = handle → P e)
    (later : List SocketOp) :
    ∀ slot e, (reached (earlier ++ later)).entries slot = some e → e.handle = handle → P e := by
  induction later generalizing earlier with
  | nil =>
    rw [append_nil]
    exact hall
  | cons op later ih =>
    have hold : Old (reached (earlier ++ [op])) handle := by
      rw [reached_snoc]
      exact h.apply op
    have hstep : ∀ slot e, (reached (earlier ++ [op])).entries slot = some e →
        e.handle = handle → P e := by
      rw [reached_snoc]
      exact h.all_apply (reached_sound earlier).inv (fun f hf _ _ e _ _ => hmove op f hf e) htook hall
    have hrest := ih hold hstep
    rw [append_assoc] at hrest
    exact hrest

/-! ## §4. Handles. -/

/-- The owners and handles that a sequence of calls issues. -/
def issuedFrom (s : SocketSet) : List SocketOp → List (SocketOwner × BitVec 64)
  | [] => []
  | op :: ops => (op.issues s).toList ++ issuedFrom (op.apply s) ops

theorem issuedFrom_snoc (s : SocketSet) (ops : List SocketOp) (op : SocketOp) :
    issuedFrom s (ops ++ [op])
      = issuedFrom s ops ++ (op.issues (ops.foldl (fun s op => op.apply s) s)).toList := by
  induction ops generalizing s with
  | nil => simp [issuedFrom]
  | cons first ops ih =>
    show (first.issues s).toList ++ issuedFrom (first.apply s) (ops ++ [op]) = _
    rw [ih, ← append_assoc]
    rfl

/-- What a run from the empty set issues. -/
def issued : List (SocketOwner × BitVec 64) := issuedFrom SocketSet.new ops

theorem issued_snoc (op : SocketOp) :
    issued (ops ++ [op]) = issued ops ++ (op.issues (reached ops)).toList :=
  issuedFrom_snoc new ops op

/-- A handle that resolves was issued to its owner. -/
theorem entry_issued (slot : Fin socketCapacity) (e : SocketEntry)
    (he : (reached ops).entries slot = some e) : (e.owner, e.handle) ∈ issued ops := by
  induction ops using reverseRecOn generalizing slot e with
  | nil => cases he
  | append_singleton ops op ih =>
    rw [reached_snoc] at he
    rw [issued_snoc, mem_append]
    rcases (origin (reached_sound ops).inv he).identity with ⟨e₀, he₀, hhandle, howner, -⟩
      | ⟨hissues, -⟩
    · rw [hhandle, howner]
      exact .inl (ih slot e₀ he₀)
    · exact .inr (Option.mem_toList.mpr hissues)

/-- What is issued is old from then on. -/
theorem issued_old : ∀ pair ∈ issued ops, Old (reached ops) pair.2 := by
  induction ops using reverseRecOn with
  | nil => exact nofun
  | append_singleton ops op ih =>
    intro pair hpair
    rw [issued_snoc, mem_append] at hpair
    rw [reached_snoc]
    rcases hpair with hpair | hpair
    · exact (ih pair hpair).apply op
    obtain ⟨owner, handle⟩ := pair
    obtain ⟨hmax, hnext, slot, heq⟩ := issues_next (Option.mem_toList.mp hpair)
    refine ⟨owner, (reached ops).nextGeneration, slot, heq, hmax, ?_⟩
    rw [hnext]
    exact socket_lt_next hmax

/-- **No handle is issued twice.** -/
theorem issued_nodup : ((issued ops).map Prod.snd).Nodup := by
  induction ops using reverseRecOn with
  | nil => exact nodup_nil
  | append_singleton ops op ih =>
    rw [issued_snoc, map_append, nodup_append]
    refine ⟨ih, ?_, ?_⟩
    · cases op.issues (reached ops) with
      | none => exact nodup_nil
      | some pair => exact nodup_singleton _
    · intro handle hold handle' hnew heq
      obtain ⟨pair, hpair, rfl⟩ := mem_map.mp hold
      obtain ⟨pair', hpair', rfl⟩ := mem_map.mp hnew
      have hissues : op.issues (reached ops) = some (pair'.1, pair'.2) :=
        Option.mem_toList.mp hpair'
      rw [← heq] at hissues
      exact (issued_old ops pair hpair).not_issued hissues

/-- A closed handle is old, and no entry has it. -/
theorem closes_gone (hs : SetSound s) (h : op.Closes s owner handle) :
    Old s handle ∧ ∀ slot e, (op.apply s).entries slot = some e → e.handle ≠ handle := by
  have hresolved : ∃ found e, s.slotFor owner handle = .ok found ∧ s.entries found = some e
      ∧ e.handle = handle ∧ e.owner = owner := by
    rcases h with ⟨rfl, hok⟩ | ⟨-, found, hslot⟩
    · cases hslot : s.slotFor owner handle with
      | ok found =>
        obtain ⟨e, he⟩ := slotFor_ok hslot
        exact ⟨found, e, rfl, he⟩
      | error error =>
        have hok : (s.close owner handle).2.isOk = true := hok
        unfold SocketSet.close at hok
        rw [hslot] at hok
        cases hok
    · obtain ⟨e, he⟩ := slotFor_ok hslot
      exact ⟨found, e, hslot, he⟩
  obtain ⟨found, e, hslot, he, hhandle, howner⟩ := hresolved
  refine ⟨hhandle ▸ hs.old he, fun slot e' he' => ?_⟩
  rcases h with ⟨rfl, hok⟩ | ⟨rfl, -⟩
  · cases origin hs.inv he' with
    | kept he₀ hother =>
      intro heq
      rw [hother (congrArg some heq.symm)] at hok
      cases hok
    | moved e₀ f he₀ hcall => cases hcall
    | took e₀ he₀ hop => cases hop
    | opened hfree hissues => cases hissues
  · -- The entry of the handle belonged to the owner.
    obtain ⟨hkept, hother⟩ := closeOwner_entries he'
    intro heq
    have hfound := hs.inv.slot_eq hs.inv hkept he (heq.trans hhandle.symm)
    rw [hfound, he] at hkept
    cases hkept
    exact hother howner

/-- **A closed handle never resolves again**, for any owner. -/
theorem closed_forever (h : op.Closes (reached earlier) owner handle) (later : List SocketOp)
    (owner' : SocketOwner) (slot : Fin socketCapacity) :
    (reached (earlier ++ op :: later)).slotFor owner' handle ≠ .ok slot := by
  intro hslot
  obtain ⟨e, he, hhandle, -⟩ := slotFor_ok hslot
  obtain ⟨hold, hgone⟩ := closes_gone (reached_sound earlier) h
  have hafter : Old (reached (earlier ++ [op])) handle := by
    rw [reached_snoc]
    exact hold.apply op
  have hnone := Old.all_run (P := fun _ => False) (fun _ _ _ _ h => h) (fun _ h => h) hafter
    (by rw [reached_snoc]; exact hgone) later slot e
  rw [append_assoc] at hnone
  exact hnone he hhandle

/-! ## §5. Requests. -/

/-- The entry of a handle call that returned `Ok`. -/
theorem ok_entry {f : SocketEntry → SocketEntry × Bool} (hcall : op.entryCall = some f)
    (hcaller : op.caller = some owner) (htarget : op.handle = some handle) (hok : op.ok s = true) :
    ∃ slot e, s.entries slot = some e ∧ e.handle = handle ∧ e.owner = owner
      ∧ op.apply s = s.put slot (some (f e).1) ∧ (f e).2 = true := by
  obtain ⟨owner', handle', heffect⟩ := entryEffect s hcall
  have howner : owner' = owner := Option.some.inj (heffect.caller.symm.trans hcaller)
  have hhandle : handle' = handle := Option.some.inj (heffect.target.symm.trans htarget)
  subst howner hhandle
  cases hslot : s.slotFor owner' handle' with
  | error error =>
    rw [(heffect.refused error hslot).2] at hok
    cases hok
  | ok slot =>
    obtain ⟨e, he, heq, heq'⟩ := slotFor_ok hslot
    obtain ⟨happly, hreply⟩ := heffect.resolved slot e hslot he
    exact ⟨slot, e, he, heq, heq', happly, hreply.symm.trans hok⟩

theorem entryCall_of_settles (h : op.settles = some id) :
    ∃ f, op.entryCall = some f := by
  cases op <;> first | exact ⟨_, rfl⟩ | cases h

theorem entryCall_of_shuts (h : op.shuts = true) : ∃ f, op.entryCall = some f := by
  cases op <;> first | exact ⟨_, rfl⟩ | cases h

/-- A socket that is stopped has nothing in flight and sends nothing. -/
theorem stops_quiet (hs : SetSound s) (h : op.Stops s owner handle) :
    Old s handle ∧ ∀ slot e, (op.apply s).entries slot = some e → e.handle = handle → Quiet e := by
  rcases h with hcloses | ⟨hshuts, hcaller, htarget, hok⟩
  · obtain ⟨hold, hgone⟩ := closes_gone hs hcloses
    exact ⟨hold, fun slot e he heq => absurd heq (hgone slot e he)⟩
  · obtain ⟨f, hcall⟩ := entryCall_of_shuts hshuts
    obtain ⟨found, e, he, hhandle, -, happly, hreply⟩ := ok_entry hcall hcaller htarget hok
    refine ⟨hhandle ▸ hs.old he, fun slot e' he' heq => ?_⟩
    have hslot := (hs.apply op).inv.slot_eq hs.inv he' he (heq.trans hhandle.symm)
    rw [happly, hslot, put_entries_self] at he'
    cases he'
    exact (entryCall_move hcall e).shut hshuts hreply

theorem quiet_move (op : SocketOp) (f : SocketEntry → SocketEntry × Bool)
    (hcall : op.entryCall = some f) (e : SocketEntry) (h : Quiet e) : Quiet (f e).1 :=
  (entryCall_move hcall e).quiet h

/-- **A stopped socket settles no request.** -/
theorem stopped_forever (h : op.Stops (reached earlier) owner handle) (later : List SocketOp)
    (op' : SocketOp) (owner' : SocketOwner) (id : BitVec 64) :
    ¬ op'.Settles (reached (earlier ++ op :: later)) owner' handle id := by
  rintro ⟨hsettles, hcaller, htarget, hok⟩
  obtain ⟨hold, hquiet⟩ := stops_quiet (reached_sound earlier) h
  obtain ⟨f, hcall⟩ := entryCall_of_settles hsettles
  obtain ⟨slot, e, he, hhandle, -, -, hreply⟩ := ok_entry hcall hcaller htarget hok
  have hafter : Old (reached (earlier ++ [op])) handle := by
    rw [reached_snoc]
    exact hold.apply op
  have hlater := Old.all_run (P := Quiet) quiet_move (fun e h => ⟨h.state, h.send⟩) hafter
    (by rw [reached_snoc]; exact hquiet) later slot e
  rw [append_assoc] at hlater
  exact ((entryCall_move hcall e).settled id hsettles hreply).2.1 (hlater he hhandle).send

/-- The request was begun on this socket, and nothing ended it since. -/
inductive Pending (owner : SocketOwner) (handle id : BitVec 64) : List SocketOp → Prop
  | begun (ops : List SocketOp) (op : SocketOp) (hbegins : op.begins = some id)
      (hcaller : op.caller = some owner) (htarget : op.handle = some handle)
      (hok : op.ok (reached ops) = true) : Pending owner handle id (ops ++ [op])
  | waiting (ops : List SocketOp) (op : SocketOp) (h : Pending owner handle id ops)
      (hends : ¬ op.Ends (reached ops) owner handle) : Pending owner handle id (ops ++ [op])

/-- A call that ends a request leaves none in flight. -/
theorem ends_lands (hs : SetSound s) (he' : (op.apply s).entries slot = some e')
    (h : op.Ends s e'.owner e'.handle) : e'.inFlightRequest = 0 := by
  rcases h with hstops | ⟨id, hsettles, hcaller, htarget, hok⟩
  · have hquiet := (stops_quiet hs hstops).2 slot e' he' rfl
    have hflight := ((hs.apply op).inv.entry slot e' he').flight
    by_contra hne
    exact hflight.mp hne hquiet.send
  · obtain ⟨f, hcall⟩ := entryCall_of_settles hsettles
    obtain ⟨found, e, he, hhandle, -, happly, hreply⟩ := ok_entry hcall hcaller htarget hok
    have hslot := (hs.apply op).inv.slot_eq hs.inv he' he hhandle.symm
    rw [happly, hslot, put_entries_self] at he'
    cases he'
    exact ((entryCall_move hcall e).settled id hsettles hreply).2.2

/-- **What is in flight is pending on its own socket.** -/
theorem inFlight_pending (slot : Fin socketCapacity) (e : SocketEntry)
    (he : (reached ops).entries slot = some e) (hflight : e.inFlightRequest ≠ 0) :
    Pending e.owner e.handle e.inFlightRequest ops := by
  induction ops using reverseRecOn generalizing slot e with
  | nil => cases he
  | append_singleton ops op ih =>
    rw [reached_snoc] at he
    have hsound := reached_sound ops
    have hends : ¬ op.Ends (reached ops) e.owner e.handle := fun h => hflight (ends_lands hsound he h)
    cases origin hsound.inv he with
    | kept he₀ hother => exact .waiting ops op (ih slot e he₀ hflight) hends
    | moved e₀ f he₀ hcall hcaller htarget hnew hok =>
      have hmove := entryCall_move hcall e₀
      have hstep := hmove.step
      rw [← hnew] at hstep
      rcases hmove.request with hsame | hzero | ⟨hbegins, hreply⟩
      · rw [← hnew] at hsame
        have hold := ih slot e₀ he₀ (hsame ▸ hflight)
        rw [← hstep.handle, ← hstep.owner, ← hsame] at hold
        exact .waiting ops op hold hends
      · rw [← hnew] at hzero
        exact absurd hzero hflight
      · rw [← hnew] at hbegins
        rw [← hstep.owner] at hcaller
        rw [← hstep.handle] at htarget
        exact .begun ops op hbegins hcaller htarget (hok.trans hreply)
    | took e₀ he₀ hop hpos hnew hok =>
      rw [hnew] at hflight hends ⊢
      exact .waiting ops op (ih slot e₀ he₀ hflight) hends
    | opened hfree hissues hgeneration hrequest hwaiting => exact absurd hrequest hflight

/-- **A request is settled only while it is pending.** -/
theorem settles_pending {ops : List SocketOp} (h : op.Settles (reached ops) owner handle id) :
    Pending owner handle id ops := by
  obtain ⟨hsettles, hcaller, htarget, hok⟩ := h
  obtain ⟨f, hcall⟩ := entryCall_of_settles hsettles
  obtain ⟨slot, e, he, rfl, rfl, -, hreply⟩ := ok_entry hcall hcaller htarget hok
  obtain ⟨rfl, hsend, -⟩ := (entryCall_move hcall e).settled id hsettles hreply
  exact inFlight_pending ops slot e he
    (((reached_sound ops).inv.entry slot e he).flight.mpr hsend)

/-- A pending request was begun by a call of the run, on its socket. -/
theorem Pending.begin_mem {ops : List SocketOp} (h : Pending owner handle id ops) :
    ∃ op ∈ ops, op.begins = some id ∧ op.caller = some owner ∧ op.handle = some handle := by
  induction h with
  | begun ops op hbegins hcaller htarget hok =>
    exact ⟨op, mem_append_right _ (mem_singleton_self op), hbegins, hcaller, htarget⟩
  | waiting ops op h hends ih =>
    obtain ⟨found, hmem, hfound⟩ := ih
    exact ⟨found, mem_append_left _ hmem, hfound⟩

/-- A request that is pending at the end was pending in the middle and not ended
there, or it was begun later. -/
theorem Pending.split {later : List SocketOp}
    (h : Pending owner handle id (earlier ++ op :: later)) :
    (Pending owner handle id earlier ∧ ¬ op.Ends (reached earlier) owner handle)
      ∨ id ∈ (op :: later).filterMap begins := by
  have hsnoc : ∀ (ops : List SocketOp) (op' : SocketOp), Pending owner handle id (ops ++ [op']) →
      op'.begins = some id ∨ (Pending owner handle id ops ∧ ¬ op'.Ends (reached ops) owner handle) := by
    intro ops op' hpending
    generalize hlist : ops ++ [op'] = list at hpending
    cases hpending with
    | begun ops₀ op₀ hbegins hcaller htarget hok =>
      obtain ⟨-, rfl⟩ := append_singleton_inj.mp hlist
      exact .inl hbegins
    | waiting ops₀ op₀ hold hends =>
      obtain ⟨rfl, rfl⟩ := append_singleton_inj.mp hlist
      exact .inr ⟨hold, hends⟩
  induction later using reverseRecOn with
  | nil =>
    rcases hsnoc earlier op h with hbegins | hold
    · exact .inr (mem_filterMap.mpr ⟨op, mem_cons_self .., hbegins⟩)
    · exact .inl hold
  | append_singleton later last ih =>
    rw [← cons_append, ← append_assoc] at h
    rcases hsnoc _ last h with hbegins | ⟨hold, -⟩
    · exact .inr (mem_filterMap.mpr
        ⟨last, mem_cons_of_mem _ (mem_append_right _ (mem_singleton_self last)),
          hbegins⟩)
    · refine (ih hold).imp_right fun hmem => ?_
      rw [← cons_append, filterMap_append]
      exact mem_append_left _ hmem

/-- A value that a list gives once is given by one element. -/
theorem eq_of_filterMap_nodup {α β : Type} {f : α → Option β} {l : List α}
    (h : (l.filterMap f).Nodup) {a b : α} {x : β} (ha : a ∈ l) (hb : b ∈ l) (hfa : f a = some x)
    (hfb : f b = some x) : a = b := by
  obtain ⟨before, after, rfl⟩ := append_of_mem ha
  rw [filterMap_append, filterMap_cons_some hfa, nodup_middle,
    nodup_cons] at h
  rcases mem_append.mp hb with hb | hb
  · exact absurd (mem_append_left _ (mem_filterMap.mpr ⟨b, hb, hfb⟩)) h.1
  rcases mem_cons.mp hb with rfl | hb
  · rfl
  · exact absurd (mem_append_right _ (mem_filterMap.mpr ⟨b, hb, hfb⟩)) h.1

/-- **No request is settled twice**, if no number is begun twice. -/
theorem settled_once {later : List SocketOp} {op' : SocketOp} {owner' : SocketOwner}
    {handle' : BitVec 64} (hfresh : ((earlier ++ op :: later).filterMap begins).Nodup)
    (h : op.Settles (reached earlier) owner handle id) :
    ¬ op'.Settles (reached (earlier ++ op :: later)) owner' handle' id := by
  intro h'
  have hpending := settles_pending h
  obtain ⟨first, hfirst, hbegins, hcaller, htarget⟩ := hpending.begin_mem
  rw [filterMap_append, nodup_append] at hfresh
  rcases (settles_pending h').split with ⟨hold, hends⟩ | hagain
  · obtain ⟨second, hsecond, hbegins', hcaller', htarget'⟩ := hold.begin_mem
    have hsame := eq_of_filterMap_nodup hfresh.1 hfirst hsecond hbegins hbegins'
    subst hsame
    rw [hcaller] at hcaller'
    rw [htarget] at htarget'
    cases hcaller'
    cases htarget'
    exact hends (.inr ⟨id, h⟩)
  · exact hfresh.2.2 id (mem_filterMap.mpr ⟨first, hfirst, hbegins⟩) id hagain rfl

/-! ## §6. Queued peers. -/

/-- The queue of a handle after one more call. -/
def queueNext (s : SocketSet) (op : SocketOp) (handle : BitVec 64) (queue : List TcpServerPeer) :
    List TcpServerPeer :=
  if (op.issues s).map Prod.snd = some handle then []
  else if op.handle = some handle ∧ op.ok s = true then op.queueStep queue
  else queue

/-- The peers that wait at a handle by what its calls did: `queue_incoming` adds
at the end, `accept` takes from the front, `drop_incoming` removes the first
occurrence. -/
def queueOf (handle : BitVec 64) (ops : List SocketOp) : List TcpServerPeer :=
  (ops.foldl (fun o op => (op.apply o.1, queueNext o.1 op handle o.2)) (SocketSet.new, [])).2

theorem queueOf_snoc (handle : BitVec 64) (ops : List SocketOp) (op : SocketOp) :
    queueOf handle (ops ++ [op]) = queueNext (reached ops) op handle (queueOf handle ops) := by
  have hstate : ∀ ops : List SocketOp, (ops.foldl
      (fun o op => (apply o.1 op, queueNext o.1 op handle o.2)) (new, [])).1
        = reached ops := by
    intro ops
    induction ops using reverseRecOn with
    | nil => rfl
    | append_singleton ops op ih =>
      rw [foldl_append, reached_snoc, ← ih]
      rfl
  unfold queueOf
  rw [foldl_append, ← hstate ops]
  rfl

theorem queueNext_keep (hold : Old s handle) (hother : op.handle = some handle → op.ok s = false)
    (queue : List TcpServerPeer) :
    queueNext s op handle queue = queue := by
  unfold queueNext
  rw [if_neg, if_neg]
  · rintro ⟨htarget, hok⟩
    rw [hother htarget] at hok
    cases hok
  · intro hissues
    obtain ⟨⟨owner, _⟩, hpair, rfl⟩ := Option.map_eq_some_iff.mp hissues
    exact hold.not_issued hpair

theorem queueNext_step (hold : Old s handle) (htarget : op.handle = some handle)
    (queue : List TcpServerPeer) :
    queueNext s op handle queue = if op.ok s then op.queueStep queue else queue := by
  cases hok : op.ok s with
  | false => exact queueNext_keep hold (fun _ => hok) queue
  | true =>
    unfold queueNext
    rw [if_neg, if_pos ⟨htarget, hok⟩]
    · rfl
    intro hissues
    obtain ⟨⟨owner, _⟩, hpair, rfl⟩ := Option.map_eq_some_iff.mp hissues
    exact hold.not_issued hpair

/-- **The waiting peers of a listener are its queue.** -/
theorem waiting_queueOf (slot : Fin socketCapacity) (e : SocketEntry)
    (he : (reached ops).entries slot = some e) : e.waiting = queueOf e.handle ops := by
  induction ops using reverseRecOn generalizing slot e with
  | nil => cases he
  | append_singleton ops op ih =>
    rw [reached_snoc] at he
    have hsound := reached_sound ops
    rw [queueOf_snoc]
    cases origin hsound.inv he with
    | kept he₀ hother =>
      rw [queueNext_keep (hsound.old he₀) hother]
      exact ih slot e he₀
    | moved e₀ f he₀ hcall hcaller htarget hnew hok =>
      have hmove := entryCall_move hcall e₀
      have hhandle : e.handle = e₀.handle := hnew ▸ hmove.step.handle
      rw [hhandle, queueNext_step (hsound.old he₀) htarget, hok, ← ih slot e₀ he₀, hnew]
      exact hmove.waiting (hsound.inv.entry slot e₀ he₀)
    | took e₀ he₀ hop hpos hnew hok =>
      have hhandle : e.handle = e₀.handle := by rw [hnew]; rfl
      have htarget : op.handle = some e₀.handle := by rw [hop]; rfl
      rw [hhandle, queueNext_step (hsound.old he₀) htarget, hok, if_pos rfl, ← ih slot e₀ he₀,
        hnew, e₀.removeIncoming_waiting (hsound.inv.entry slot e₀ he₀) hpos, hop]
      exact eraseIdx_zero
    | opened hfree hissues hgeneration hrequest hwaiting =>
      unfold queueNext
      rw [if_pos (by rw [hissues]; rfl)]
      exact hwaiting

/-- What an `accept` at the end of a run does: it fails and changes nothing, or it
takes the front of the queue and its child has that peer. -/
def AcceptsFront (owner : SocketOwner) (handle : BitVec 64) : Prop :=
  (∃ error, (reached ops).accept owner handle = (reached ops, .error error))
    ∨ ∃ accepted peer slot child, ((reached ops).accept owner handle).2 = .ok accepted
      ∧ queueOf handle ops = peer :: queueOf handle (ops ++ [.accept owner handle])
      ∧ (reached (ops ++ [.accept owner handle])).entries slot = some child
      ∧ child.handle = accepted ∧ child.owner = owner ∧ child.serverPeer = some peer

theorem accepts_front (owner : SocketOwner) (handle : BitVec 64) :
    AcceptsFront ops owner handle := by
  have hsound := reached_sound ops
  rcases (reached ops).accept_cases owner handle with hfail | ⟨found, listener, child, connection,
    localPort, hslot, hl, hpos, hempty, hgen, hentries, hreply, hnext, hfirst⟩
  · exact .inl hfail
  obtain ⟨e, he, hhandle, howner⟩ := slotFor_ok hslot
  rw [hl] at he
  cases he
  have hok : ok (reached ops) (.accept owner handle) = true := by
    show ((reached ops).accept owner handle).2.isOk = true
    rw [hreply]
    rfl
  have hfront : ∃ rest, listener.waiting = connection :: rest := by
    rcases SocketEntry.waiting_eq (hsound.inv.entry found listener hl) with ⟨hzero, -⟩
      | ⟨a, -, ha, hwait⟩ | ⟨a, b, -, ha, -, hwait⟩
    · omega
    · have hsame : some a = some connection := ha.symm.trans hfirst
      exact ⟨[], by rw [hwait, Option.some.inj hsame]⟩
    · have hsame : some a = some connection := ha.symm.trans hfirst
      exact ⟨[b], by rw [hwait, Option.some.inj hsame]⟩
  obtain ⟨rest, hrest⟩ := hfront
  rw [waiting_queueOf ops found listener hl, hhandle] at hrest
  refine .inr ⟨_, connection, child,
    acceptedChild owner (reached ops).nextGeneration child connection localPort, hreply,
    ?_, ?_, rfl, rfl, rfl⟩
  · rw [queueOf_snoc, queueNext_step (hhandle ▸ hsound.old hl) rfl, hok, if_pos rfl, hrest]
    rfl
  · rw [reached_snoc]
    show ((reached ops).accept owner handle).1.entries child = _
    rw [hentries, Function.update_self]

/-! ## §7. Socket authority. -/

/-- What holds of a sequence of calls on one socket set. -/
structure SocketAuthority (ops : List SocketOp) : Prop where
  /-- A closed handle never resolves again. -/
  closed : ∀ earlier op later owner handle, ops = earlier ++ op :: later →
    op.Closes (reached earlier) owner handle →
    ∀ owner' slot, (reached ops).slotFor owner' handle ≠ .ok slot
  /-- No handle is issued twice. -/
  issuedOnce : ((issued ops).map Prod.snd).Nodup
  /-- Only the exact handle resolves to an entry, and only for the owner it was issued to. -/
  exact : ∀ owner handle slot, (reached ops).slotFor owner handle = .ok slot →
    (owner, handle) ∈ issued ops ∧ ∀ owner' handle',
      (reached ops).slotFor owner' handle' = .ok slot → owner' = owner ∧ handle' = handle
  /-- A request is completed or failed only while it is pending on its own socket. -/
  pending : ∀ earlier op later owner handle id, ops = earlier ++ op :: later →
    op.Settles (reached earlier) owner handle id → Pending owner handle id earlier
  /-- No request is completed or failed twice. -/
  settledOnce : ∀ earlier op middle op' later owner handle owner' handle' id,
    ops = earlier ++ op :: middle ++ op' :: later → op.Settles (reached earlier) owner handle id →
    ¬ op'.Settles (reached (earlier ++ op :: middle)) owner' handle' id
  /-- No request of a socket is completed or failed after the socket was stopped. -/
  stopped : ∀ earlier op middle op' later owner handle id,
    ops = earlier ++ op :: middle ++ op' :: later → op.Stops (reached earlier) owner handle →
    (∃ begun ∈ ops, begun.begins = some id ∧ begun.caller = some owner
      ∧ begun.handle = some handle) →
    ∀ owner' handle', ¬ op'.Settles (reached (earlier ++ op :: middle)) owner' handle' id
  /-- The peers that wait at a listener are its queue. -/
  waiting : ∀ slot e, (reached ops).entries slot = some e → e.waiting = queueOf e.handle ops
  /-- An accept takes the front of the queue, or it fails and changes nothing. -/
  accepts : ∀ earlier owner handle later, ops = earlier ++ .accept owner handle :: later →
    AcceptsFront earlier owner handle

/-- **Socket handle and request authority.** -/
theorem socket_authority (ops : List SocketOp)
    (hfresh : (ops.filterMap SocketOp.begins).Nodup) : SocketAuthority ops where
  closed earlier op later owner handle hops hcloses owner' slot :=
    hops ▸ closed_forever hcloses later owner' slot
  issuedOnce := issued_nodup ops
  exact owner handle slot hslot := by
    obtain ⟨e, he, rfl, rfl⟩ := SocketSet.slotFor_ok hslot
    refine ⟨entry_issued ops slot e he, fun owner' handle' hslot' => ?_⟩
    obtain ⟨e', he', rfl, rfl⟩ := SocketSet.slotFor_ok hslot'
    rw [he] at he'
    cases he'
    exact ⟨rfl, rfl⟩
  pending earlier op later owner handle id hops hsettles := settles_pending hsettles
  settledOnce earlier op middle op' later owner handle owner' handle' id hops hsettles := by
    rw [hops, List.filterMap_append] at hfresh
    exact settled_once hfresh.of_append_left hsettles
  stopped earlier op middle op' later owner handle id hops hstops hbegun owner' handle' h' := by
    obtain ⟨begun, hmem, hbegins, hcaller, htarget⟩ := hbegun
    obtain ⟨found, hfound, hbegins', hcaller', htarget'⟩ := (settles_pending h').begin_mem
    have hsame : found = begun := by
      refine eq_of_filterMap_nodup hfresh ?_ hmem hbegins' hbegins
      rw [hops]
      exact List.mem_append_left _ hfound
    subst hsame
    rw [htarget] at htarget'
    cases htarget'
    exact stopped_forever hstops middle op' owner' id h'
  waiting := waiting_queueOf ops
  accepts earlier owner handle later hops := accepts_front earlier owner handle

/-- A datagram is sent and answered; then its socket is closed. -/
theorem socket_authority_datagram :
    let owner : SocketOwner := ⟨1, 1⟩
    let handle := socketHandle owner 1 0
    let earlier : List SocketOp := [.openSocket owner .udp, .connect owner handle 9 53,
      .send owner handle [1], .beginUdpSend owner handle 7]
    let ops := earlier ++ [.completeUdpSend owner handle 7 [2], .close owner handle]
    SocketOp.Settles (reached earlier) (.completeUdpSend owner handle 7 [2]) owner handle 7
      ∧ SocketAuthority ops := by
  intro owner handle earlier ops
  exact ⟨⟨rfl, rfl, rfl, by decide +kernel⟩, socket_authority ops (by decide)⟩

end GenOS.Socket
