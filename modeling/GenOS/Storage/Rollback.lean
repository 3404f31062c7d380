/-
  GenOS.Storage.Rollback — mutations that are undone when they cannot be made
  persistent.

  `mutate_vfs` of `runtime.rs` saves the file system, runs an operation on it
  and commits the result; `sync_with` of `storage.rs` restores the saved copy
  when the commit does not succeed and only then writes the status file.  The
  device is arbitrary: every command may fail, with any effect.

  Two facts carry the results.  The status file is bound before the volume is
  imported and no later operation below `/USER/` removes it (`Reserved`), so
  rebinding it needs no free node.  And a quarantined volume refuses a commit
  before it reaches the device (`commitWith_quarantined`).
-/
import GenOS.Storage.Runs
import GenOS.Vfs.FileMap

namespace GenOS.Storage

open GenOS.Lib GenOS.Vfs PersistentFs RamVfs

/-! ## §1. Devices that record their commands. -/

inductive Command where
  | read (lba : Nat)
  | write (lba : Nat) (data : Sector)
  | flush

/-- A device and every command it was given. -/
structure Traced (σ : Type) where
  device : σ
  commands : List Command

instance {σ : Type} [BlockIo σ] : BlockIo (Traced σ) where
  read t lba :=
    let (device, answer) := BlockIo.read t.device lba
    (⟨device, .read lba :: t.commands⟩, answer)
  write t lba data :=
    let (device, answer) := BlockIo.write t.device lba data
    (⟨device, .write lba data :: t.commands⟩, answer)
  flush t :=
    let (device, answer) := BlockIo.flush t.device
    (⟨device, .flush :: t.commands⟩, answer)

/-! ## §2. Mutations. -/

variable {v : RamVfs} {fs : PersistentFs}

section Session

variable {σ : Type} [BlockIo σ] {α : Type}

/-- `sync_with`. -/
def PersistentFs.syncWith (fs : PersistentFs) (vfs : RamVfs) (restore : RamVfs → RamVfs) (io : σ) :
    PersistentFs × RamVfs × σ × CommitOutcome :=
  let (fs', io', outcome) := fs.commitWith vfs io
  if outcome ≠ .committed then (fs', publishFailureStatus fs' (restore vfs), io', outcome)
  else (fs', vfs, io', outcome)

/-- The fields of the runtime that `mutate_vfs` uses, with the device. -/
structure Session (σ : Type) where
  vfs : RamVfs
  fs : PersistentFs
  io : σ

namespace Session

/-- `mutate_vfs`.  The closure gets the file system and returns it with its
result; both `copy_from(saved)` put the saved copy back. -/
def mutateVfs (s : Session σ) (operation : RamVfs → Outcome α) : Session σ × Option α :=
  let saved := s.vfs
  match operation s.vfs with
  | (_, .error _) => ({ s with vfs := saved }, none)
  | (vfs, .ok value) =>
    match s.fs.syncWith vfs (fun _ => saved) s.io with
    | (fs, vfs', io, .committed) => (⟨vfs', fs, io⟩, some value)
    | (fs, vfs', io, _) => (⟨vfs', fs, io⟩, none)

/-- The outcome of the commit inside `mutate_vfs`, if it came to one. -/
def outcome (s : Session σ) (operation : RamVfs → Outcome α) : Option CommitOutcome :=
  match operation s.vfs with
  | (_, .error _) => none
  | (vfs, .ok _) => some (s.fs.commitWith vfs s.io).2.2

/-- The runtime right after a mount. -/
def ofMount (m : Mounted σ) : Session σ := ⟨m.vfs, m.fs, m.io⟩

end Session

/-- The path a call names. -/
def pathOf : VfsOp → Bytes
  | .mkdir path => path
  | .touch path => path
  | .write path _ => path
  | .append path _ => path
  | .writeAt path _ _ => path
  | .truncate path => path
  | .remove path => path

/-- The path starts with `/USER/` in some letter case. -/
def BelowUser (path : Bytes) : Prop := foldCase (path.take 6) = foldCase userWritablePrefix

/-- An operation that makes any calls on paths below `/USER/`, depending on
the state as it likes, and returns anything. -/
def UserMutation (operation : RamVfs → Outcome α) : Prop :=
  ∀ v, ∃ calls : List VfsOp, (∀ op ∈ calls, BelowUser (pathOf op))
    ∧ (operation v).1 = calls.foldl VfsOp.apply v

/-- Any number of mutations below `/USER/`. -/
inductive SessionSteps : Session σ → Session σ → Prop
  | refl (s : Session σ) : SessionSteps s s
  | mutate {s t : Session σ} {β : Type} {operation : RamVfs → Outcome β} : SessionSteps s t →
      UserMutation operation → SessionSteps s (t.mutateVfs operation).1

/-- The sessions after a successful mount: everything but `Unavailable`. -/
structure MountedSession (s : Session σ) : Prop where
  reached : ∃ (base : RamVfs) (io₀ : σ), Reachable base
    ∧ (mountDeviceWith base io₀).state ≠ .unavailable
    ∧ SessionSteps (Session.ofMount (mountDeviceWith base io₀)) s

/-! ## §3. The reserved status file. -/

/-- The structure holds and the status path is bound to a file. -/
structure Reserved (v : RamVfs) : Prop where
  inv : VfsInv v
  status : v.toMap.HasFile statusPath

/-- One call keeps the status file unless it removes that path. -/
theorem Reserved.apply (h : Reserved v) (op : VfsOp)
    (hop : ∀ path, op = .remove path → foldCase statusPath ≠ foldCase path) :
    Reserved (op.apply v) := by
  refine ⟨h.inv.apply op, ?_⟩
  have hmap : (v.toMap.perform op).1 = (v.perform op).1.toMap :=
    congrArg Prod.fst (h.inv.perform_toMap op)
  rw [← perform_fst, ← hmap]
  exact h.status.perform op hop

theorem belowUser_ne_status {path : Bytes} (h : BelowUser path) :
    foldCase statusPath ≠ foldCase path := by
  intro heq
  refine statusPath_outside ?_
  rw [foldCase_take, heq, ← foldCase_take]
  exact h

/-- Calls below `/USER/` keep it. -/
theorem Reserved.calls {calls : List VfsOp} (hcalls : ∀ op ∈ calls, BelowUser (pathOf op)) :
    ∀ {v : RamVfs}, Reserved v → Reserved (calls.foldl VfsOp.apply v) := by
  induction calls with
  | nil => exact fun h => h
  | cons op rest ih =>
    intro v h
    have hop : BelowUser (pathOf op) := hcalls op List.mem_cons_self
    refine ih (fun o ho => hcalls o (List.mem_cons_of_mem _ ho)) (h.apply op ?_)
    intro path heq
    rw [heq] at hop
    exact belowUser_ne_status hop

theorem Reserved.mutation (h : Reserved v) {operation : RamVfs → Outcome α}
    (hop : UserMutation operation) : Reserved (operation v).1 := by
  obtain ⟨calls, hcalls, heq⟩ := hop v
  rw [heq]
  exact .calls hcalls h

theorem Reserved.write (h : Reserved v) (path data : Bytes) :
    Reserved (v.write path data).1 :=
  h.apply (.write path data) (fun _ heq => nomatch heq)

theorem Reserved.seedStatus (h : Reserved v) (status : String) :
    Reserved (seedStatus v status).1 := by
  rw [seedStatus_vfs]
  exact h.write _ _

/-- **Rebinding the status file cannot fail**, however full the file system. -/
theorem Reserved.seedStatus_ok (h : Reserved v) {status : String}
    (hlen : (ascii status.toList).length ≤ maxFileBytes) : (Storage.seedStatus v status).2 = true := by
  have hreply := congrArg Prod.snd (h.inv.perform_toMap (.write statusPath (ascii status.toList)))
  rw [h.status.write hlen] at hreply
  unfold Storage.seedStatus
  split
  · rfl
  rename_i w e hw
  rw [perform, hw] at hreply
  cases hreply

/-- A first status write that succeeds reserves the file. -/
theorem reserved_of_seedStatus (hi : VfsInv v) {status : String}
    (h : (seedStatus v status).2 = true) : Reserved (seedStatus v status).1 := by
  have hmap := hi.perform_toMap (.write statusPath (ascii status.toList))
  have hok : (v.perform (.write statusPath (ascii status.toList))).2 = .ok none := by
    unfold seedStatus at h
    split at h
    · rename_i w hw
      rw [perform, hw]
      rfl
    · cases h
  rw [seedStatus_vfs]
  refine ⟨hi.apply (.write statusPath (ascii status.toList)), ?_⟩
  have hreply : (v.toMap.perform (.write statusPath (ascii status.toList))).2 = .ok none := by
    rw [hmap]
    exact hok
  have hfile := FileMap.hasFile_of_write hreply
  rw [hmap] at hfile
  exact hfile

/-! ## §4. Mounting reserves it. -/

theorem Reserved.place {w : RamVfs} (h : Reserved v) {path data : Bytes} {kind : NodeKind}
    (hp : place v path kind data = .ok w) : Reserved w := by
  cases kind with
  | file =>
    have hw := h.write path data
    unfold Storage.place at hp
    dsimp only at hp
    split at hp
    · rename_i v' hv'
      rw [hv'] at hw
      cases hp
      exact hw
    · cases hp
  | directory =>
    have hw := h.apply (.mkdir path) (fun _ heq => nomatch heq)
    unfold Storage.place at hp
    dsimp only at hp
    split at hp
    · rename_i v' hv'
      rw [VfsOp.apply, hv'] at hw
      cases hp
      exact hw
    · cases hp

theorem Reserved.applyEntries {snapshot : Snapshot} {used : Nat} (remaining : Nat) :
    ∀ {cursor : Nat} {v w : RamVfs}, Reserved v →
      applyEntries snapshot used remaining cursor v = .ok w → Reserved w := by
  induction remaining with
  | zero =>
    intro cursor v w h hw
    cases hw
    exact h
  | succ n ih =>
    intro cursor v w h hw
    unfold Storage.applyEntries at hw
    split at hw
    · cases hw
    split at hw
    · cases hw
    split at hw
    · cases hw
    split at hw
    · cases hw
    · rename_i v' hplace
      exact ih (h.place hplace) hw

section

variable (h : Reserved v)

include h

theorem Reserved.applySnapshot {w : RamVfs} {snapshot : Snapshot}
    (hw : applySnapshot v snapshot = (w, .ok ())) : Reserved w := by
  unfold Storage.applySnapshot mountedCandidate at hw
  simp only [copyNodes_rebuilds h.inv] at hw
  cases hval : validateSnapshot snapshot with
  | error e =>
    rw [hval] at hw
    cases hw
  | ok g =>
    rw [hval] at hw
    dsimp only at hw
    split at hw
    · rename_i candidate hcand
      cases hw
      exact .applyEntries _ h hcand
    · cases hw

theorem Reserved.restoreVolume {partition : Partition} {summaries : Fin 2 → SlotSummary}
    {selected : Fin 2} {c : BlockCache × σ}
    (hstate : (restoreVolume partition summaries selected v c).state ≠ .unavailable) :
    Reserved (restoreVolume partition summaries selected v c).vfs := by
  unfold Storage.restoreVolume at hstate ⊢
  split
  · rename_i hread
    rw [hread] at hstate
    exact absurd rfl hstate
  · rename_i cache io buffer hread
    rw [hread] at hstate
    dsimp only at hstate
    split
    · rename_i w e happly
      rw [happly] at hstate
      exact absurd rfl hstate
    · rename_i w happly
      have hw := h.applySnapshot happly
      dsimp only
      split
      · exact hw.seedStatus _
      split
      · exact hw.seedStatus _
      · exact hw.seedStatus _

theorem Reserved.writeSeeds : Reserved (writeSeeds v).1 := by
  have h₁ := h.write persistentPath persistentPayload
  unfold Storage.writeSeeds
  split
  · rename_i w e hw
    rw [hw] at h₁
    exact h₁
  · rename_i w hw
    rw [hw] at h₁
    have h₂ := h₁.write keepPath keepPayload
    split
    · rename_i w' e hw'
      rw [hw'] at h₂
      exact h₂
    · rename_i w' hw'
      rw [hw'] at h₂
      exact h₂

theorem Reserved.createVolume {io : σ} (hstate : (createVolume fs v io).state ≠ .unavailable) :
    Reserved (createVolume fs v io).vfs := by
  have habandon : ∀ fs' v' (io' : σ), (abandonCreation fs' v' io').state = .unavailable := by
    intro fs' v' io'
    unfold abandonCreation
    dsimp only
    split <;> rfl
  unfold Storage.createVolume at hstate ⊢
  split
  · rename_i hused
    rw [if_pos hused] at hstate
    exact absurd rfl hstate
  · rename_i hused
    rw [if_neg hused] at hstate
    have hseeds := h.writeSeeds
    split
    · rename_i v' hv'
      rw [hv'] at hstate
      exact absurd (habandon _ _ _) hstate
    · rename_i v' hv'
      rw [hv'] at hstate hseeds
      dsimp only at hstate
      split
      · exact hseeds.seedStatus _
      rename_i fs' io' outcome hne hcommit
      rw [hcommit] at hstate
      cases outcome with
      | committed => exact absurd rfl hne
      | rejected | failed failure => exact absurd (habandon _ _ _) hstate

theorem Reserved.mountScanned {partition : Partition} {left right : SlotSummary}
    {c : BlockCache × σ} (hstate : (mountScanned partition left right v c).state ≠ .unavailable) :
    Reserved (mountScanned partition left right v c).vfs := by
  unfold Storage.mountScanned at hstate ⊢
  cases hsel : newestValidSlot left right with
  | some selected =>
    rw [hsel] at hstate
    exact h.restoreVolume hstate
  | none =>
    rw [hsel] at hstate
    dsimp only at hstate ⊢
    split
    · rename_i hblank
      rw [if_pos hblank] at hstate
      exact h.createVolume hstate
    · rename_i hblank
      rw [if_neg hblank] at hstate
      exact absurd rfl hstate

end

/-- **A successful mount leaves the status file reserved.** -/
theorem mount_reserved {base : RamVfs} (hi : VfsInv base) {io₀ : σ}
    (hstate : (mountDeviceWith base io₀).state ≠ .unavailable) :
    Reserved (mountDeviceWith base io₀).vfs := by
  unfold mountDeviceWith at hstate ⊢
  split
  · rename_i v hv
    rw [hv] at hstate
    exact absurd rfl hstate
  · rename_i v hv
    have hres : Reserved (seedStatus base "state=error").1 :=
      reserved_of_seedStatus hi (by rw [hv])
    rw [hv] at hres hstate
    dsimp only at hstate
    split
    · rename_i hdisc
      rw [hdisc] at hstate
      exact absurd rfl hstate
    · rename_i s₀ partition hdisc
      rw [hdisc] at hstate
      exact hres.mountScanned hstate

/-! ## §5. Quarantine. -/

/-- A read-only or quarantined volume refuses before it reaches the device. -/
theorem commitWith_quarantined (h : fs.quarantine.isSome = true) (v : RamVfs) (io : σ) : fs.commitWith v io = (fs, io, .rejected) := by
  have hro : fs.isReadOnly = true := by rw [isReadOnly, h, Bool.or_true]
  unfold commitWith
  split
  · rfl
  · rw [if_pos hro]

/-- A failed commit quarantines the volume. -/
theorem commitWith_failed {fs' : PersistentFs} {io io' : σ} {failure : CommitFailure}
    (h : fs.commitWith v io = (fs', io', .failed failure)) :
    fs'.quarantine = some failure := by
  have hwrite : ∀ target generation base buffer,
      fs.writeRecord target generation base buffer io = (fs', io', .failed failure) →
      fs'.quarantine = some failure := by
    intro target generation base buffer hw
    unfold writeRecord at hw
    split at hw
    · cases hw
      rfl
    · split at hw
      · cases hw
        rfl
      · cases hw
  unfold commitWith at h
  split at h
  · cases h
  split at h
  · cases h
  split at h
  · cases h
  split at h
  · cases h
  dsimp only at h
  split at h
  · cases h
  · exact hwrite _ _ _ _ h

/-- What `sync_with` leaves behind: the committed view, or the restored one
with the status of the quarantine. -/
theorem syncWith_eq (fs : PersistentFs) (v : RamVfs) (restore : RamVfs → RamVfs) (io : σ) :
    fs.syncWith v restore io
      = ((fs.commitWith v io).1,
          if (fs.commitWith v io).2.2 = .committed then v
          else publishFailureStatus (fs.commitWith v io).1 (restore v),
          (fs.commitWith v io).2.1, (fs.commitWith v io).2.2) := by
  unfold syncWith
  dsimp only
  by_cases hc : (fs.commitWith v io).2.2 = .committed
  · rw [if_neg (by simpa using hc), if_pos hc]
  · rw [if_pos hc, if_neg hc]

/-- The status text of a quarantine. -/
def failureStatus : CommitFailure → String
  | .notPublished =>
    "state=readonly\ncommit=not-published\nview=last-acknowledged\nrecovery=remount"
  | .unknown => "state=readonly\ncommit=unknown\nview=last-acknowledged\nrecovery=remount"

theorem failureStatus_fits (failure : CommitFailure) :
    (ascii (failureStatus failure).toList).length ≤ maxFileBytes := by
  cases failure <;> decide +kernel

theorem publishFailureStatus_some {failure : CommitFailure} (h : fs.quarantine = some failure)
    (v : RamVfs) :
    publishFailureStatus fs v = (seedStatus v (failureStatus failure)).1 := by
  rw [publishFailureStatus, h]
  cases failure <;> rfl

theorem publishFailureStatus_none (h : fs.quarantine = none) (v : RamVfs) :
    publishFailureStatus fs v = v := by
  rw [publishFailureStatus, h]

/-! ## §6. One mutation. -/

namespace Session

/-- The three ways a mutation ends: refused by the operation, committed, or
rolled back with the status of the quarantine. -/
theorem mutateVfs_cases (s : Session σ) (operation : RamVfs → Outcome α) :
    (s.outcome operation = none ∧ s.mutateVfs operation = (s, none))
      ∨ ∃ vfs value c, operation s.vfs = (vfs, .ok value) ∧ c = s.fs.commitWith vfs s.io
        ∧ s.outcome operation = some c.2.2
        ∧ ((c.2.2 = .committed ∧ s.mutateVfs operation = (⟨vfs, c.1, c.2.1⟩, some value))
          ∨ (c.2.2 ≠ .committed
            ∧ s.mutateVfs operation = (⟨publishFailureStatus c.1 s.vfs, c.1, c.2.1⟩, none))) := by
  unfold outcome mutateVfs
  match hop : operation s.vfs with
  | (vfs, .error e) => exact .inl ⟨rfl, rfl⟩
  | (vfs, .ok value) =>
    refine .inr ⟨vfs, value, _, rfl, rfl, rfl, ?_⟩
    dsimp only
    rw [syncWith_eq]
    match hc : s.fs.commitWith vfs s.io with
    | (fs, io, .committed) => exact .inl ⟨rfl, rfl⟩
    | (fs, io, .rejected) => exact .inr ⟨by simp, rfl⟩
    | (fs, io, .failed failure) => exact .inr ⟨by simp, rfl⟩

end Session

theorem Reserved.publish (h : Reserved v) (fs : PersistentFs) :
    Reserved (publishFailureStatus fs v) := by
  cases hq : fs.quarantine with
  | none =>
    rw [publishFailureStatus_none hq]
    exact h
  | some failure =>
    rw [publishFailureStatus_some hq]
    exact h.seedStatus _

variable {s : Session σ}

/-- The status file stays reserved through a mutation below `/USER/`. -/
theorem Reserved.mutateVfs (h : Reserved s.vfs) {operation : RamVfs → Outcome α}
    (hop : UserMutation operation) : Reserved (s.mutateVfs operation).1.vfs := by
  rcases s.mutateVfs_cases operation with ⟨_, hs⟩ | ⟨vfs, value, c, hv, _, _, ⟨_, hs⟩ | ⟨_, hs⟩⟩
  · rw [hs]
    exact h
  · have hm := h.mutation hop
    rw [hv] at hm
    rw [hs]
    exact hm
  · rw [hs]
    exact h.publish c.1

/-- A quarantined volume stays as it is. -/
theorem mutateVfs_quarantined (h : s.fs.quarantine.isSome = true) (operation : RamVfs → Outcome α) :
    (s.mutateVfs operation).1.fs = s.fs := by
  rcases s.mutateVfs_cases operation with ⟨_, hs⟩ | ⟨vfs, value, c, _, hc, _, ⟨_, hs⟩ | ⟨_, hs⟩⟩
  · rw [hs]
  · rw [hs, hc, commitWith_quarantined h]
  · rw [hs, hc, commitWith_quarantined h]

/-! ## §7. The rest of the file system. -/

/-- The nodes other than the status file, in order. -/
def others (v : RamVfs) : List VfsNode :=
  v.nodes.filter (fun n => foldCase n.path.asStr ≠ foldCase statusPath)

/-- Rebinding the status file touches no other node. -/
theorem others_seedStatus (h : Reserved v) (status : String) :
    others (seedStatus v status).1 = others v := by
  obtain ⟨n₀, hn₀, _⟩ := h.status
  rw [toMap_named] at hn₀
  rw [seedStatus_vfs]
  unfold RamVfs.write
  split
  · rfl
  rename_i hlen
  cases hloc : v.findIndex statusPath with
  | none =>
    rw [(v.findIndex_eq_none_iff statusPath).mp hloc] at hn₀
    cases hn₀
  | some i =>
    dsimp only
    split
    · rfl
    rw [h.inv.write_existing hloc (Nat.le_of_not_lt hlen)]
    obtain ⟨pre, n, post, hv, rfl, _, hf⟩ := h.inv.located hloc
    rw [others, others, setData_of_split hv, hv]
    simp [List.filter_append, hf]

/-! ## §8. Sessions. -/

theorem SessionSteps.reserved {t : Session σ} (h : SessionSteps s t) (hs : Reserved s.vfs) :
    Reserved t.vfs := by
  induction h with
  | refl => exact hs
  | mutate _ hop ih => exact ih.mutateVfs hop

theorem SessionSteps.quarantined {t : Session σ} (h : SessionSteps s t)
    (hs : s.fs.quarantine.isSome = true) : t.fs = s.fs := by
  induction h with
  | refl => rfl
  | mutate _ _ ih => rw [mutateVfs_quarantined (by rw [ih]; exact hs), ih]

theorem MountedSession.reserved (h : MountedSession s) : Reserved s.vfs := by
  obtain ⟨base, io₀, hbase, hstate, hsteps⟩ := h.reached
  exact hsteps.reserved (mount_reserved (reachable_inv hbase) hstate)

end Session

/-- **A mutation that is not committed is undone.**  In every session after a
successful mount, on any device: an operation without a commit changes no
node but the status file; once a commit failed, every later one is
rejected and the device, which may record its commands, is left alone; and
the status of the failure is always written. -/
theorem uncommitted_mutation_undone {σ : Type} [BlockIo σ] {s : Session σ} (hs : MountedSession s)
    {α : Type} (operation : RamVfs → Outcome α) :
    ((s.mutateVfs operation).2 = none →
        others (s.mutateVfs operation).1.vfs = others s.vfs)
      ∧ (∀ failure, s.outcome operation = some (.failed failure) →
        (s.mutateVfs operation).1.vfs = (seedStatus s.vfs (failureStatus failure)).1
        ∧ ∀ t, SessionSteps (s.mutateVfs operation).1 t → ∀ v,
          t.fs.commitWith v t.io = (t.fs, t.io, .rejected)
          ∧ ∀ {τ : Type} [BlockIo τ] (io : Traced τ), t.fs.commitWith v io = (t.fs, io, .rejected))
      ∧ ∀ failure, (seedStatus s.vfs (failureStatus failure)).2 = true := by
  have hres := hs.reserved
  refine ⟨?_, ?_, fun failure => hres.seedStatus_ok (failureStatus_fits failure)⟩
  · intro hnone
    rcases s.mutateVfs_cases operation with ⟨_, heq⟩ | ⟨vfs, value, c, _, _, _, ⟨_, heq⟩ | ⟨_, heq⟩⟩
    · rw [heq]
    · rw [heq] at hnone
      cases hnone
    · rw [heq]
      show others (publishFailureStatus c.1 s.vfs) = _
      cases hq : c.1.quarantine with
      | none => rw [publishFailureStatus_none hq]
      | some failure => rw [publishFailureStatus_some hq, others_seedStatus hres]
  · intro failure hfail
    rcases s.mutateVfs_cases operation with ⟨hnone, _⟩ | ⟨vfs, value, c, _, hc, hout, hend⟩
    · rw [hnone] at hfail
      cases hfail
    · rw [hout, Option.some.injEq] at hfail
      have hq : c.1.quarantine = some failure := by
        have hcommit : s.fs.commitWith vfs s.io = (c.1, c.2.1, .failed failure) := by
          rw [← hc, ← hfail]
        exact commitWith_failed hcommit
      rcases hend with ⟨hcom, _⟩ | ⟨_, heq⟩
      · rw [hcom] at hfail
        cases hfail
      · rw [heq]
        refine ⟨publishFailureStatus_some hq s.vfs, ?_⟩
        intro t ht v
        have hfs : t.fs = c.1 := ht.quarantined (by rw [hq]; rfl)
        have hqt : t.fs.quarantine.isSome = true := by rw [hfs, hq]; rfl
        exact ⟨commitWith_quarantined hqt v t.io, fun io => commitWith_quarantined hqt v io⟩

/-- The second mutation of a new volume. -/
theorem uncommitted_mutation_undone_newVolume :
    let s := Session.ofMount
      (mountDeviceWith bootNamespace (Disk.boot blankDisk ⟨fun _ => .ok, fun _ => true⟩))
    let operation : RamVfs → Outcome Unit := fun v => v.touch (ascii "/USER/A".toList)
    let t := (s.mutateVfs operation).1
    ((t.mutateVfs operation).2 = none → others (t.mutateVfs operation).1.vfs = others t.vfs)
      ∧ (seedStatus t.vfs (failureStatus .unknown)).2 = true := by
  intro s operation t
  have hop : UserMutation operation := by
    intro v
    refine ⟨[.touch (ascii "/USER/A".toList)], ?_, rfl⟩
    intro op hop
    rw [List.mem_singleton.mp hop]
    show foldCase _ = foldCase _
    decide +kernel
  have hs : MountedSession t :=
    ⟨bootNamespace, _, bootNamespace_reachable, by rw [blankDisk_created]; decide,
      .mutate (.refl s) hop⟩
  have hall := uncommitted_mutation_undone hs operation
  exact ⟨hall.1, hall.2.2 .unknown⟩

end GenOS.Storage
