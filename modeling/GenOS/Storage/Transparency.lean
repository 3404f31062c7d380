/-
  GenOS.Storage.Transparency — the block cache is invisible.

  The logical view of the cache and its device is what a reader of the cache
  would see: the cached sector where there is one, the device elsewhere.  Along
  any sequence of reads, writes and flushes it is the initial device content
  with the successful writes applied, whatever the device refuses: a call that
  stops in the middle of an eviction leaves the view as it was.
-/
import GenOS.Storage.CacheRefinement

namespace GenOS.Storage

open GenOS.Lib BlockCache Function Media

/-! ## §1. The logical view. -/

/-- The sector a reader of the cache would see. -/
def logicalView (s : BlockCache × Disk) (lba : Nat) : Sector :=
  match s.1.position lba with
  | some index => (s.1.entry index).data
  | none => s.2.media.visible lba

/-- No two valid entries hold the same block. -/
def EntriesDistinct (c : BlockCache) : Prop :=
  ∀ i j, (c.entry i).valid = true → (c.entry j).valid = true →
    (c.entry i).lba = (c.entry j).lba → i = j

variable {i : Nat} {e : StorageError}

section View

variable {f : Nat → Sector} {s s' : BlockCache × Disk}

/-- What the pair represents is what a reader sees. -/
theorem Refines.logicalView_eq (h : Refines f s) : logicalView s = f := by
  funext lba
  unfold logicalView
  cases hpos : s.1.position lba with
  | some index =>
    obtain ⟨_, hvalid, hlba⟩ := s.1.position_some hpos
    rw [← hlba]
    exact h.cached index hvalid
  | none => exact h.stored lba fun i hvalid _ => s.1.position_none hpos i hvalid

/-- Without a bound on the writes, `Synced` is the refinement alone. -/
theorem Refines.synced_any (h : Refines f s) :
    Synced f s.2.media.durable (fun _ _ => True) (fun _ => True) s :=
  ⟨h, ⟨⟨⟨fun _ => .inr trivial, fun _ _ => trivial⟩, fun _ _ => trivial⟩, fun _ _ _ => trivial⟩⟩

/-! ## §2. Failing device commands. -/

/-- A device that shows the same sectors. -/
theorem Refines.of_visible {c : BlockCache} {d d' : Disk} (h : Refines f (c, d))
    (hsame : d'.media.visible = d.media.visible) : Refines f (c, d') := by
  refine ⟨h.distinct, h.cached, fun l hl => ?_⟩
  show d'.media.visible l = f l
  rw [hsame]
  exact h.stored l hl

/-- A dirty sector that reached the device although the command failed. -/
theorem Refines.of_push {c : BlockCache} {d d' : Disk} (h : Refines f (c, d))
    (hvalid : (c.entry i).valid = true)
    (hpush : d'.media = d.media.push (c.entry i).lba (c.entry i).data) : Refines f (c, d') := by
  refine ⟨h.distinct, h.cached, fun l hl => ?_⟩
  show d'.media.visible l = f l
  rw [hpush, visible_push]
  by_cases hli : l = (c.entry i).lba
  · rw [hli, update_self]
    exact h.cached i hvalid
  · rw [update_of_ne hli]
    exact h.stored l hl

theorem writeback_error (h : Refines f s)
    (hrun : (writeback i : CacheM Disk Unit) s = (s', .error e)) : Refines f s' := by
  obtain ⟨c, d⟩ := s
  unfold writeback at hrun
  dsimp only at hrun
  split at hrun
  · rename_i hdirty
    have hcase := (d.command_cases (d.media.push (c.entry i).lba (c.entry i).data)).2
    split at hrun
    · rename_i d' error hwrite
      cases hrun
      rw [show d.command _ = (d', .error e) from hwrite] at hcase
      rcases hcase with ⟨hok, _⟩ | ⟨_, hpush | hsame⟩
      · cases hok
      · exact h.of_push (Bool.and_eq_true_iff.mp hdirty).1 hpush
      · exact h.of_visible (congrArg visible hsame)
    · cases hrun
  · cases hrun

theorem load_error {lba : Nat} (h : Refines f s)
    (hrun : (load lba i : CacheM Disk Sector) s = (s', .error e)) : Refines f s' := by
  obtain ⟨c, d⟩ := s
  unfold load at hrun
  dsimp only at hrun
  split at hrun
  · rename_i d' error hread
    cases hrun
    have hmedia := (d.read_cases lba).1
    rw [show d.read lba = (d', .error e) from hread] at hmedia
    exact h.of_visible (congrArg visible hmedia)
  · cases hrun

theorem flushDevice_error (h : Refines f s)
    (hrun : (flushDevice : CacheM Disk Unit) s = (s', .error e)) : Refines f s' := by
  obtain ⟨c, d⟩ := s
  unfold flushDevice at hrun
  dsimp only at hrun
  rcases hflush : d.flush with ⟨d', result⟩
  rw [show BlockIo.flush d = (d', result) from hflush] at hrun
  cases hrun
  have hcase := (d.command_cases d.media.settle).2
  rw [show d.command d.media.settle = (d', .error e) from hflush] at hcase
  rcases hcase with ⟨hok, _⟩ | ⟨_, hsettle | hsame⟩
  · cases hok
  · exact h.of_visible ((congrArg visible hsettle).trans d.media.visible_settle)
  · exact h.of_visible (congrArg visible hsame)

end View

/-! ## §3. The calls. -/

section Calls

variable {f : Nat → Sector}

/-- Write-back moves a sector to the device and changes nothing a reader sees. -/
theorem writeback_refines (hi : i < cacheEntries) :
    Fallible.Triple (Refines f) (writeback i : CacheM Disk Unit)
      (fun _ => Refines f) (Refines f) :=
  .intro
    (fun _ _ _ h hrun => ((writeback_triple (fun _ _ => trivial) hi []).ok
      ⟨h.synced_any, fun _ hi => absurd hi List.not_mem_nil⟩ hrun).1.1)
    (fun _ _ _ h hrun => writeback_error h hrun)

/-- A miss that fails, in the write-back or after it. -/
theorem miss_error {α : Type} {next : CacheM Disk α} {s s' : BlockCache × Disk}
    (hi : i < cacheEntries) (h : Refines f s)
    (hnext : ∀ s s' e, Refines f s → next s = (s', .error e) → Refines f s')
    (hrun : (do writeback i; next : CacheM Disk α) s = (s', .error e)) : Refines f s' :=
  have hmiss : Fallible.Triple (Refines f) (do writeback i; next : CacheM Disk α)
      (fun _ _ => True) (Refines f) :=
    .bind (writeback_refines hi) fun _ => .intro (fun _ _ _ _ _ => trivial) hnext
  hmiss.error h hrun

theorem read_refines (lba : Nat) :
    Fallible.Triple (Refines f) (BlockCache.read lba : CacheM Disk Sector)
      (fun data s => data = f lba ∧ Refines f s) (Refines f) := by
  refine .intro (fun s s' data h hrun => ?_) (fun s s' e h hrun => ?_)
  · obtain ⟨hdata, hsynced⟩ := (read_triple (fun _ _ => trivial) lba).ok h.synced_any hrun
    exact ⟨hdata, hsynced.1⟩
  · obtain ⟨c, d⟩ := s
    have htick : Refines f (c.tick, d) := ⟨h.distinct, h.cached, h.stored⟩
    simp only [BlockCache.read] at hrun
    split at hrun
    · cases hrun
    · exact miss_error c.tick.replacementIndex_lt htick (fun _ _ _ h hrun => load_error h hrun) hrun

theorem write_refines (lba : Nat) (data : Sector) :
    Fallible.Triple (Refines f) (write lba data : CacheM Disk Unit)
      (fun _ => Refines (Function.update f lba data)) (Refines f) := by
  refine .intro (fun s s' _ h hrun => ?_) (fun s s' e h hrun => ?_)
  · exact ((write_triple (fun _ _ => trivial) trivial).ok h.synced_any hrun).1
  obtain ⟨c, d⟩ := s
  have htick : Refines f (c.tick, d) := ⟨h.distinct, h.cached, h.stored⟩
  simp only [write] at hrun
  split at hrun
  · cases hrun
  · exact miss_error c.tick.replacementIndex_lt htick (fun _ _ _ _ hstore => by cases hstore)
      hrun

theorem flush_refines :
    Fallible.Triple (Refines f) (flush : CacheM Disk Unit)
      (fun _ s => Refines f s ∧ s.2.media.visible = f ∧ s.2.media.durable = f) (Refines f) := by
  refine .intro (fun s s' _ h hrun => ?_) (fun s s' e h hrun => ?_)
  · obtain ⟨hrefines, _, hdurable, hpending, _⟩ :=
      (flush_triple (fun _ _ => trivial)).ok h.synced_any hrun
    refine ⟨hrefines, ?_, hdurable⟩
    show applyWrites s'.2.media.durable s'.2.media.pending = f
    rw [hpending]
    exact hdurable
  · have hloop : Fallible.Triple (Refines f)
        (.forEach writeback (List.range cacheEntries) : CacheM Disk Unit)
        (fun _ => Refines f) (Refines f) :=
      .forEach (I := fun _ => Refines f) fun done i rest hsplit =>
        writeback_refines (List.mem_range.mp (by rw [hsplit]; simp))
    have hflush : Fallible.Triple (Refines f) (flush : CacheM Disk Unit)
        (fun _ _ => True) (Refines f) :=
      .bind hloop fun _ =>
        .intro (fun _ _ _ _ _ => trivial) (fun _ _ _ h hrun => flushDevice_error h hrun)
    exact hflush.error h hrun

end Calls

/-! ## §4. Runs. -/

inductive CacheOp where
  | read (lba : Nat)
  | write (lba : Nat) (data : Sector)
  | flush

/-- The call; a read returns its sector. -/
def CacheOp.call : CacheOp → CacheM Disk (Option Sector)
  | .read lba => do
    let data ← BlockCache.read lba
    pure (some data)
  | .write lba data => do
    BlockCache.write lba data
    pure none
  | .flush => do
    BlockCache.flush
    pure none

/-- A call that was made and its answer. -/
structure CacheEvent where
  op : CacheOp
  answer : Except StorageError (Option Sector)

/-- The state after a sequence of calls, and what was answered. -/
def runOps (s : BlockCache × Disk) : List CacheOp → (BlockCache × Disk) × List CacheEvent
  | [] => (s, [])
  | op :: ops =>
    let rest := runOps (op.call s).1 ops
    (rest.1, ⟨op, (op.call s).2⟩ :: rest.2)

/-- The array after one event: only a successful write changes it. -/
def CacheEvent.apply (e : CacheEvent) (f : Nat → Sector) : Nat → Sector :=
  match e.op, e.answer with
  | .write lba data, .ok _ => Function.update f lba data
  | _, _ => f

/-- What the event wrote to a block. -/
def CacheEvent.written (e : CacheEvent) (lba : Nat) : Option Sector :=
  match e.op, e.answer with
  | .write l data, .ok _ => if l = lba then some data else none
  | _, _ => none

/-- The data of the last successful write to a block. -/
def lastWrite (lba : Nat) : List CacheEvent → Option Sector
  | [] => none
  | e :: events => (lastWrite lba events).or (e.written lba)

theorem CacheEvent.apply_eq (e : CacheEvent) (f : Nat → Sector) (lba : Nat) :
    e.apply f lba = (e.written lba).getD (f lba) := by
  obtain ⟨op, answer⟩ := e
  cases op with
  | write l data =>
    cases answer with
    | error _ => rfl
    | ok _ =>
      show Function.update f l data lba = (if l = lba then some data else none).getD (f lba)
      by_cases hl : l = lba
      · rw [hl, update_self, if_pos rfl]
        rfl
      · rw [update_of_ne (Ne.symm hl), if_neg hl]
        rfl
  | _ => rfl

/-- The events applied to a content are its blocks with the last writes. -/
theorem apply_events (events : List CacheEvent) (f : Nat → Sector) (lba : Nat) :
    events.foldl (fun f e => e.apply f) f lba = (lastWrite lba events).getD (f lba) := by
  induction events generalizing f with
  | nil => rfl
  | cons e events ih =>
    rw [List.foldl_cons, ih, e.apply_eq]
    show _ = ((lastWrite lba events).or (e.written lba)).getD (f lba)
    cases lastWrite lba events with
    | some data => rfl
    | none => rfl

/-- One call moves the represented array as its event says. -/
theorem CacheOp.call_refines {f : Nat → Sector} {s : BlockCache × Disk} (h : Refines f s)
    (op : CacheOp) : Refines (CacheEvent.apply ⟨op, (op.call s).2⟩ f) (op.call s).1 := by
  have hcall : Fallible.Triple (Refines f) op.call
      (fun answer => Refines (CacheEvent.apply ⟨op, .ok answer⟩ f)) (Refines f) := by
    cases op with
    | read lba =>
      exact .bind ((read_refines lba).conseq (fun _ h => h) (fun _ _ h => h.2) (fun _ h => h))
        fun _ => .pure fun _ h => h
    | write lba data => exact .bind (write_refines lba data) fun _ => .pure fun _ h => h
    | flush =>
      exact .bind (flush_refines.conseq (fun _ h => h) (fun _ _ h => h.1) (fun _ h => h))
        fun _ => .pure fun _ h => h
  have hpost := hcall s h
  rcases hrun : op.call s with ⟨s', _ | answer⟩ <;> rw [hrun] at hpost
  · cases op <;> exact hpost
  · exact hpost

theorem runOps_refines {f : Nat → Sector} {s : BlockCache × Disk} (h : Refines f s)
    (ops : List CacheOp) :
    Refines ((runOps s ops).2.foldl (fun f e => e.apply f) f) (runOps s ops).1 := by
  induction ops generalizing f s with
  | nil => exact h
  | cons op ops ih => exact ih (op.call_refines h)

/-- The empty cache shows the device. -/
theorem refines_new (d : Disk) : Refines d.media.visible (new, d) := by
  have hempty : ∀ i, ((new).entry i).valid = false := by
    intro i
    rw [entry_new]
    rfl
  refine ⟨fun i j hi => ?_, fun i hi => ?_, fun _ _ => rfl⟩
  all_goals
    rw [hempty i] at hi
    cases hi

/-- **Block cache transparency.** After any sequence of calls on a new cache
over any device: no block is cached twice; the logical view is the initial
content with the last successful write of each block; a read that succeeds
returns it; a call that fails leaves it as it was; and after a successful flush
it is the content of the device, and durable. -/
theorem cache_transparent (d : Disk) (ops : List CacheOp) :
    let s := (runOps (BlockCache.new, d) ops).1
    let events := (runOps (BlockCache.new, d) ops).2
    EntriesDistinct s.1
      ∧ (∀ lba, logicalView s lba = (lastWrite lba events).getD (d.media.visible lba))
      ∧ (∀ lba s' data, BlockCache.read lba s = (s', .ok data) →
        data = (lastWrite lba events).getD (d.media.visible lba))
      ∧ (∀ op s' e, CacheOp.call op s = (s', .error e) → logicalView s' = logicalView s)
      ∧ (∀ s', BlockCache.flush s = (s', .ok ()) →
        logicalView s' = logicalView s ∧ s'.2.media.visible = logicalView s'
          ∧ s'.2.media.durable = logicalView s') := by
  intro s events
  have h : Refines (events.foldl (fun f e => e.apply f) d.media.visible) s :=
    runOps_refines (refines_new d) ops
  have hview : logicalView s = events.foldl (fun f e => e.apply f) d.media.visible :=
    h.logicalView_eq
  refine ⟨h.distinct, fun lba => ?_, fun lba s' data hrun => ?_, fun op s' e hrun => ?_,
    fun s' hrun => ?_⟩
  · rw [hview]
    exact apply_events events d.media.visible lba
  · rw [← apply_events]
    exact ((read_refines lba).ok h hrun).1
  · -- The event of a failed call changes nothing.
    have hnext := op.call_refines h
    rw [hrun] at hnext
    have hsame : CacheEvent.apply ⟨op, .error e⟩ (events.foldl (fun f e => e.apply f) d.media.visible)
        = events.foldl (fun f e => e.apply f) d.media.visible := by
      cases op <;> rfl
    rw [hview, ← hsame]
    exact hnext.logicalView_eq
  · obtain ⟨hnext, hvisible, hdurable⟩ := flush_refines.ok h hrun
    have hview' := hnext.logicalView_eq
    exact ⟨hview'.trans hview.symm, hvisible.trans hview'.symm, hdurable.trans hview'.symm⟩

end GenOS.Storage
