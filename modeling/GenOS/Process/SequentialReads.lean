/-
  GenOS.Process.SequentialReads — reads through one handle while others write.

  A handle remembers the size that its file had when it was opened and never
  moves its offset past it, so the reads through a handle are `Chained`: each one
  starts where the handle stood, and the handle stops at the remembered size.
  They are the consecutive ranges of the file exactly as long as no read but the
  last ends behind that size (`Chained.sequential_iff`).
-/
import GenOS.Process.FileService
import GenOS.Storage.Runs

namespace GenOS.Process

open GenOS.Lib GenOS.Vfs GenOS.Storage List Slots

/-! ## §1. Chains of reads. -/

/-- A file and the size that it had when it was opened. -/
structure OpenFile where
  path : FixedText
  size : Nat

/-- The read returned the bytes that the file then had at the range of the read. -/
def FileRead.Exact (path : FixedText) (r : FileRead) : Prop :=
  r.path = path ∧ r.bytes = (r.content.drop r.offset).take r.bytes.length

/-- From an offset on, the reads return the consecutive ranges of the file. -/
def Sequential (path : FixedText) : Nat → List FileRead → Prop
  | _, [] => True
  | offset, r :: rs =>
    r.offset = offset ∧ r.Exact path ∧ Sequential path (offset + r.bytes.length) rs

/-- Each read starts where the one before left the handle, which never goes
beyond the size of the file. -/
def Chained (file : OpenFile) : Nat → List FileRead → Prop
  | _, [] => True
  | offset, r :: rs =>
    r.offset = offset ∧ r.Exact file.path ∧ Chained file (min (offset + r.bytes.length) file.size) rs

theorem Chained.nonempty {file : OpenFile} {offset : Nat} {rs : List FileRead}
    (hinside : offset ≤ file.size) (h : Chained file offset rs) : Chained file offset (rs.filter fun r => r.bytes ≠ []) := by
  induction rs generalizing offset with
  | nil => exact trivial
  | cons r rs ih =>
    obtain ⟨hoffset, hexact, hrest⟩ := h
    have hlater := ih (Nat.min_le_right _ _) hrest
    rw [filter_cons]
    by_cases hempty : r.bytes = []
    · -- an empty read leaves the handle where it was
      rw [hempty, length_nil, Nat.add_zero, Nat.min_eq_left hinside] at hlater
      rw [if_neg (by simp [hempty])]
      exact hlater
    · rw [if_pos (by simp [hempty])]
      exact ⟨hoffset, hexact, hlater⟩

/-- Chained reads are sequential exactly when none but the last ends behind
the size. -/
theorem Chained.sequential_iff {file : OpenFile} {offset : Nat} {rs : List FileRead}
    (h : Chained file offset rs) :
    Sequential file.path offset rs ↔ ∀ r ∈ rs.dropLast, r.offset + r.bytes.length ≤ file.size := by
  induction rs generalizing offset with
  | nil => exact iff_of_true trivial nofun
  | cons r rs ih =>
    obtain ⟨hoffset, hexact, hrest⟩ := h
    cases rs with
    | nil => exact iff_of_true ⟨hoffset, hexact, trivial⟩ nofun
    | cons next rs =>
      have hnext : next.offset = min (offset + r.bytes.length) file.size := hrest.1
      rw [dropLast_cons_cons]
      constructor
      · intro hseq
        have hstart : next.offset = offset + r.bytes.length := hseq.2.2.1
        have hfits : offset + r.bytes.length ≤ file.size := by omega
        rw [Nat.min_eq_left hfits] at hrest
        intro other hother
        rcases mem_cons.mp hother with rfl | hother
        · rw [hoffset]
          exact hfits
        · exact (ih hrest).mp hseq.2.2 other hother
      · intro hall
        have hfits : offset + r.bytes.length ≤ file.size := by
          rw [← hoffset]
          exact hall r mem_cons_self
        rw [Nat.min_eq_left hfits] at hrest
        exact ⟨hoffset, hexact,
          (ih hrest).mpr fun other hother => hall other (mem_cons_of_mem _ hother)⟩

/-! ## §2. The capability of a handle. -/

namespace ManagedProcess

variable {P : Platform} {p : ManagedProcess P} {handle other rights rights' : BitVec 64}
  {c : FileCapability} {f : FileCapability → FileCapability}

/-- An assignment through the handle changes its capability. -/
theorem fileHandle_update_self (hf : ∀ c, (f c).handle = c.handle)
    (h : p.fileHandle handle rights = some c) :
    (p.updateFileHandle handle rights f).fileHandle handle rights = some (f c) := by
  unfold fileHandle at h
  split at h
  · rename_i hallows
    rw [find_eq_position, Option.bind_eq_some_iff] at h
    obtain ⟨slot, hslot, hc⟩ := h
    obtain ⟨c', hc', hmatch⟩ := position_some hslot
    obtain rfl : c' = c := Option.some.inj (hc'.symm.trans hc)
    have hupdate : p.updateFileHandle handle rights f
        = { p with fileHandles := p.fileHandles.put slot (f c') } := by
      unfold updateFileHandle
      rw [if_pos hallows, hslot]
      dsimp only
      rw [hc]
    rw [hupdate]
    unfold fileHandle
    rw [if_pos hallows]
    exact find_put_self hslot (by rw [hf]; exact hmatch)
  · cases h

/-- `updateFileHandle` changes nothing or one capability with the handle. -/
theorem updateFileHandle_cases (p : ManagedProcess P) (handle requiredRights : BitVec 64)
    (f : FileCapability → FileCapability) :
    p.updateFileHandle handle requiredRights f = p
      ∨ ∃ slot c, p.fileHandles slot = some c ∧ c.handle = handle
        ∧ p.handles.allows handle .file requiredRights = true
        ∧ p.updateFileHandle handle requiredRights f
          = { p with fileHandles := p.fileHandles.put slot (f c) } := by
  unfold updateFileHandle
  by_cases hallowed : p.handles.allows handle .file requiredRights = true
  · rw [if_pos hallowed]
    cases hpos : p.fileHandles.position fun capability => capability.handle == handle with
    | none => exact .inl rfl
    | some slot =>
      obtain ⟨c, hc, hhandle⟩ := position_some hpos
      dsimp only
      rw [hc]
      exact .inr ⟨slot, c, hc, beq_iff_eq.mp hhandle, hallowed, rfl⟩
  · rw [if_neg hallowed]
    exact .inl rfl

/-- An assignment through another handle does not. -/
theorem fileHandle_update_other (hf : ∀ c, (f c).handle = c.handle) (hne : other ≠ handle) :
    (p.updateFileHandle other rights' f).fileHandle handle rights
      = p.fileHandle handle rights := by
  rcases p.updateFileHandle_cases other rights' f with hsame | ⟨slot, c, hc, hhandle, -, hupdate⟩
  · rw [hsame]
  have hold : (c.handle == handle) = false := by
    rw [hhandle]
    exact beq_eq_false_iff_ne.mpr hne
  rw [hupdate]
  unfold fileHandle
  dsimp only
  rw [find_put_other hc hold (by rw [hf]; exact hold)]

/-- The handle stands at an offset of the file that was opened, and no write through it waits for an answer. -/
structure Reader (handle : BitVec 64) (file : OpenFile) (offset : Nat) (p : ManagedProcess P) : Prop where
  capability : ∃ c, p.fileHandle handle userFileRightRead = some c ∧ c.offset.toNat = offset
    ∧ c.path = file.path ∧ c.size.toNat = file.size ∧ c.snapshot = false
  inside : offset ≤ file.size
  writes : p.awaits .fileWrite = true →
    ∀ pending, p.pendingFileWrite = some pending → pending.handle ≠ handle

section Reader

variable {file : OpenFile} {offset : Nat}

section

variable (h : Reader handle file offset p)

include h

/-- A call that leaves the capabilities alone and does not park a write. -/
theorem Reader.keep {q : ManagedProcess P} (hhandles : q.handles = p.handles)
    (hfiles : q.fileHandles = p.fileHandles)
    (hwrites : q.awaits .fileWrite = true →
      ∀ pending, q.pendingFileWrite = some pending → pending.handle ≠ handle)
    : Reader handle file offset q := by
  refine ⟨?_, h.inside, hwrites⟩
  unfold fileHandle
  rw [hhandles, hfiles]
  exact h.capability

theorem Reader.reply (value : BitVec 64) : Reader handle file offset (p.reply value) :=
  h.keep rfl rfl nofun

/-- A request number is taken. -/
theorem Reader.withRequestId {α : Type}
    {f : ManagedProcess P → BitVec 64 → ManagedProcess P × Option α}
    (hf : ∀ next requestId, Reader handle file offset (f { p with requestIds := next } requestId).1)
    : Reader handle file offset (p.withRequestId f).1 := by
  unfold ManagedProcess.withRequestId allocateRequestId
  cases allocateRequest p.requestIds with
  | none => exact h.reply _
  | some numbers => exact hf numbers.2 numbers.1

theorem Reader.blockFileHandleRead (other address capacity : BitVec 64) :
    Reader handle file offset (p.blockFileHandleRead other address capacity).1 := by
  unfold ManagedProcess.blockFileHandleRead
  split
  · exact h.reply _
  · exact h.withRequestId fun _ _ => h.keep rfl rfl nofun

theorem Reader.blockFileHandleWrite (hne : other ≠ handle) (data : FileWriteBuffer) :
    Reader handle file offset (p.blockFileHandleWrite other data).1 := by
  unfold ManagedProcess.blockFileHandleWrite
  split
  · exact h.reply _
  refine h.withRequestId fun _ _ => h.keep rfl rfl ?_
  rintro - pending hpending
  cases hpending
  exact hne

end

variable (count : BitVec 64) (c : FileCapability)

theorem advanceWrite_handle : (advanceWrite count c).handle = c.handle := rfl

theorem advanceRead_handle : (advanceRead count c).handle = c.handle := rfl

/-- A write through another handle is answered. -/
theorem Reader.completeFileWrite (h : Reader handle file offset p) (request : FileWriteRequest)
    (written : Option (BitVec 64)) :
    Reader handle file offset (p.completeFileWrite request written).1 := by
  unfold ManagedProcess.completeFileWrite
  split
  · exact h
  rename_i hawaits
  rw [Bool.not_eq_false] at hawaits
  split
  · exact h
  rename_i pending hpending
  rw [Option.filter_eq_some_iff] at hpending
  have hother : request.handle ≠ handle := by
    have hsame := hpending.2
    unfold PendingFileWrite.isFor at hsame
    simp only [Bool.and_eq_true, beq_iff_eq] at hsame
    rw [← hsame.1.1.1.2]
    exact h.writes hawaits pending hpending.1
  split
  · exact h
  dsimp only
  split
  · exact h.keep rfl rfl nofun
  rename_i count _
  refine ⟨?_, h.inside, nofun⟩
  show ∃ c, (ManagedProcess.updateFileHandle _ _ _ _).fileHandle _ _ = some c ∧ _
  rw [fileHandle_update_other (advanceWrite_handle count) hother]
  exact h.capability

/-- The offset after a read of `count` bytes. -/
theorem toNat_advanceRead :
    (advanceRead count c).offset.toNat = min (c.offset.toNat + count.toNat) c.size.toNat := by
  have hsize := c.size.isLt
  unfold advanceRead saturatingAdd64
  dsimp only
  by_cases hsum : c.offset.toNat + count.toNat < 2 ^ 64
  · have hval : (c.offset + count).toNat = c.offset.toNat + count.toNat := by
      rw [BitVec.toNat_add]
      exact Nat.mod_eq_of_lt hsum
    rw [if_pos hsum]
    split
    · rename_i hlt
      have hlt := BitVec.lt_def.mp hlt
      omega
    · rename_i hlt
      have hlt := mt BitVec.lt_def.mpr hlt
      omega
  · -- a sum that saturates is behind every size
    have hmax : (BitVec.allOnes 64).toNat = 2 ^ 64 - 1 := rfl
    rw [if_neg hsum]
    split
    · rename_i hlt
      have hlt := BitVec.lt_def.mp hlt
      omega
    · omega

/-- What an accepted answer to a read does: some bytes are copied, and the handle
moves on by their number. -/
theorem completeFileRead_cases (p : ManagedProcess P) (machine : P.Machine)
    (request : FileReadRequest) (offered : Option Bytes) :
    (∃ error, p.completeFileRead machine request offered = (machine, p, .error error))
      ∨ ∃ pending snapshot data result, pending.isFor request = true
        ∧ p.readsSnapshot pending = some snapshot
        ∧ (snapshot = false → data = offered)
        ∧ result = data.elim (machine, none) (p.copyRead machine pending)
        ∧ p.completeFileRead machine request offered
          = (result.1, ({ p with pendingFileRead := none }.advanceReadHandle pending
              result.2).wake (result.2.getD unavailable), .ok ()) := by
  unfold ManagedProcess.completeFileRead
  split
  · exact .inl ⟨_, rfl⟩
  split
  · exact .inl ⟨_, rfl⟩
  rename_i pending hpending
  split
  · exact .inl ⟨_, rfl⟩
  rename_i snapshot hsnapshot
  refine .inr ⟨pending, snapshot, _, _, (Option.filter_eq_some_iff.mp hpending).2, hsnapshot,
    ?_, rfl, rfl⟩
  intro hfalse
  rw [hfalse]
  rfl

/-- How many bytes a copy gives. -/
theorem copyRead_count {machine : P.Machine} {pending : PendingFileRead} {bytes : Bytes}
    {count : BitVec 64} (h : (p.copyRead machine pending bytes).2 = some count) :
    count = BitVec.ofNat 64 (min bytes.length pending.capacity.toNat) := by
  unfold copyRead at h
  dsimp only at h
  split at h
  · rename_i hzero
    cases h
    rw [hzero]
    rfl
  · split at h
    · cases h
    · cases h
      rfl

/-- The answer to a read through another handle. -/
theorem Reader.completeFileRead_other (h : Reader handle file offset p) {request : FileReadRequest}
    (hother : request.handle ≠ handle) (machine : P.Machine) (offered : Option Bytes) :
    Reader handle file offset (p.completeFileRead machine request offered).2.1 := by
  rcases p.completeFileRead_cases machine request offered with
    ⟨error, hsame⟩ | ⟨pending, snapshot, data, result, hfor, -, -, -, hok⟩
  · rw [hsame]
    exact h
  · rw [hok]
    unfold PendingFileRead.isFor at hfor
    simp only [Bool.and_eq_true, beq_iff_eq] at hfor
    rw [← hfor.1.1.2] at hother
    refine ⟨?_, h.inside, nofun⟩
    show ∃ c, (ManagedProcess.advanceReadHandle _ pending result.2).fileHandle _ _ = some c ∧ _
    unfold advanceReadHandle
    split
    · rw [fileHandle_update_other (advanceRead_handle _) hother]
      exact h.capability
    · exact h.capability

/-- The answer to a read through the handle: it reads from the offset, and the
offset moves on by what was copied. -/
theorem Reader.completeFileRead_self (h : Reader handle file offset p) (hzero : handle ≠ 0)
    {request : FileReadRequest} (hself : request.handle = handle) {machine : P.Machine}
    {offered : Option Bytes} {machine' : P.Machine} {q : ManagedProcess P}
    (hok : p.completeFileRead machine request offered = (machine', q, .ok ())) :
    ∃ copied : Option (BitVec 64), q.process.rax = copied.getD unavailable
      ∧ request.offset.toNat = offset ∧ request.path = file.path
      ∧ Reader handle file (min (offset + (copied.getD 0).toNat) file.size) q
      ∧ ∀ count, copied = some count → ∃ bytes, offered = some bytes
        ∧ count = BitVec.ofNat 64 (min bytes.length request.capacity.toNat) := by
  rcases p.completeFileRead_cases machine request offered with
    ⟨error, hsame⟩ | ⟨pending, snapshot, data, result, hfor, hsnapshot, hdata, hresult, hdone⟩
  · rw [hsame] at hok
    cases hok
  rw [hdone] at hok
  cases hok
  unfold PendingFileRead.isFor at hfor
  simp only [Bool.and_eq_true, beq_iff_eq] at hfor
  obtain ⟨⟨⟨⟨-, hpath⟩, hhandle⟩, hoffset⟩, hcapacity⟩ := hfor
  rw [hself] at hhandle
  obtain ⟨c, hc, hcoffset, hcpath, hcsize, hcsnapshot⟩ := h.capability
  -- the capability is not of a snapshot and stands where the read was asked for
  unfold readsSnapshot at hsnapshot
  rw [hhandle, if_pos hzero, hc] at hsnapshot
  dsimp only at hsnapshot
  split at hsnapshot
  · cases hsnapshot
  rename_i hmoved
  rw [not_or, not_not, not_not] at hmoved
  cases hsnapshot
  have hplain := hdata hcsnapshot
  refine ⟨result.2, rfl, ?_, ?_, ⟨?_, Nat.min_le_right _ _, nofun⟩, ?_⟩
  · rw [← hoffset, ← hmoved.2]
    exact hcoffset
  · rw [← hpath, ← hmoved.1]
    exact hcpath
  · refine ⟨advanceRead (result.2.getD 0) c, ?_, ?_, hcpath, hcsize, hcsnapshot⟩
    · show (ManagedProcess.advanceReadHandle _ pending result.2).fileHandle _ _ = _
      unfold advanceReadHandle
      rw [hhandle, if_pos hzero]
      exact fileHandle_update_self (advanceRead_handle _) hc
    · rw [toNat_advanceRead, hcoffset, hcsize]
  · intro count hcount
    rw [hresult, hplain] at hcount
    cases offered with
    | none => cases hcount
    | some bytes =>
      refine ⟨bytes, rfl, ?_⟩
      rw [← hcapacity]
      exact copyRead_count hcount

end Reader

end ManagedProcess

/-! ## §3. The service. -/

/-- The file that has these bytes. -/
theorem contentOf_some {vfs : RamVfs} {path data : Bytes} (h : contentOf vfs path = some data) :
    ∃ node, vfs.find path = some node ∧ node.kind = .file ∧ node.data = data := by
  unfold contentOf RamVfs.read at h
  cases hfind : vfs.find path with
  | none =>
    rw [hfind] at h
    cases h
  | some node =>
    rw [hfind] at h
    dsimp only at h
    cases hkind : node.kind with
    | directory =>
      rw [if_pos hkind] at h
      cases h
    | file =>
      rw [if_neg (by rw [hkind]; exact nofun)] at h
      cases h
      exact ⟨node, rfl, hkind, rfl⟩

/-- The bytes offered to a read through a handle. -/
theorem readData_handle {vfs : RamVfs} {request : FileReadRequest} (hzero : request.handle ≠ 0)
    (report : Option Bytes) : readData vfs request report
      = (contentOf vfs request.path.asStr).map fun data => data.drop request.offset.toNat := by
  unfold readData
  rw [if_neg fun h => hzero h.1]
  congr 1
  funext data
  by_cases hlong : request.offset.toNat ≤ data.length
  · rw [Nat.min_eq_left hlong]
  · rw [Nat.min_eq_right (by omega), drop_length, drop_eq_nil_of_le (by omega)]

namespace FileService

variable {P : Platform} {σ : Type} {s : FileService P σ} {index : Fin maxAsyncProcesses}
  {handle : BitVec 64} {file : OpenFile} {offset : Nat}

/-- The process of a slot holds the handle. -/
def Reads (s : FileService P σ) (index : Fin maxAsyncProcesses) (handle : BitVec 64)
    (file : OpenFile) (offset : Nat) : Prop :=
  ∃ p, s.processes.slots index = some p ∧ p.Reader handle file offset

/-- The reads through the handle, also the empty ones. -/
def allThrough (index : Fin maxAsyncProcesses) (handle : BitVec 64) (reads : List FileRead) :
    List FileRead :=
  reads.filter fun r => r.index = index ∧ r.handle = handle

/-- The event answers a read through the handle that goes past the length which
the file had when it was opened. -/
def Overruns (s : FileService P σ) (index : Fin maxAsyncProcesses) (handle : BitVec 64)
    (file : OpenFile) : FileEvent → Prop
  | .answerRead request _ =>
    s.processes.vfsRequestActive (.read request) = true
      ∧ s.processes.ownerIndex request.toRequestOwner = some index ∧ request.handle = handle
      ∧ file.size < request.offset.toNat + min request.capacity.toNat
        (((contentOf s.session.vfs request.path.asStr).getD []).length - request.offset.toNat)
  | _ => False

instance (s : FileService P σ) : DecidablePred (s.Overruns index handle file)
  | .answerRead .. => inferInstanceAs (Decidable (_ ∧ _ ∧ _ ∧ _))
  | .read .. => instDecidableFalse
  | .write .. => instDecidableFalse
  | .answerWrite _ => instDecidableFalse

/-- What an event does to the handle: nothing, or one read from its offset. -/
def Advance (s : FileService P σ) (index : Fin maxAsyncProcesses) (handle : BitVec 64)
    (file : OpenFile) (offset : Nat) (event : FileEvent) (s' : FileService P σ)
    (reads : List FileRead) : Prop :=
  (allThrough index handle reads = [] ∧ s'.Reads index handle file offset)
    ∨ ∃ r, allThrough index handle reads = [r] ∧ r.offset = offset ∧ r.Exact file.path
      ∧ (file.size < r.offset + r.bytes.length → s.Overruns index handle file event)
      ∧ s'.Reads index handle file (min (offset + r.bytes.length) file.size)

section

variable (h : s.Reads index handle file offset)

include h

/-- A call of a process. -/
theorem Reads.call {caller : Fin maxAsyncProcesses} {event : ProcessEvent} {α : Type}
    {wrap : α → ProcessManager.Served} {f : ManagedProcess P → ManagedProcess P × Option α}
    (hevent : s.processes.dispatch caller 0 event = s.processes.serveRequest caller wrap f)
    (hself : caller = index → ∀ p : ManagedProcess P, p.Reader handle file offset →
      (f p).1.Reader handle file offset)
    : (s.call caller event).Reads index handle file offset := by
  obtain ⟨p, hp, hreader⟩ := h
  unfold FileService.call
  split
  · exact ⟨p, hp, hreader⟩
  split
  · unfold Reads
    show ∃ p, (s.processes.dispatch caller 0 event).1.slots index = some p ∧ _
    rw [hevent, ProcessManager.serveRequest_fst]
    by_cases hcaller : caller = index
    · subst hcaller
      rw [ProcessManager.onSlot_self hp]
      exact ⟨_, rfl, hself rfl p hreader⟩
    · rw [ProcessManager.onSlot_other (Ne.symm hcaller)]
      exact ⟨p, hp, hreader⟩
  · exact ⟨p, hp, hreader⟩

/-- An answer to a request. -/
theorem Reads.onOwner {owner : RequestOwner}
    {f : P.Machine → ManagedProcess P → P.Machine × ManagedProcess P × Except LaunchError Unit}
    (hself : ∀ machine p, p.Reader handle file offset → (f machine p).2.1.Reader handle file offset)
    : Reads { s with processes := (s.processes.onOwner owner f).1 } index handle file offset := by
  obtain ⟨p, hp, hreader⟩ := h
  unfold ProcessManager.onOwner
  split
  · exact ⟨p, hp, hreader⟩
  rename_i owned _
  by_cases howned : owned = index
  · subst howned
    exact ⟨_, ProcessManager.onSlot_self hp, hself _ p hreader⟩
  · exact ⟨p, (ProcessManager.onSlot_other (Ne.symm howned)).trans hp, hreader⟩

theorem Reads.answerWrite [BlockIo σ] (request : FileWriteRequest) :
    (s.answerWrite request).Reads index handle file offset := by
  have hanswer : ∀ written, Reads
      { s with processes := (s.processes.completeFileWrite request written).1 }
      index handle file offset :=
    fun written => h.onOwner fun _ _ hreader => hreader.completeFileWrite request written
  unfold FileService.answerWrite
  split
  · exact h
  split
  · exact hanswer none
  · exact hanswer _

end

variable {vfs : RamVfs}

/-- A read that was answered returned the bytes of the file at its range. -/
theorem readOf_exact {request : FileReadRequest} (hzero : request.handle ≠ 0)
    {report : Option Bytes} {q : ManagedProcess P} {copied : Option (BitVec 64)}
    (hrax : q.process.rax = copied.getD unavailable)
    (hcopied : ∀ count, copied = some count → ∃ bytes, readData vfs request report = some bytes
      ∧ count = BitVec.ofNat 64 (min bytes.length request.capacity.toNat)) :
    readOf vfs request (readData vfs request report) index q = none ∧ copied = none
      ∨ ∃ r, readOf vfs request (readData vfs request report) index q = some r
        ∧ r.index = index ∧ r.handle = request.handle ∧ r.offset = request.offset.toNat
        ∧ r.Exact request.path ∧ r.bytes.length = (copied.getD 0).toNat
        ∧ r.bytes.length ≤ min request.capacity.toNat
          (((contentOf vfs request.path.asStr).getD []).length - request.offset.toNat) := by
  unfold readOf
  cases copied with
  | none =>
    exact .inl ⟨if_pos hrax, rfl⟩
  | some count =>
    obtain ⟨bytes, hoffered, hcount⟩ := hcopied count rfl
    have hdata := hoffered
    rw [readData_handle hzero, Option.map_eq_some_iff] at hdata
    obtain ⟨content, hcontent, hdrop⟩ := hdata
    have hsmall : bytes.length ≤ maxFileBytes := by
      obtain ⟨node, -, -, hnode⟩ := contentOf_some hcontent
      rw [← hdrop, length_drop, ← hnode]
      exact Nat.le_trans (Nat.sub_le _ _) node.fits
    have hmax : maxFileBytes = 512 := rfl
    have hval : count.toNat = min bytes.length request.capacity.toNat := by
      rw [hcount, BitVec.toNat_ofNat]
      exact Nat.mod_eq_of_lt (by omega)
    -- the number of bytes is no error code
    have hsuccess : q.process.rax ≠ unavailable := by
      rw [hrax]
      intro herror
      have hcode : count.toNat = unavailable.toNat := congrArg BitVec.toNat herror
      have hlarge : unavailable.toNat = 2 ^ 64 - 3 := rfl
      omega
    have hlength : (bytes.take count.toNat).length = count.toNat := by
      rw [length_take]
      omega
    rw [if_neg hsuccess]
    refine .inr ⟨_, rfl, rfl, rfl, rfl, ?_, ?_, ?_⟩
    · refine ⟨rfl, ?_⟩
      dsimp only
      rw [hoffered, hrax, hcontent, ← hdrop]
      show (content.drop _).take count.toNat = (content.drop _).take
        ((content.drop request.offset.toNat).take count.toNat).length
      rw [hdrop, hlength]
    · dsimp only
      rw [hoffered, hrax]
      exact hlength
    · have hrest : bytes.length = content.length - request.offset.toNat := by
        rw [← hdrop, length_drop]
      dsimp only
      rw [hoffered, hrax, hcontent]
      show (bytes.take count.toNat).length ≤ min _ (content.length - _)
      omega

/-- What an answer to a read does to the processes: nothing, or its owner got the
bytes. -/
theorem answerRead_cases (s : FileService P σ) (request : FileReadRequest)
    (report : Option Bytes) :
    ((s.answerRead request report).1.processes.slots = s.processes.slots
        ∧ (s.answerRead request report).2 = [])
      ∨ ∃ owner p machine q, s.processes.vfsRequestActive (.read request) = true
        ∧ s.processes.ownerIndex request.toRequestOwner = some owner
        ∧ s.processes.slots owner = some p
        ∧ p.completeFileRead s.processes.machine request
            (readData s.session.vfs request report) = (machine, q, .ok ())
        ∧ (s.answerRead request report).1.processes.slots = s.processes.slots.put owner q
        ∧ (s.answerRead request report).2 = (readOf s.session.vfs request
            (readData s.session.vfs request report) owner q).toList := by
  unfold FileService.answerRead
  split
  · exact .inl ⟨rfl, rfl⟩
  rename_i hactive
  rw [Bool.not_eq_false] at hactive
  dsimp only
  unfold ProcessManager.completeFileRead ProcessManager.onOwner
  cases howner : s.processes.ownerIndex request.toRequestOwner with
  | none => exact .inl ⟨rfl, rfl⟩
  | some owner =>
    obtain ⟨p, hp, -⟩ := position_some howner
    dsimp only
    rw [ProcessManager.onSlot_some hp]
    rcases p.completeFileRead_cases s.processes.machine request
        (readData s.session.vfs request report) with
      ⟨error, hsame⟩ | ⟨pending, snapshot, data, result, -, -, -, -, hok⟩
    · rw [hsame]
      exact .inl ⟨put_eq_self hp, rfl⟩
    · rw [hok]
      refine .inr ⟨owner, p, _, _, hactive, rfl, hp, hok, rfl, ?_⟩
      show ((s.processes.slots.put owner _ owner).bind _).toList = _
      rw [put_self]
      exact rfl

/-- A read by another process or through another handle. -/
theorem allThrough_readOf {request : FileReadRequest} {offered : Option Bytes}
    {owner : Fin maxAsyncProcesses} {q : ManagedProcess P}
    (hother : owner ≠ index ∨ request.handle ≠ handle) :
    allThrough index handle (readOf vfs request offered owner q).toList = [] := by
  unfold allThrough readOf
  split
  · exact filter_nil ..
  rw [filter_eq_nil_iff]
  intro r hr hmatch
  obtain rfl := mem_singleton.mp hr
  have hmatch := of_decide_eq_true hmatch
  rcases hother with hindex | hhandle
  · exact hindex hmatch.1
  · exact hhandle hmatch.2

theorem Reads.answerRead (h : s.Reads index handle file offset) (hzero : handle ≠ 0)
    (request : FileReadRequest) (report : Option Bytes) :
    s.Advance index handle file offset (.answerRead request report)
      (s.answerRead request report).1 (s.answerRead request report).2 := by
  obtain ⟨p, hp, hreader⟩ := h
  rcases s.answerRead_cases request report with
    ⟨hslots, hreads⟩ | ⟨owner, p', machine, q, hactive, hindex, hp', hok, hslots, hreads⟩
  · rw [hreads]
    refine .inl ⟨rfl, p, ?_, hreader⟩
    rw [hslots]
    exact hp
  rw [hreads]
  by_cases howner : owner = index
  · subst howner
    obtain rfl : p' = p := Option.some.inj (hp'.symm.trans hp)
    have hq : (s.answerRead request report).1.processes.slots owner = some q := by
      rw [hslots]
      exact put_self ..
    by_cases hself : request.handle = handle
    · obtain ⟨copied, hrax, hoffset, hpath, hreader', hcopied⟩ :=
        hreader.completeFileRead_self hzero hself hok
      have hnonzero : request.handle ≠ 0 := by
        rw [hself]
        exact hzero
      rcases readOf_exact hnonzero hrax hcopied with
        ⟨hnone, hfailed⟩ | ⟨r, hr, hslot, hhandle, hstart, hexact, hlength, hreach⟩
      · -- a failed read leaves the handle where it was
        rw [hnone]
        refine .inl ⟨rfl, q, hq, ?_⟩
        rw [hfailed] at hreader'
        have hstay : min (offset + ((none : Option (BitVec 64)).getD 0).toNat) file.size = offset :=
          Nat.min_eq_left hreader.inside
        rw [hstay] at hreader'
        exact hreader'
      · rw [hr]
        rw [hpath] at hexact
        refine .inr ⟨r, ?_, hstart.trans hoffset, hexact, ?_, q, hq, ?_⟩
        · exact filter_eq_self.mpr fun other hother => by
            obtain rfl := mem_singleton.mp hother
            exact decide_eq_true ⟨hslot, hhandle.trans hself⟩
        · intro hpast
          rw [hstart] at hpast
          exact ⟨hactive, hindex, hself, by omega⟩
        · rw [hlength]
          exact hreader'
    · refine .inl ⟨allThrough_readOf (.inr hself), q, hq, ?_⟩
      have hkept := hreader.completeFileRead_other hself s.processes.machine
        (readData s.session.vfs request report)
      rw [hok] at hkept
      exact hkept
  · refine .inl ⟨allThrough_readOf (.inl howner), p, ?_, hreader⟩
    rw [hslots]
    exact (put_of_ne (Ne.symm howner)).trans hp

/-! ## §4. Runs. -/

variable [BlockIo σ]

theorem Reads.step (h : s.Reads index handle file offset) (hzero : handle ≠ 0)
    {event : FileEvent} (hevent : ¬ event.WritesThrough index handle) :
    s.Advance index handle file offset event (s.step event).1 (s.step event).2 := by
  cases event with
  | read caller other address capacity =>
    exact .inl ⟨rfl, h.call rfl fun _ _ hreader => hreader.blockFileHandleRead ..⟩
  | write caller other data =>
    refine .inl ⟨rfl, h.call rfl fun hcaller _ hreader => hreader.blockFileHandleWrite ?_ data⟩
    intro hsame
    exact hevent ⟨hcaller, hsame⟩
  | answerRead request report => exact h.answerRead hzero request report
  | answerWrite request => exact .inl ⟨rfl, h.answerWrite request⟩

/-- The reads of the first event, then those of the others. -/
theorem run_cons (s : FileService P σ) (event : FileEvent) (events : List FileEvent) :
    (s.run (event :: events)).2 = (s.step event).2 ++ ((s.step event).1.run events).2 := rfl

theorem allThrough_append (reads later : List FileRead) :
    allThrough index handle (reads ++ later)
      = allThrough index handle reads ++ allThrough index handle later :=
  filter_append ..

/-- The reads of a run through the handle. -/
theorem Reads.run (h : s.Reads index handle file offset) (hzero : handle ≠ 0)
    {events : List FileEvent} (hevents : ∀ event ∈ events, ¬ event.WritesThrough index handle) :
    Chained file offset (allThrough index handle (s.run events).2) := by
  induction events generalizing s offset with
  | nil => exact trivial
  | cons event events ih =>
    have hlater := fun other hother => hevents other (mem_cons_of_mem _ hother)
    rw [run_cons, allThrough_append]
    rcases h.step hzero (hevents event mem_cons_self) with
      ⟨hnone, hreads⟩ | ⟨r, hone, hoffset, hexact, -, hreads⟩
    · rw [hnone]
      exact ih hreads hlater
    · rw [hone]
      exact ⟨hoffset, hexact, ih hreads hlater⟩

/-- The reads with bytes among those through the handle. -/
theorem readsThrough_eq (reads : List FileRead) : readsThrough index handle reads
    = (allThrough index handle reads).filter fun r => r.bytes ≠ [] := by
  unfold readsThrough allThrough
  rw [filter_filter]
  congr 1
  funext r
  rw [← Bool.decide_and, decide_eq_decide]
  exact ⟨fun ⟨hindex, hhandle, hbytes⟩ => ⟨hbytes, hindex, hhandle⟩,
    fun ⟨hbytes, hindex, hhandle⟩ => ⟨hindex, hhandle, hbytes⟩⟩

/-! ## §5. Sequential reads. -/

/-- The process has just opened the file: the handle stands at the start of the
file and remembers the length that it has now. -/
def Opened (s : FileService P σ) (index : Fin maxAsyncProcesses) (handle : BitVec 64)
    (file : OpenFile) : Prop :=
  handle ≠ 0
    ∧ (∃ content, contentOf s.session.vfs file.path.asStr = some content
      ∧ file.size = content.length)
    ∧ s.Reads index handle file 0

/-- No event of the run answers a read that goes past the first length of the
file. -/
def StaysInside (s : FileService P σ) (index : Fin maxAsyncProcesses) (handle : BitVec 64)
    (file : OpenFile) : List FileEvent → Prop
  | [] => True
  | event :: events =>
    ¬ s.Overruns index handle file event
      ∧ (s.step event).1.StaysInside index handle file events

instance decidableStaysInside : (s : FileService P σ) → (events : List FileEvent) →
    Decidable (s.StaysInside index handle file events)
  | _, [] => instDecidableTrue
  | s, event :: events =>
    have := decidableStaysInside (s.step event).1 events
    inferInstanceAs (Decidable (_ ∧ _))

variable {events : List FileEvent}

/-- The reads of a run that stays inside. -/
theorem Reads.run_inside (h : s.Reads index handle file offset) (hzero : handle ≠ 0)
    (hevents : ∀ event ∈ events, ¬ event.WritesThrough index handle)
    (hinside : s.StaysInside index handle file events) :
    ∀ r ∈ allThrough index handle (s.run events).2, r.offset + r.bytes.length ≤ file.size := by
  induction events generalizing s offset with
  | nil => exact nofun
  | cons event events ih =>
    have hlater := fun other hother => hevents other (mem_cons_of_mem _ hother)
    obtain ⟨hfits, hrest⟩ := hinside
    rw [run_cons, allThrough_append]
    rcases h.step hzero (hevents event mem_cons_self) with
      ⟨hnone, hreads⟩ | ⟨r, hone, -, -, hoverruns, hreads⟩
    · rw [hnone]
      exact ih hreads hlater hrest
    · rw [hone]
      intro other hother
      rcases mem_cons.mp hother with rfl | hother
      · exact Nat.le_of_not_lt (mt hoverruns hfits)
      · exact ih hreads hlater hrest other hother

/-- In every run of reads and writes after the handle was opened, none of them a
write through it: its non-empty reads return the consecutive ranges of the file
exactly when each of them but the last ends inside the first length. -/
theorem sequential_iff (hopened : s.Opened index handle file) {events : List FileEvent}
    (hevents : ∀ event ∈ events, ¬ event.WritesThrough index handle) :
    Sequential file.path 0 (readsThrough index handle (s.run events).2)
      ↔ ∀ r ∈ (readsThrough index handle (s.run events).2).dropLast,
        r.offset + r.bytes.length ≤ file.size := by
  have hchained := (hopened.2.2.run hopened.1 hevents).nonempty (Nat.zero_le _)
  rw [readsThrough_eq]
  exact hchained.sequential_iff

/-- **Sequential reads.**  In every run of reads and writes after the handle was
opened, none of them a write through it: if no read through it goes past the
length that the file had then, its non-empty reads return the consecutive ranges
of the file from the start. -/
theorem sequential_reads (hopened : s.Opened index handle file) {events : List FileEvent}
    (hevents : ∀ event ∈ events, ¬ event.WritesThrough index handle)
    (hinside : s.StaysInside index handle file events) :
    Sequential file.path 0 (readsThrough index handle (s.run events).2) := by
  refine (sequential_iff hopened hevents).mpr fun r hr => ?_
  have hthrough := List.mem_of_mem_dropLast hr
  rw [readsThrough_eq] at hthrough
  exact hopened.2.2.run_inside hopened.1 hevents hinside r (List.mem_of_mem_filter hthrough)

/-! ## §6. A file that grows. -/

end FileService

/-- A machine that grants every request. -/
def flatPlatform : Platform where
  Machine := Unit
  Space := Unit
  buildProcess := fun machine _ _ _ => (machine, some ())
  destroy := fun machine _ => machine
  validUserDataBuffer := fun _ _ _ _ => true
  copyToUserData := fun machine _ _ _ => some machine

namespace FileService

theorem maxAsyncProcesses_pos : 0 < maxAsyncProcesses := by decide

def readerSlot : Fin maxAsyncProcesses := ⟨0, maxAsyncProcesses_pos⟩

def writerSlot : Fin maxAsyncProcesses := ⟨1, by decide⟩

def readerOwner : RequestOwner := ⟨0, 1, 10, 4⟩

def writerOwner : RequestOwner := ⟨1, 1, 11, 5⟩

/-- The path `/USER/A`. -/
def sharedPath : FixedText := FixedText.fromStr (ascii "/USER/A".toList)

/-- Two processes, a volume on a reliable device and a file `ab`. -/
def beforeOpens : FileService flatPlatform Disk where
  processes := (ProcessManager.spawnWriteInit 11
    (ProcessManager.spawnFileInit 10 (ProcessManager.new (some []) none ())).1).1
  session := ⟨VfsOp.apply bootNamespace (.write sharedPath.asStr [97, 98]),
    ⟨some ⟨1, 81, false⟩, .new, none, 0, false, none⟩,
    Disk.boot blankDisk ⟨fun _ => .ok, fun _ => true⟩⟩

/-- One process has opened the file to write it, then the other to read it. -/
def sharedFile : FileService flatPlatform Disk :=
  let s := (beforeOpens.call writerSlot (.openFile sharedPath userFileRightWrite)).answerOpen
    ⟨writerOwner, 1, sharedPath, userFileRightWrite⟩ none
  (s.call readerSlot (.openFile sharedPath userFileRightRead)).answerOpen
    ⟨readerOwner, 1, sharedPath, userFileRightRead⟩ none

/-- The handle of the reader. -/
def readerHandle : BitVec 64 := ManagedProcess.fileHandleValue 4 1 0

/-- The handle of the writer. -/
def writerHandle : BitVec 64 := ManagedProcess.fileHandleValue 5 1 0

/-- The writer puts `axyz` at the start of the file. -/
def growth : FileWriteRequest :=
  ⟨writerOwner, 2, sharedPath, writerHandle, 0, FileWriteBuffer.ofBytes [97, 120, 121, 122]⟩

/-- The reader asks for bytes and gets them. -/
def readAt (requestId offset capacity : BitVec 64) : List FileEvent :=
  [.read readerSlot readerHandle 0 capacity,
    .answerRead ⟨readerOwner, requestId, sharedPath, readerHandle, offset, capacity⟩ none]

/-- The file grows, then come two reads. -/
@[irreducible] def growAndRead (first second : List FileEvent) : List FileEvent :=
  .write writerSlot writerHandle growth.data :: .answerWrite growth :: (first ++ second)

theorem sharedFile_opened : sharedFile.Opened readerSlot readerHandle ⟨sharedPath, 2⟩ := by
  have hstate : (sharedFile.processes.slots readerSlot).any (fun p =>
      !p.awaits .fileWrite && (p.fileHandle readerHandle userFileRightRead).any fun c =>
        c.offset == 0 && c.path == sharedPath && c.size == 2 && !c.snapshot) = true := by
    decide +kernel
  obtain ⟨p, hp, hstate⟩ := (Option.any_eq_true ..).mp hstate
  rw [Bool.and_eq_true] at hstate
  obtain ⟨c, hc, hcapability⟩ := (Option.any_eq_true ..).mp hstate.2
  simp only [Bool.and_eq_true, beq_iff_eq, Bool.not_eq_true'] at hcapability
  obtain ⟨⟨⟨hoffset, hpath⟩, hsize⟩, hsnapshot⟩ := hcapability
  refine ⟨by decide, ⟨[97, 98], ?_, rfl⟩, p, hp, ⟨c, hc, ?_, hpath, ?_, hsnapshot⟩, Nat.zero_le _,
    ?_⟩
  · decide +kernel
  · rw [hoffset]
    exact rfl
  · rw [hsize]
    exact rfl
  · intro hawaits
    rw [hawaits] at hstate
    exact absurd hstate.1 nofun

/-- Reading on in small steps: `a`, then `x`. -/
theorem sequential_reads_sharedFile :
    sharedFile.Opened readerSlot readerHandle ⟨sharedPath, 2⟩
      ∧ sharedFile.StaysInside readerSlot readerHandle ⟨sharedPath, 2⟩
        (growAndRead (readAt 2 0 1) (readAt 3 1 1))
      ∧ Sequential sharedPath 0 (readsThrough readerSlot readerHandle
        (sharedFile.run (growAndRead (readAt 2 0 1) (readAt 3 1 1))).2) := by
  have hevents : ∀ event ∈ growAndRead (readAt 2 0 1) (readAt 3 1 1),
      ¬ event.WritesThrough readerSlot readerHandle := by
    simp [growAndRead, readAt, FileEvent.WritesThrough, writerSlot, readerSlot]
  have hinside : sharedFile.StaysInside readerSlot readerHandle ⟨sharedPath, 2⟩
      (growAndRead (readAt 2 0 1) (readAt 3 1 1)) := by
    decide +kernel
  exact ⟨sharedFile_opened, hinside, sequential_reads sharedFile_opened hevents hinside⟩

/-- Reading all of it at once: `axyz`, and then `yz` once more. -/
theorem sharedFile_read_twice :
    sharedFile.Opened readerSlot readerHandle ⟨sharedPath, 2⟩
      ∧ readsThrough readerSlot readerHandle
          (sharedFile.run (growAndRead (readAt 2 0 10) (readAt 3 2 10))).2
        = [⟨readerSlot, readerHandle, sharedPath, 0, [97, 120, 121, 122], [97, 120, 121, 122]⟩,
          ⟨readerSlot, readerHandle, sharedPath, 2, [121, 122], [97, 120, 121, 122]⟩]
      ∧ ¬ Sequential sharedPath 0 (readsThrough readerSlot readerHandle
          (sharedFile.run (growAndRead (readAt 2 0 10) (readAt 3 2 10))).2) := by
  have hreads : readsThrough readerSlot readerHandle
      (sharedFile.run (growAndRead (readAt 2 0 10) (readAt 3 2 10))).2
      = [⟨readerSlot, readerHandle, sharedPath, 0, [97, 120, 121, 122], [97, 120, 121, 122]⟩,
        ⟨readerSlot, readerHandle, sharedPath, 2, [121, 122], [97, 120, 121, 122]⟩] := by
    decide +kernel
  refine ⟨sharedFile_opened, hreads, ?_⟩
  rw [hreads]
  intro hseq
  have hsecond : (2 : Nat) = 4 := hseq.2.2.1
  exact absurd hsecond (by decide)

end FileService

end GenOS.Process
