/-
  GenOS.Network.RxQueue — receive batches are admitted whole or not at all.

  The device reports completed receive buffers in batches.  `admitBatch` checks a
  batch before any of its buffers is used, `take` hands the buffers out one by
  one.  What was taken and what a batch still holds is always the sequence of
  the admitted batches (`RxRun.Inv`).
-/
import Mathlib.Data.List.Nodup
import Mathlib.Logic.Function.Basic

namespace GenOS.Network

open List

/-! ## §1. The queue. -/

def rxHeaderBytes : Nat := 12

def rxBufferBytes : Nat := 2048

structure RxCompletion where
  descriptor : BitVec 32
  length : BitVec 32

inductive RxError
  | busy
  | quarantined
  | invalidAdvance
  | invalidDescriptor
  | duplicateDescriptor
  | invalidLength

/-- `RxBatch<N>`; the array of the entries is a list of length `N`. -/
structure RxBatch (N : Nat) where
  used : BitVec 16
  entries : List RxCompletion
  cursor : Nat
  count : Nat
  quarantined : Bool
  length_entries : entries.length = N
  cursor_le : cursor ≤ count
  count_le : count ≤ N

namespace RxBatch

variable {N : Nat} (b : RxBatch N)

theorem lt_length (h : b.cursor < b.count) : b.cursor < b.entries.length := by
  rw [b.length_entries]
  exact Nat.lt_of_lt_of_le h b.count_le

def new (used : BitVec 16) : RxBatch N :=
  ⟨used, List.replicate N ⟨0, 0⟩, 0, 0, false, List.length_replicate, Nat.le_refl 0, Nat.zero_le N⟩

def pending : Bool := decide (b.cursor < b.count)

def quarantine : RxBatch N := { b with quarantined := true }

/-- The loop of `validate`; `seen` are the descriptors of the entries before. -/
def validateEntries (N : Nat) (seen : Nat → Bool) : List RxCompletion → Except RxError Unit
  | [] => .ok ()
  | entry :: rest =>
    let descriptor := entry.descriptor.toNat
    if N ≤ descriptor then .error .invalidDescriptor
    else if seen descriptor then .error .duplicateDescriptor
    else if entry.length.toNat < rxHeaderBytes ∨ rxBufferBytes < entry.length.toNat then
      .error .invalidLength
    else validateEntries N (Function.update seen descriptor true) rest

def validate (stop : BitVec 16) (entries : List RxCompletion) : Except RxError Unit :=
  let count := (stop - b.used).toNat
  if N < count ∨ entries.length ≠ count then .error .invalidAdvance
  else validateEntries N (fun _ => false) entries

theorem validate_length {b : RxBatch N} {stop : BitVec 16} {entries : List RxCompletion}
    (h : b.validate stop entries = .ok ()) : entries.length ≤ N := by
  unfold validate at h
  dsimp only at h
  split at h
  · cases h
  · omega

/-- `admit`. -/
def admitBatch (stop : BitVec 16) (entries : List RxCompletion) : RxBatch N × Except RxError Unit :=
  if b.quarantined then (b, .error .quarantined)
  else if b.pending then (b, .error .busy)
  else
    match h : b.validate stop entries with
    | .error error => (b.quarantine, .error error)
    | .ok () =>
      ({ b with
          entries := entries ++ b.entries.drop entries.length
          cursor := 0
          count := entries.length
          length_entries := by
            have hlength := b.length_entries
            have hfits := validate_length h
            rw [List.length_append, List.length_drop]
            omega
          cursor_le := Nat.zero_le _
          count_le := validate_length h }, .ok ())

def take : RxBatch N × Option RxCompletion :=
  if h : b.quarantined = true ∨ ¬ b.cursor < b.count then (b, none)
  else
    have hlt : b.cursor < b.count := not_not.mp (not_or.mp h).2
    ({ b with used := b.used + 1, cursor := b.cursor + 1, cursor_le := hlt },
      some (b.entries.get ⟨b.cursor, b.lt_length hlt⟩))

/-- The admitted entries that were not taken yet. -/
def remaining : List RxCompletion := (b.entries.take b.count).drop b.cursor

end RxBatch

open RxBatch

/-! ## §2. What the calls do. -/

/-- What `validate` promises about the entries of a batch. -/
structure RxValid (N : Nat) (entries : List RxCompletion) : Prop where
  nodup : (entries.map (·.descriptor)).Nodup
  bounds : ∀ c ∈ entries, c.descriptor.toNat < N
    ∧ rxHeaderBytes ≤ c.length.toNat ∧ c.length.toNat ≤ rxBufferBytes

namespace RxBatch

variable {N : Nat} {b b' : RxBatch N} {entries : List RxCompletion}

theorem validateEntries_ok {seen : Nat → Bool} (h : validateEntries N seen entries = .ok ()) :
    RxValid N entries ∧ ∀ c ∈ entries, seen c.descriptor.toNat = false := by
  induction entries generalizing seen with
  | nil => exact ⟨⟨nodup_nil, nofun⟩, nofun⟩
  | cons entry rest ih =>
    rw [validateEntries] at h
    split at h
    · cases h
    rename_i hdescriptor
    split at h
    · cases h
    rename_i hnew
    split at h
    · cases h
    rename_i hlength
    obtain ⟨hvalid, hseen⟩ := ih h
    rw [Bool.not_eq_true] at hnew
    -- no later entry has the descriptor of this one
    have hother : ∀ c ∈ rest, c.descriptor ≠ entry.descriptor := by
      intro c hc hsame
      have hmarked := hseen c hc
      rw [hsame, Function.update_self] at hmarked
      cases hmarked
    refine ⟨⟨?_, ?_⟩, ?_⟩
    · rw [map_cons, nodup_cons, mem_map]
      exact ⟨fun ⟨c, hc, hsame⟩ => hother c hc hsame, hvalid.nodup⟩
    · rw [forall_mem_cons]
      exact ⟨⟨by omega, by omega⟩, hvalid.bounds⟩
    · rw [forall_mem_cons]
      refine ⟨hnew, fun c hc => ?_⟩
      have hkept := hseen c hc
      rwa [Function.update_of_ne fun hsame => hother c hc (BitVec.eq_of_toNat_eq hsame)] at hkept

theorem remaining_eq_nil (h : ¬ b.cursor < b.count) : b.remaining = [] := by
  apply drop_eq_nil_of_le
  rw [length_take]
  omega

/-- An admitted batch is valid, and nothing of the one before is left. -/
theorem admitBatch_ok {stop : BitVec 16} (h : b.admitBatch stop entries = (b', .ok ())) :
    b.quarantined = false ∧ b.remaining = [] ∧ RxValid N entries ∧ b'.remaining = entries
      ∧ b'.used = b.used := by
  unfold admitBatch at h
  split at h
  · cases h
  rename_i hquarantined
  split at h
  · cases h
  rename_i hpending
  split at h
  · cases h
  rename_i hvalidate
  obtain ⟨rfl, -⟩ := Prod.mk.inj h
  have hentries : validateEntries N (fun _ => false) entries = .ok () := by
    unfold validate at hvalidate
    dsimp only at hvalidate
    split at hvalidate
    · cases hvalidate
    · exact hvalidate
  refine ⟨Bool.not_eq_true _ ▸ hquarantined, remaining_eq_nil (by simpa [pending] using hpending),
    (validateEntries_ok hentries).1, ?_, rfl⟩
  rw [remaining, take_left, drop_zero]

/-- A rejected batch leaves what is still to be taken. -/
theorem admitBatch_error {stop : BitVec 16} {error : RxError}
    (h : b.admitBatch stop entries = (b', .error error)) :
    b'.remaining = b.remaining ∧ b'.used = b.used
      ∧ (b.quarantined = true → b'.quarantined = true)
      ∧ (error ≠ .busy → b'.quarantined = true) := by
  unfold admitBatch at h
  split at h
  · rename_i hquarantined
    cases h
    exact ⟨rfl, rfl, id, fun _ => hquarantined⟩
  split at h
  · cases h
    exact ⟨rfl, rfl, id, fun hbusy => absurd rfl hbusy⟩
  split at h
  · cases h
    exact ⟨rfl, rfl, fun _ => rfl, fun _ => rfl⟩
  · cases h

theorem take_some {c : RxCompletion} (h : b.take = (b', some c)) :
    b.quarantined = false ∧ b.remaining = c :: b'.remaining ∧ b'.used = b.used + 1 := by
  unfold take at h
  split at h
  · cases h
  rename_i hpending
  obtain ⟨hquarantined, hlt⟩ := not_or.mp hpending
  cases h
  have hbound : b.cursor < (b.entries.take b.count).length := by
    rw [length_take, Nat.lt_min]
    exact ⟨not_not.mp hlt, b.lt_length (not_not.mp hlt)⟩
  refine ⟨Bool.not_eq_true _ ▸ hquarantined, ?_, rfl⟩
  rw [remaining, drop_eq_getElem_cons hbound, getElem_take]
  rfl

theorem take_none (h : b.take = (b', none)) : b' = b := by
  unfold take at h
  split at h <;> cases h
  rfl

end RxBatch

/-! ## §3. Runs. -/

inductive RxCall
  | admitBatch (stop : BitVec 16) (entries : List RxCompletion)
  | take
  | quarantine

/-- A queue with the batches that were admitted and the completions that were
taken so far. -/
structure RxRun (N : Nat) where
  batch : RxBatch N
  admitted : List (List RxCompletion)
  taken : List RxCompletion

namespace RxRun

variable {N : Nat} {initial : BitVec 16} {r : RxRun N}

def start (initial : BitVec 16) : RxRun N := ⟨.new initial, [], []⟩

def call (r : RxRun N) : RxCall → RxRun N
  | .admitBatch stop entries =>
    match r.batch.admitBatch stop entries with
    | (b, .ok ()) => ⟨b, r.admitted ++ [entries], r.taken⟩
    | (b, .error _) => { r with batch := b }
  | .take =>
    match r.batch.take with
    | (b, some c) => ⟨b, r.admitted, r.taken ++ [c]⟩
    | (b, none) => { r with batch := b }
  | .quarantine => { r with batch := r.batch.quarantine }

/-- The completions of the admitted batches are taken in order. -/
structure Inv (initial : BitVec 16) (r : RxRun N) : Prop where
  order : r.admitted.flatten = r.taken ++ r.batch.remaining
  valid : ∀ entries ∈ r.admitted, RxValid N entries
  used : r.batch.used = initial + BitVec.ofNat 16 r.taken.length

theorem Inv.call (h : Inv initial r) (c : RxCall) : Inv initial (r.call c) := by
  unfold RxRun.call
  split
  · rename_i stop entries
    split
    · rename_i b hbatch
      obtain ⟨-, hdrained, hvalid, hnew, hused⟩ := admitBatch_ok hbatch
      refine ⟨?_, ?_, hused.trans h.used⟩
      · rw [flatten_append, h.order, hdrained, append_nil, hnew, flatten_singleton]
      · rw [forall_mem_append]
        exact ⟨h.valid, fun e he => mem_singleton.mp he ▸ hvalid⟩
    · rename_i b error hbatch
      obtain ⟨hsame, hused, -, -⟩ := admitBatch_error hbatch
      exact ⟨by rw [hsame]; exact h.order, h.valid, hused.trans h.used⟩
  · split
    · rename_i b completion htake
      obtain ⟨-, hnext, hused⟩ := take_some htake
      refine ⟨?_, h.valid, ?_⟩
      · rw [append_assoc, singleton_append, ← hnext]
        exact h.order
      · rw [hused, h.used, length_append, BitVec.ofNat_add, BitVec.add_assoc]
        rfl
    · rename_i b htake
      rw [take_none htake]
      exact h
  · exact ⟨h.order, h.valid, h.used⟩

theorem Inv.run (h : Inv initial r) (calls : List RxCall) :
    Inv initial (calls.foldl RxRun.call r) := by
  induction calls generalizing r with
  | nil => exact h
  | cons c calls ih => exact ih (h.call c)

/-- A quarantined queue stays quarantined and hands out nothing. -/
theorem call_quarantined (h : r.batch.quarantined = true) (c : RxCall) :
    (r.call c).batch.quarantined = true ∧ (r.call c).taken = r.taken := by
  unfold RxRun.call
  split
  · split
    · rename_i hbatch
      rw [(admitBatch_ok hbatch).1] at h
      cases h
    · rename_i hbatch
      exact ⟨(admitBatch_error hbatch).2.2.1 h, rfl⟩
  · split
    · rename_i htake
      rw [(take_some htake).1] at h
      cases h
    · rename_i htake
      exact ⟨take_none htake ▸ h, rfl⟩
  · exact ⟨rfl, rfl⟩

theorem run_quarantined (h : r.batch.quarantined = true) (calls : List RxCall) :
    (calls.foldl RxRun.call r).taken = r.taken := by
  induction calls generalizing r with
  | nil => rfl
  | cons c calls ih =>
    obtain ⟨hstill, hsame⟩ := call_quarantined h c
    exact (ih hstill).trans hsame

/-- **Batches are admitted whole or not at all**, for every ring size and every
sequence of calls. -/
theorem rx_batches_whole (N : Nat) (initial : BitVec 16) (calls : List RxCall) :
    ∃ r : RxRun N, r = calls.foldl RxRun.call (start initial)
      ∧ r.taken <+: r.admitted.flatten
      ∧ (∀ c ∈ r.taken, c.descriptor.toNat < N
        ∧ rxHeaderBytes ≤ c.length.toNat ∧ c.length.toNat ≤ rxBufferBytes)
      ∧ (∀ entries ∈ r.admitted, (entries.map (·.descriptor)).Nodup)
      ∧ r.batch.used = initial + BitVec.ofNat 16 r.taken.length
      ∧ (∀ stop entries b, r.batch.admitBatch stop entries = (b, .ok ()) →
        r.taken = r.admitted.flatten ∧ b.remaining = entries)
      ∧ (∀ stop entries b error, r.batch.admitBatch stop entries = (b, .error error) →
        b.remaining = r.batch.remaining ∧ (error ≠ .busy → b.quarantined = true))
      ∧ (r.batch.quarantined = true →
        ∀ later : List RxCall, (later.foldl RxRun.call r).taken = r.taken) := by
  have hstart : Inv initial (start initial : RxRun N) := by
    refine ⟨?_, nofun, (BitVec.add_zero initial).symm⟩
    rw [RxBatch.remaining_eq_nil (Nat.lt_irrefl 0)]
    rfl
  have h := hstart.run calls
  refine ⟨_, rfl, ⟨_, h.order.symm⟩, ?_, fun entries he => (h.valid entries he).nodup, h.used,
    ?_, ?_, run_quarantined⟩
  · intro c hc
    have hin : c ∈ (calls.foldl RxRun.call (start initial : RxRun N)).admitted.flatten := by
      rw [h.order]
      exact List.mem_append_left _ hc
    obtain ⟨entries, he, hc⟩ := List.mem_flatten.mp hin
    exact (h.valid entries he).bounds c hc
  · intro stop entries b hbatch
    obtain ⟨-, hdrained, -, hnew, -⟩ := RxBatch.admitBatch_ok hbatch
    rw [h.order, hdrained, List.append_nil]
    exact ⟨rfl, hnew⟩
  · intro stop entries b error hbatch
    obtain ⟨hsame, -, -, hstop⟩ := RxBatch.admitBatch_error hbatch
    exact ⟨hsame, hstop⟩

end RxRun

end GenOS.Network
