/-
  GenOS.Process.HandleTable — the authority registry of one process.

  Translates `capability.rs`.  A handle is usable only while the table holds
  its exact value with the expected kind and the required rights.  `register`
  refuses a value that is already registered under any kind, so the values of
  a table built from the empty one are pairwise different (`Distinct`); the
  second half says what each call does to the bag of entries.
-/
import GenOS.Lib.Slots

namespace GenOS.Process

open GenOS.Lib Multiset Slots

/-! ## §1. The table. -/

inductive HandleKind where
  | file
  | endpointReceive
  | endpointSend
  | console
  | lifecycle
  | process
  | socket
  deriving DecidableEq, Repr

structure HandleEntry where
  handle : BitVec 64
  kind : HandleKind
  rights : BitVec 64
  deriving DecidableEq

/-- `HandleTable<N>`. -/
abbrev HandleTable (n : Nat) := Slots n HandleEntry

variable {e : HandleEntry}

namespace HandleTable

variable {n : Nat}

/-- `register`. -/
def register (t : HandleTable n) (handle : BitVec 64) (kind : HandleKind) (rights : BitVec 64) :
    HandleTable n × Bool :=
  if handle = 0 ∨ t.values.any (fun entry => entry.handle == handle) then (t, false)
  else
    match t.firstFree with
    | none => (t, false)
    | some slot => (t.put slot ⟨handle, kind, rights⟩, true)

/-- `allows`. -/
def allows (t : HandleTable n) (handle : BitVec 64) (kind : HandleKind)
    (requiredRights : BitVec 64) : Bool :=
  t.values.any fun entry =>
    entry.handle == handle && entry.kind == kind
      && entry.rights &&& requiredRights == requiredRights

/-- `unregister`. -/
def unregister (t : HandleTable n) (handle : BitVec 64) (kind : HandleKind) :
    HandleTable n × Bool :=
  match t.position fun entry => entry.handle == handle && entry.kind == kind with
  | none => (t, false)
  | some slot => (t.drop slot, true)

/-! ## §2. What the calls do. -/

variable {t : HandleTable n} {handle : BitVec 64} {kind : HandleKind} {rights : BitVec 64}

/-- No value is registered twice. -/
def Distinct (t : HandleTable n) : Prop := (t.bag.map HandleEntry.handle).Nodup

theorem distinct_empty : Distinct (.empty : HandleTable n) := by
  unfold Distinct
  rw [bag_empty]
  exact nodup_zero

theorem Distinct.eq_of_handle (h : Distinct t) {e' : HandleEntry} (he : e ∈ t.bag)
    (he' : e' ∈ t.bag) (heq : e.handle = e'.handle) : e = e' :=
  inj_on_of_nodup_map h e he e' he' heq

/-- A registration fails without a change or adds one entry with a new value. -/
theorem register_cases (t : HandleTable n) (handle : BitVec 64) (kind : HandleKind)
    (rights : BitVec 64) :
    t.register handle kind rights = (t, false)
      ∨ ∃ t', t.register handle kind rights = (t', true)
        ∧ t'.bag = ⟨handle, kind, rights⟩ ::ₘ t.bag
        ∧ ∀ e ∈ t.bag, e.handle ≠ handle := by
  unfold register
  split
  · exact .inl rfl
  rename_i hnew
  rw [not_or, List.any_eq_true] at hnew
  split
  · exact .inl rfl
  rename_i slot hfree
  refine .inr ⟨_, rfl, bag_put (firstFree_some hfree) _, fun e he heq => ?_⟩
  exact hnew.2 ⟨e, he, beq_iff_eq.mpr heq⟩

/-- Removing an entry fails without a change, because there is none, or removes
one entry with the handle and the kind. -/
theorem unregister_cases (t : HandleTable n) (handle : BitVec 64) (kind : HandleKind) :
    (t.unregister handle kind = (t, false)
        ∧ ∀ e ∈ t.bag, ¬ (e.handle = handle ∧ e.kind = kind))
      ∨ ∃ t' e, t.unregister handle kind = (t', true) ∧ t.bag = e ::ₘ t'.bag
        ∧ e.handle = handle ∧ e.kind = kind := by
  unfold unregister
  cases hpos : t.position fun entry => entry.handle == handle && entry.kind == kind with
  | none =>
    refine .inl ⟨rfl, fun e he hmatch => ?_⟩
    obtain ⟨slot, hslot⟩ := mem_bag.mp he
    have := position_none hpos hslot
    rw [hmatch.1, hmatch.2] at this
    simp at this
  | some slot =>
    obtain ⟨e, he, hmatch⟩ := position_some hpos
    rw [Bool.and_eq_true, beq_iff_eq, beq_iff_eq] at hmatch
    exact .inr ⟨_, e, rfl, bag_drop he, hmatch.1, hmatch.2⟩

/-- A registered entry is removed by its handle and kind, exactly. -/
theorem unregister_of_mem (hd : Distinct t) (he : e ∈ t.bag) :
    ∃ t', t.unregister e.handle e.kind = (t', true) ∧ t.bag = e ::ₘ t'.bag := by
  rcases t.unregister_cases e.handle e.kind with ⟨_, hnone⟩ | ⟨t', e', heq, hbag, hhandle, _⟩
  · exact absurd ⟨rfl, rfl⟩ (hnone e he)
  have hmem : e' ∈ t.bag := by
    rw [hbag]
    exact mem_cons_self ..
  have hsame : e = e' := hd.eq_of_handle he hmem hhandle.symm
  subst hsame
  exact ⟨t', heq, hbag⟩

theorem Distinct.register (hd : Distinct t) : Distinct (t.register handle kind rights).1 := by
  rcases t.register_cases handle kind rights with heq | ⟨t', heq, hbag, hnew⟩
  · rw [heq]
    exact hd
  · rw [heq]
    unfold Distinct
    rw [hbag, map_cons, nodup_cons]
    refine ⟨fun hmem => ?_, hd⟩
    obtain ⟨e, he, heq⟩ := mem_map.mp hmem
    exact hnew e he heq

theorem Distinct.of_cons (hd : Distinct t) {t' : HandleTable n} (h : t.bag = e ::ₘ t'.bag) : Distinct t' := by
  unfold Distinct at hd
  rw [h, map_cons] at hd
  exact hd.of_cons

/-! ## §3. What the table allows. -/

theorem allows_iff : t.allows handle kind rights = true
    ↔ ∃ e ∈ t.bag, e.handle = handle ∧ e.kind = kind ∧ e.rights &&& rights = rights := by
  unfold allows
  rw [List.any_eq_true]
  refine exists_congr fun e => and_congr_right fun _ => ?_
  rw [Bool.and_eq_true, Bool.and_eq_true, beq_iff_eq, beq_iff_eq, beq_iff_eq, and_assoc]

/-- A registered entry allows what it grants. -/
theorem allows_of_mem (he : e ∈ t.bag) (hr : e.rights &&& rights = rights) :
    t.allows e.handle e.kind rights = true :=
  allows_iff.mpr ⟨e, he, rfl, rfl, hr⟩

/-- A handle registered with one kind is not allowed as another. -/
theorem Distinct.not_allows (hd : Distinct t) (he : e ∈ t.bag) (hkind : e.kind ≠ kind) : t.allows e.handle kind rights = false := by
  rw [← Bool.not_eq_true, allows_iff]
  intro ⟨e', he', hhandle, hkind', _⟩
  exact hkind (hd.eq_of_handle he he' hhandle.symm ▸ hkind')

end HandleTable

end GenOS.Process
