/-
  GenOS.Storage.RoundTrip — mounting a snapshot restores the user nodes it
  was taken from.

  A committed record of nodes (`SealedRecord`) is a slot whose entries are the
  nodes it denotes, so mounting it appends them (`SealedRecord.apply`); sealing
  what the encoder writes gives such a record (`encodeSnapshot_sealed`).
-/
import GenOS.Storage.Mounting

namespace GenOS.Storage

open GenOS.Lib GenOS.Vfs List

/-! ## §1. Mounting a record of user nodes. -/

/-- A base namespace a snapshot can be mounted on: it has a directory `/USER`
and nothing below it. -/
structure MountBase (base : RamVfs) : Prop where
  inv : VfsInv base
  user : ∃ d ∈ base.nodes, d.kind = .directory ∧ foldCase d.path.asStr = foldCase userRoot
  empty : ∀ n ∈ base.nodes, isUserNode n = false

/-- A node under the spelling a snapshot stores. -/
def canonicalNode (n : VfsNode) : VfsNode :=
  { n with path := FixedText.fromStr (canonicalUserPath n.path.asStr) }

/-- The user nodes of a file system as they come back from a snapshot. -/
def restoredNodes (v : RamVfs) : List VfsNode := (userNodes v).map canonicalNode

theorem canonicalNode_path {n : VfsNode} (hu : isUserNode n = true) :
    (canonicalNode n).path.asStr = canonicalUserPath n.path.asStr :=
  fromStr_validPath (isUserWritablePath_valid (canonicalUserPath_writable hu))

theorem rawEntry_canonicalNode {n : VfsNode} (hu : isUserNode n = true)
    (hd : n.kind = .directory → n.data = []) : rawEntry (canonicalNode n) = nodeEntry n := by
  have hdata : n.data = storedData n := by
    unfold storedData
    split
    · rfl
    · rename_i hk
      exact hd hk
  have hkind : (canonicalNode n).kind = n.kind := rfl
  have hdata' : (canonicalNode n).data = n.data := rfl
  rw [rawEntry, nodeEntry, canonicalNode_path hu, hkind, hdata', hdata]

theorem restoredNodes_entries {v : RamVfs} (hi : VfsInv v) :
    (restoredNodes v).map rawEntry = userEntries v := by
  rw [restoredNodes, userEntries, map_map]
  apply map_congr_left
  intro n hn
  obtain ⟨hmem, hu⟩ := mem_filter.mp hn
  exact rawEntry_canonicalNode hu (hi.dirEmpty n hmem)

/-- No node of a mount base is in the way of an admissible entry. -/
theorem MountBase.free {base : RamVfs} (hb : MountBase base) {path : Bytes}
    (hbelow : userWritablePrefix <+: path) : base.find path = none := by
  refine (base.find_eq_none_iff _).mpr (fun m hm hf => ?_)
  -- a base node with this path would be a user node
  have hmu : isUserNode m = true := by
    apply isUserWritablePath_of_fold (hb.inv.valid m hm)
    obtain ⟨rest, hrest⟩ := hbelow
    rw [foldCase_take, hf, ← hrest, ← foldCase_take]
    rfl
  rw [hb.empty m hm] at hmu
  exact absurd hmu (by simp)

/-- Entries that lie one after the other are decoded one after the other. -/
theorem decodeEntries_of_append {s : Snapshot} {c : Bytes} {used : Nat} (hused : used ≤ slotBytes)
    (es : List Entry) : ∀ a : Bytes, s.val = a ++ es.flatMap entryBytes ++ c →
      (∀ e ∈ es, EntryFits e) → a.length + (es.flatMap entryBytes).length ≤ used →
      decodeEntries s used es.length a.length = es := by
  induction es with
  | nil => intro a _ _ _; rfl
  | cons e es ih =>
    intro a hs hfits hfit
    simp only [flatMap_cons, length_append] at hs hfit
    have hsplit : s.val = a ++ entryBytes e ++ (es.flatMap entryBytes ++ c) := by simp [hs]
    have hdec := decodeEntry_of_append hsplit (hfits e mem_cons_self) (by omega) hused
    have hrest := ih (a ++ entryBytes e) (by simp [hs])
      (fun d hd => hfits d (mem_cons_of_mem _ hd))
      (by rw [length_append]; omega)
    rw [length_append] at hrest
    simp only [length_cons, decodeEntries, hdec, hrest]

/-- The slot `s` holds a committed record of the nodes `ns`, up to zeros or
older bytes behind the used part. -/
structure SealedRecord (s : Snapshot) (ns : List VfsNode) (generation : UInt64) : Prop where
  shape : ∃ sum c : Bytes, sum.length = 4 ∧ leNat sum = (checksum s.val).toNat
    ∧ s.val = recordHead recordCommitted ns.length generation
        (recordHeaderBytes + ((ns.map rawEntry).flatMap entryBytes).length) sum
      ++ (ns.map rawEntry).flatMap entryBytes ++ c
  entries : AllPrior EntryOk [] (ns.map rawEntry)
  nonempty : ns ≠ []
  count : ns.length ≤ maxNodes - 2
  fits : recordHeaderBytes + ((ns.map rawEntry).flatMap entryBytes).length ≤ slotBytes

namespace SealedRecord

variable {s : Snapshot} {ns : List VfsNode} {generation : UInt64}

variable (h : SealedRecord s ns generation)

include h

theorem valid : validateSnapshot s = .ok generation := by
  obtain ⟨sum, c, hsum, hcheck, hs⟩ := h.shape
  exact validateSnapshot_of_record hsum hcheck (by rw [length_map]; exact hs) h.entries
    (by simp [h.nonempty]) (by rw [length_map]; exact h.count) h.fits

theorem snapshotEntries_eq : snapshotEntries s = ns.map rawEntry := by
  obtain ⟨sum, c, hsum, hcheck, hs⟩ := h.shape
  have hfit := h.fits
  have hmax : ns.length ≤ 30 := h.count
  have hslot : slotBytes = 20480 := rfl
  obtain ⟨-, -, f3, -, -, f6, -⟩ := recordHead_fields hsum (hs.trans (append_assoc _ _ _))
  have hcount : entryCount s = (ns.map rawEntry).length := by
    rw [entryCount, f3, UInt8.toNat_ofNat', length_map]
    omega
  have hused : usedBytes s
      = recordHeaderBytes + ((ns.map rawEntry).flatMap entryBytes).length := by
    rw [usedBytes, f6, leNat_leBytes]
    omega
  have hhead : (recordHead recordCommitted ns.length generation
      (recordHeaderBytes + ((ns.map rawEntry).flatMap entryBytes).length) sum).length
        = recordHeaderBytes := recordHead_length hsum
  have hdec := decodeEntries_of_append hfit (ns.map rawEntry) _ hs
    (h.entries.forall (fun _ _ he => he.fits)) (by rw [hhead])
  rw [hhead] at hdec
  rw [snapshotEntries, hcount, hused, hdec]

/-- **Mounting a sealed record appends the nodes it denotes.** -/
theorem apply {base : RamVfs} (hb : MountBase base)
    (hroom : base.nodes.length + ns.length ≤ maxNodes) :
    ∃ w, applySnapshot base s = (w, .ok ()) ∧ w.nodes = base.nodes ++ ns ∧ VfsInv w := by
  obtain ⟨w, hw, hwi⟩ := placeEntries_appends hb.user (ns.map rawEntry) base [] hb.inv (by simp)
    h.entries (h.entries.forall (fun _ _ he => hb.free he.below))
    (by rw [length_map]; exact hroom)
  obtain ⟨ms, hnodes, hmap, -⟩ :=
    placeEntries_inv _ (h.entries.forall (fun _ _ he => he.dirEmpty)) hw
  refine ⟨w, ?_, ?_, hwi⟩
  · rw [applySnapshot_ok_iff, mountedCandidate_eq hb.inv h.valid, h.snapshotEntries_eq, hw]
  · rw [hnodes, rawEntry_injective.list_map hmap]

end SealedRecord

/-- Encoding and sealing produces a record of the user nodes. -/
theorem encodeSnapshot_sealed {v : RamVfs} (hi : VfsInv v) (hne : userNodes v ≠ [])
    (generation : UInt64) :
    ∃ s, encodeSnapshot v generation = .ok s
      ∧ SealedRecord (sealSnapshot s) (restoredNodes v) generation := by
  obtain ⟨s, k, henc, hs⟩ := encodeSnapshot_shape hi hne generation
  obtain ⟨sum, hsum, hcheck, hseal⟩ := sealSnapshot_shape (hs.trans (append_assoc _ _ _))
  have hentries := restoredNodes_entries hi
  have hlen : (restoredNodes v).length = (userNodes v).length := by simp [restoredNodes]
  have hcount : (userNodes v).length ≤ 30 := by
    have h1 := userNodes_length hi hne
    have h2 : v.nodes.length ≤ 32 := v.fits
    omega
  refine ⟨s, henc, ⟨sum, List.replicate k 0, hsum, hcheck, ?_⟩, ?_, ?_, ?_, ?_⟩
  · rw [hentries, hlen, hseal, append_assoc]
  · rw [hentries]; exact userEntries_ok hi
  · simpa [restoredNodes] using hne
  · rw [hlen]; exact hcount
  rw [hentries]
  exact userEntries_fit hcount (fun n hn =>
    validAbsolutePath_length (hi.valid n (mem_filter.mp hn).1))

/-! ## §2. The round trip. -/

/-- **Snapshot round trip.**  For every reachable file system with a user
node and every generation, encoding succeeds, the sealed record validates to
that generation, and mounting it on any reachable base with an empty directory
`/USER` and enough free nodes appends exactly the user nodes, in order. -/
theorem snapshot_roundTrip {v : RamVfs} (hv : Reachable v)
    (huser : ∃ n ∈ v.nodes, isUserNode n = true) (generation : UInt64) :
    ∃ s, encodeSnapshot v generation = .ok s
      ∧ validateSnapshot (sealSnapshot s) = .ok generation
      ∧ ∀ base d, Reachable base → base.find userRoot = some d → d.kind = .directory →
          (∀ n ∈ base.nodes, isUserNode n = false) →
          base.count + (userNodes v).length ≤ maxNodes →
          ∃ w, applySnapshot base (sealSnapshot s) = (w, .ok ())
            ∧ w.nodes = base.nodes ++ (userNodes v).map canonicalNode := by
  have hi := reachable_inv hv
  have hne : userNodes v ≠ [] := by
    obtain ⟨n, hn, hu⟩ := huser
    exact List.ne_nil_of_mem (List.mem_filter.mpr ⟨hn, hu⟩)
  obtain ⟨s, henc, hrec⟩ := encodeSnapshot_sealed hi hne generation
  refine ⟨s, henc, hrec.valid, ?_⟩
  intro base d hbase hfind hdir hempty hroom
  obtain ⟨hd, hdf⟩ := RamVfs.find_some hfind
  have hb : MountBase base := ⟨reachable_inv hbase, ⟨d, hd, hdir, hdf⟩, hempty⟩
  obtain ⟨w, hw, hwn, -⟩ := hrec.apply hb (by rw [restoredNodes, List.length_map]; exact hroom)
  exact ⟨w, hw, hwn⟩

/-- The namespace at boot: the root and an empty directory `/USER`. -/
def bootNamespace : RamVfs := VfsOp.apply RamVfs.initialised (.mkdir userRoot)

theorem bootNamespace_reachable : Reachable bootNamespace := .step _ .init

/-- The boot namespace with one file, stored as `/user/a`. -/
def oneUserFile : RamVfs :=
  VfsOp.apply bootNamespace (.write (ascii ['/', 'u', 's', 'e', 'r', '/', 'a']) [7])

theorem oneUserFile_reachable : Reachable oneUserFile := .step _ bootNamespace_reachable

/-- A file stored as `/user/a` comes back as `/USER/a`. -/
theorem snapshot_roundTrip_oneFile :
    ∃ v s w, v = VfsOp.apply bootNamespace (.write (ascii ['/', 'u', 's', 'e', 'r', '/', 'a']) [7])
      ∧ encodeSnapshot v 1 = .ok s ∧ validateSnapshot (sealSnapshot s) = .ok 1
      ∧ applySnapshot bootNamespace (sealSnapshot s) = (w, .ok ())
      ∧ (w.nodes.drop 2).map rawEntry
        = [⟨ascii ['/', 'U', 'S', 'E', 'R', '/', 'a'], .file, [7]⟩] := by
  obtain ⟨s, henc, hval, happ⟩ := snapshot_roundTrip
    (.step (.write (ascii ['/', 'u', 's', 'e', 'r', '/', 'a']) [7]) bootNamespace_reachable)
    (by decide +kernel) 1
  obtain ⟨w, hw, hwn⟩ := happ bootNamespace _ bootNamespace_reachable rfl (by decide +kernel)
    (by decide +kernel) (by decide +kernel)
  refine ⟨_, s, w, rfl, henc, hval, hw, ?_⟩
  rw [hwn]
  decide +kernel

/-! ## §3. Mounting any bytes. -/

/-- **Mounting is atomic and exactly characterised.**  Whatever the slot holds,
it mounts on a reachable base precisely when it is valid, the base has the
directory `/USER`, no entry's path is taken (`find` ignores case) and the
nodes fit; the entries are then appended in order, and a failed mount changes
nothing. -/
theorem applySnapshot_exact {base : RamVfs} (hbase : Reachable base) (s : Snapshot) :
    ((∃ w, applySnapshot base s = (w, .ok ())) ↔
        (∃ generation, validateSnapshot s = .ok generation)
          ∧ (∃ d, base.find userRoot = some d ∧ d.kind = .directory)
          ∧ (∀ e ∈ snapshotEntries s, base.find e.path = none)
          ∧ base.count + entryCount s ≤ maxNodes)
      ∧ (∀ w, applySnapshot base s = (w, .ok ()) →
          ∃ ns, w.nodes = base.nodes ++ ns ∧ ns.map rawEntry = snapshotEntries s)
      ∧ ∀ w e, applySnapshot base s = (w, .error e) → w = base := by
  have hi := reachable_inv hbase
  refine ⟨?_, ?_, ?_⟩
  · rw [applySnapshot_mounts_iff hi, ← hasUserRoot_iff hi]
    constructor
    · rintro ⟨⟨generation, hval⟩, h⟩
      rw [← (validateSnapshot_entries hval).1]
      exact ⟨⟨generation, hval⟩, h.user, h.free, h.room⟩
    · rintro ⟨⟨generation, hval⟩, huser, hfree, hroom⟩
      rw [← (validateSnapshot_entries hval).1] at hroom
      exact ⟨⟨generation, hval⟩, huser, hfree, hroom⟩
  · intro w hw
    rw [applySnapshot_ok_iff] at hw
    cases hval : validateSnapshot s with
    | error e => simp [mountedCandidate, hval] at hw
    | ok generation =>
      obtain ⟨-, hok, -⟩ := validateSnapshot_entries hval
      rw [mountedCandidate_eq hi hval] at hw
      obtain ⟨ns, hnodes, hmap, -⟩ :=
        placeEntries_inv _ (hok.forall (fun _ _ he => he.dirEmpty)) hw
      exact ⟨ns, hnodes, hmap⟩
  · intro w e h
    rw [applySnapshot] at h
    split at h
    · exact absurd (Prod.mk.inj h).2 (by simp)
    · exact (Prod.mk.inj h).1.symm

/-- The slot of a namespace with one file mounts on the boot namespace, and
not on the namespace it was taken from. -/
theorem applySnapshot_exact_oneUserFile :
    ∃ s, (∃ w, applySnapshot bootNamespace s = (w, .ok ()))
      ∧ ¬ ∃ w, applySnapshot oneUserFile s = (w, .ok ()) := by
  obtain ⟨s, -, hrec⟩ := encodeSnapshot_sealed (reachable_inv oneUserFile_reachable)
    (by decide +kernel) 1
  have hentries : snapshotEntries (sealSnapshot s) = (restoredNodes oneUserFile).map rawEntry :=
    hrec.snapshotEntries_eq
  have hcount := (validateSnapshot_entries hrec.valid).1
  rw [hentries] at hcount
  refine ⟨sealSnapshot s, ?_, ?_⟩
  · rw [(applySnapshot_exact bootNamespace_reachable (sealSnapshot s)).1, hentries, ← hcount]
    exact ⟨⟨1, hrec.valid⟩, ⟨_, rfl, by decide +kernel⟩, by decide +kernel, by decide +kernel⟩
  · rw [(applySnapshot_exact oneUserFile_reachable (sealSnapshot s)).1, hentries]
    rintro ⟨-, -, hfree, -⟩
    exact absurd hfree (by decide +kernel)

end GenOS.Storage
