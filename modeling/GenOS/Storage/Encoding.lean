/-
  GenOS.Storage.Encoding — what the encoder writes, and that it is valid.

  `userEntries v` is what a snapshot of `v` should contain: the user-writable
  nodes in order, under their canonical spelling.  The encoder writes the
  bytes of these entries one after the other (`encodeNodes_writes`); the
  structural invariant of the file system makes every entry admissible after
  the ones before it (`userEntries_ok`); and the validator accepts a sealed
  record of admissible entries (`validateSnapshot_of_record`).
-/
import GenOS.Storage.Format
import GenOS.Vfs.Invariant

namespace GenOS.Storage

open GenOS.Lib GenOS.Vfs List FixedBytes

/-! ## §1. One entry. -/

/-- The stored form of an entry. -/
def entryBytes (e : Entry) : Bytes :=
  [UInt8.ofNat e.path.length, kindByte e.kind] ++ leBytes 2 e.data.length ++ e.path ++ e.data

theorem entryBytes_length (e : Entry) :
    (entryBytes e).length = entryHeaderBytes + e.path.length + e.data.length := by
  simp [entryBytes, entryHeaderBytes]
  omega

/-- The size limits under which the header of an entry is exact. -/
structure EntryFits (e : Entry) : Prop where
  nonempty : e.path ≠ []
  path : e.path.length ≤ 255
  data : e.data.length < 65536
  dirEmpty : e.kind = .directory → e.data = []

variable {s : Snapshot} {c : Bytes} {e : Entry} {used : Nat} {n : VfsNode} {v : RamVfs}
  {w : Writer} {generation : UInt64}

/-- Decoding reads back an entry that lies at the cursor. -/
theorem decodeEntry_of_append {a : Bytes} (h : s.val = a ++ entryBytes e ++ c) (he : EntryFits e)
    (hfit : a.length + (entryBytes e).length ≤ used) (hused : used ≤ slotBytes) :
    decodeEntry s a.length used = .ok (e, a.length + (entryBytes e).length) := by
  have hlen := entryBytes_length e
  have hpos : 0 < e.path.length := length_pos_iff.mpr he.nonempty
  have hhead : entryHeaderBytes = 4 := rfl
  -- the five fields of the entry, each as the middle of a concatenation
  have hpathLen : s.byte a.length = UInt8.ofNat e.path.length :=
    byte_of_append (by rw [h]; simp [entryBytes]; rfl) rfl
  have hkind : s.byte (a.length + 1) = kindByte e.kind :=
    byte_of_append (a := a ++ [UInt8.ofNat e.path.length])
      (by rw [h]; simp [entryBytes]; rfl) (by simp)
  have hdataLen : s.slice (a.length + 2) 2 = leBytes 2 e.data.length :=
    slice_of_append
      (a := a ++ [UInt8.ofNat e.path.length, kindByte e.kind]) (c := e.path ++ e.data ++ c)
      (by rw [h]; simp [entryBytes]) (by simp) (by simp)
  have hpath : s.slice (a.length + 4) e.path.length = e.path :=
    slice_of_append
      (a := a ++ [UInt8.ofNat e.path.length, kindByte e.kind] ++ leBytes 2 e.data.length)
      (c := e.data ++ c) (by rw [h]; simp [entryBytes]) (by simp) rfl
  have hdata : s.slice (a.length + 4 + e.path.length) e.data.length = e.data :=
    slice_of_append
      (a := a ++ [UInt8.ofNat e.path.length, kindByte e.kind] ++ leBytes 2 e.data.length ++ e.path)
      (c := c) (by rw [h]; simp [entryBytes]) (by simp; omega) rfl
  have hp : (UInt8.ofNat e.path.length).toNat = e.path.length := by
    have := he.path
    simp [UInt8.toNat_ofNat']
    omega
  have hd : leNat (leBytes 2 e.data.length) = e.data.length := leNat_leBytes 2 _ he.data
  have hbody : decodeBody s a.length used e.kind
      = .ok (e, a.length + (entryBytes e).length) := by
    have hgood : ¬ (e.path.length = 0 ∨ (e.kind = .directory ∧ e.data.length ≠ 0)) := by
      rintro (h0 | ⟨hk, h0⟩)
      · omega
      · exact h0 (by rw [he.dirEmpty hk]; rfl)
    have hstop : ¬ used < a.length + 4 + e.path.length + e.data.length := by omega
    simp only [decodeBody, hpathLen, hp, hdataLen, hd, hhead, hpath, hdata]
    rw [if_neg hgood, if_neg hstop]
    congr 2
    omega
  have hsplit : decodeEntry s a.length used = decodeBody s a.length used e.kind := by
    unfold decodeEntry
    rw [if_neg (by omega), hkind]
    cases e.kind <;> rfl
  rw [hsplit, hbody]

/-! ## §2. A run of entries. -/

/-- An entry the validator admits after the entries `prior`. -/
structure EntryOk (prior : List Entry) (e : Entry) : Prop where
  below : userWritablePrefix <+: e.path
  valid : validAbsolutePath e.path = true
  small : e.data.length ≤ maxFileBytes
  dirEmpty : e.kind = .directory → e.data = []
  fresh : ∀ m ∈ prior, foldCase m.path ≠ foldCase e.path
  parent : parentPath e.path = userRoot ∨ ∃ p ∈ prior, p.kind = .directory
    ∧ foldCase p.path = foldCase (parentPath e.path)

theorem EntryOk.fits {prior : List Entry} (h : EntryOk prior e) : EntryFits e where
  nonempty := by
    intro hnil
    have := h.below
    rw [hnil] at this
    exact absurd this (by decide)
  path := Nat.le_trans (validAbsolutePath_length h.valid) (by decide)
  data := Nat.lt_of_le_of_lt h.small (by decide)
  dirEmpty := h.dirEmpty

/-- The row of the validator's table for an entry. -/
def priorKey (e : Entry) : Bytes × NodeKind := (e.path, e.kind)

theorem acceptsEntry_of_ok {prior : List Entry} (h : EntryOk prior e) :
    acceptsEntry (prior.map priorKey) e.path e.data = true := by
  obtain ⟨k, hk, hparent, -⟩ := parentPath_userPath h.below
  have hpre : userWritablePrefix.isPrefixOf e.path = true := isPrefixOf_iff_prefix.mpr h.below
  have hfresh : (prior.map priorKey).any (fun other => eqIgnoreAsciiCase other.1 e.path)
      = false := by
    rw [any_eq_false]
    intro m hm
    obtain ⟨p, hp, rfl⟩ := mem_map.mp hm
    rw [eqIgnoreAsciiCase_iff]
    exact h.fresh p hp
  unfold acceptsEntry
  simp only [hpre, h.valid, h.small, hfresh, hk, decide_true, Bool.not_false, Bool.and_self,
    Bool.true_and, Bool.or_eq_true, beq_iff_eq]
  rcases h.parent with hroot | ⟨p, hp, hd, hf⟩
  · exact .inl (by rw [← hparent, hroot])
  right
  rw [any_eq_true]
  refine ⟨priorKey p, mem_map_of_mem hp, ?_⟩
  simp only [priorKey, hd, beq_self_eq_true, Bool.true_and]
  rw [eqIgnoreAsciiCase_iff, hf, hparent]

/-- The validator walks over a run of admissible entries to its end. -/
theorem validateEntries_of_entries (es : List Entry) :
    ∀ (a : Bytes) (seen : List Entry), s.val = a ++ es.flatMap entryBytes ++ c →
      AllPrior EntryOk seen es → a.length + (es.flatMap entryBytes).length ≤ slotBytes →
      validateEntries s (a.length + (es.flatMap entryBytes).length) es.length a.length
        (seen.map priorKey) = .ok (a.length + (es.flatMap entryBytes).length) := by
  induction es with
  | nil => intro a seen _ _ _; simp [validateEntries]
  | cons e es ih =>
    intro a seen hs hok hfit
    obtain ⟨he, hes⟩ := hok
    simp only [flatMap_cons, length_append] at hs hfit ⊢
    have hsplit : s.val = a ++ entryBytes e ++ (es.flatMap entryBytes ++ c) := by simp [hs]
    have hdec := decodeEntry_of_append hsplit he.fits
      (Nat.add_le_add_left (Nat.le_add_right _ (es.flatMap entryBytes).length) a.length) hfit
    have hrec := ih (a ++ entryBytes e) (seen ++ [e]) (by simp [hs]) hes
      (by simp only [length_append]; omega)
    have hutf := fromUtf8_of_isAscii (validAbsolutePath_isAscii he.valid)
    simp only [length_append, map_append, map_cons, map_nil,
      Nat.add_assoc] at hrec
    simp only [length_cons, validateEntries, hdec, hutf, acceptsEntry_of_ok he, if_true]
    exact hrec

/-! ## §3. The entries of a file system. -/

/-- The nodes a snapshot contains. -/
def isUserNode (n : VfsNode) : Bool := isUserWritablePath n.path.asStr

def userNodes (v : RamVfs) : List VfsNode := v.nodes.filter isUserNode

/-- The entry stored for a node. -/
def nodeEntry (n : VfsNode) : Entry := ⟨canonicalUserPath n.path.asStr, n.kind, storedData n⟩

def userEntries (v : RamVfs) : List Entry := (userNodes v).map nodeEntry

theorem storedData_length (n : VfsNode) : (storedData n).length ≤ maxFileBytes := by
  unfold storedData
  split
  · exact n.fits
  · exact Nat.zero_le _

theorem canonicalUserPath_below (path : Bytes) : userWritablePrefix <+: canonicalUserPath path :=
  prefix_append _ _

/-- A user node admitted by the file system gives an admissible entry. -/
theorem nodeEntry_ok {prior : List VfsNode} (hu : isUserNode n = true) (hn : NodeOk prior n)
    (hprior : ∀ p ∈ prior, validAbsolutePath p.path.asStr = true) :
    EntryOk ((prior.filter isUserNode).map nodeEntry) (nodeEntry n) where
  below := canonicalUserPath_below _
  valid := isUserWritablePath_valid (canonicalUserPath_writable hu)
  small := storedData_length n
  dirEmpty := by
    intro hk
    have hk' : n.kind = .directory := hk
    simp [nodeEntry, storedData, hk']
  fresh := by
    intro m hm
    obtain ⟨p, hp, rfl⟩ := mem_map.mp hm
    obtain ⟨hp, hpu⟩ := mem_filter.mp hp
    simp only [nodeEntry]
    rw [foldCase_canonicalUserPath hpu, foldCase_canonicalUserPath hu]
    exact hn.fresh p hp
  parent := by
    have hfold := foldCase_parentPath (foldCase_canonicalUserPath hu)
    obtain ⟨-, -, -, hroot | hbelow⟩ := parentPath_userPath (canonicalUserPath_below n.path.asStr)
    · exact .inl hroot
    -- the parent lies below `/USER/` itself, so it is stored as well
    right
    have hne : n.path.asStr ≠ rootPath := by
      intro h
      rw [isUserNode, h] at hu
      exact absurd hu (by decide)
    obtain ⟨p, hp, hd, hf⟩ := hn.parent hne
    have hpu : isUserNode p = true := by
      apply isUserWritablePath_of_fold (hprior p hp)
      obtain ⟨rest, hrest⟩ := hbelow
      rw [foldCase_take, hf, ← hfold, ← hrest, ← foldCase_take]
      rfl
    refine ⟨nodeEntry p, mem_map_of_mem (mem_filter.mpr ⟨hp, hpu⟩), hd, ?_⟩
    simp only [nodeEntry]
    rw [foldCase_canonicalUserPath hpu, hf, hfold]

theorem userEntries_ok (hi : VfsInv v) : AllPrior EntryOk [] (userEntries v) := by
  refine (allPrior_map EntryOk nodeEntry [] (userNodes v)).mpr ?_
  exact (hi.nodes.and_prior (by simp) hi.valid).filter
    (fun t x hu _ hx => nodeEntry_ok hu hx.1 hx.2)

/-- Neither the root nor `/USER` is stored, so two nodes are always left out. -/
theorem userNodes_length (hi : VfsInv v) (hne : userNodes v ≠ []) :
    (userNodes v).length + 2 ≤ v.nodes.length := by
  obtain ⟨r, rest, hv, hr, -⟩ := hi.root
  have hru : isUserNode r = false := by rw [isUserNode, hr]; decide
  -- the first stored node lies directly in `/USER`
  obtain ⟨p, hp, hpf⟩ : ∃ p ∈ v.nodes, foldCase p.path.asStr = foldCase userRoot := by
    obtain ⟨n, ns, hns⟩ := exists_cons_of_ne_nil hne
    have hnu : n ∈ v.nodes ∧ isUserNode n = true :=
      mem_filter.mp (show n ∈ userNodes v by rw [hns]; exact mem_cons_self)
    have hok := userEntries_ok hi
    rw [userEntries, hns] at hok
    have hparent : parentPath (canonicalUserPath n.path.asStr) = userRoot := by
      rcases hok.1.parent with h | ⟨p, hp, -⟩
      · exact h
      · exact absurd hp not_mem_nil
    have hne' : n.path.asStr ≠ rootPath := by
      intro h
      have := hnu.2
      rw [isUserNode, h] at this
      exact absurd this (by decide)
    obtain ⟨pre, post, hsplit⟩ := append_of_mem hnu.1
    have hnodes := hi.nodes
    rw [hsplit] at hnodes
    obtain ⟨p, hp, -, hf⟩ := hnodes.at_split.parent hne'
    refine ⟨p, by rw [hsplit]; exact mem_append_left _ (by simpa using hp), ?_⟩
    rw [hf, ← foldCase_parentPath (foldCase_canonicalUserPath hnu.2), hparent]
  have hlen5 : p.path.asStr.length = 5 := by
    have := congrArg length hpf
    simp only [foldCase_length] at this
    exact this
  have hpu : isUserNode p = false := by
    rw [Bool.eq_false_iff]
    intro h
    have := ((isUserWritablePath_iff _).mp h).2.1
    omega
  have hpr : p ∈ rest := by
    rw [hv] at hp
    rcases mem_cons.mp hp with rfl | h
    · rw [hr] at hlen5
      exact absurd hlen5 (by decide)
    · exact h
  have hcount : (rest.filter isUserNode).length + 1 ≤ rest.length := by
    have h1 := length_eq_countP_add_countP isUserNode (l := rest)
    have h2 : 0 < rest.countP (fun a => decide ¬isUserNode a = true) :=
      countP_pos_iff.mpr ⟨p, hpr, by simp [hpu]⟩
    rw [countP_eq_length_filter] at h1
    omega
  have : userNodes v = rest.filter isUserNode := by
    rw [userNodes, hv, filter_cons_of_neg (by simp [hru])]
  rw [this, hv, length_cons]
  omega

/-! ## §4. The encoder writes these entries. -/

/-- The writer has filled the slot with `head`, the entries and zeros. -/
structure Writes (w : Writer) (head : Bytes) (es : List Entry) : Prop where
  output : ∃ k, w.output.val = head ++ es.flatMap entryBytes ++ List.replicate k 0
  cursor : w.cursor = head.length + (es.flatMap entryBytes).length
  entries : w.entries = es.length

/-- The stores of one iteration put the entry where zeros were. -/
theorem writeEntry_fills {output : Snapshot} {a : Bytes} {k : Nat}
    (h : output.val = a ++ replicate k 0) (path : Bytes) (kind : NodeKind) (data : Bytes)
    (hk : entryHeaderBytes + path.length + data.length ≤ k) (h6 : 6 ≤ path.length) :
    ∃ k', (writeEntry output a.length path kind data).val
      = a ++ entryBytes ⟨canonicalUserPath path, kind, data⟩ ++ replicate k' 0 := by
  have h4 : entryHeaderBytes = 4 := rfl
  have hpre : userWritablePrefix.length = 6 := rfl
  obtain ⟨u, r, rfl, hu⟩ : ∃ u r, path = u ++ r ∧ u.length = 6 :=
    ⟨path.take 6, path.drop 6, (take_append_drop 6 path).symm, by simp; omega⟩
  have hcanon : canonicalUserPath (u ++ r) = userWritablePrefix ++ r := by
    rw [canonicalUserPath, drop_left' hu]
  have hlen : (u ++ r).length = (userWritablePrefix ++ r).length := by simp [hu, hpre]
  -- each store extends the filled part, except the fifth, which rewrites six bytes of the path
  set header := a ++ [UInt8.ofNat (u ++ r).length] ++ [kindByte kind] ++ leBytes 2 data.length
    with hheader
  have s1 := patch_fill (d := [UInt8.ofNat (u ++ r).length]) h rfl (by simp; omega)
  have s2 := patch_fill (o := a.length + 1) (d := [kindByte kind]) s1
    (by simp) (by simp; omega)
  have s3 := patch_fill (o := a.length + 2) (d := leBytes 2 data.length) s2
    (by simp) (by simp; omega)
  have s4 := patch_fill (o := a.length + 4) (d := u ++ r) s3
    (by simp) (by simp only [length_singleton, leBytes_length]; omega)
  have hz : ∀ j, header ++ (u ++ r) ++ replicate j 0 = header ++ u ++ (r ++ replicate j 0) := by
    simp
  have s5 := patch_of_append (o := a.length + 4) (d := userWritablePrefix)
    (s4.trans (hz _)) (by simp [hheader]) (by rw [hpre, hu])
  rw [← append_assoc] at s5
  have s6 := patch_fill (o := a.length + 4 + (u ++ r).length) (d := data) s5
    (by simp [hheader, hu, hpre]; omega)
    (by simp only [length_singleton, leBytes_length]; omega)
  have hshape : ∀ j, header ++ userWritablePrefix ++ r ++ data ++ replicate j 0
      = a ++ entryBytes ⟨canonicalUserPath (u ++ r), kind, data⟩ ++ replicate j 0 := by
    intro j
    simp only [entryBytes, hcanon, hheader, hlen, append_assoc, cons_append,
      nil_append]
  exact ⟨_, s6.trans (hshape _)⟩

/-- One user node appends its entry. -/
theorem encodeNode_writes {head : Bytes} {es : List Entry} (hw : Writes w head es)
    (hu : isUserNode n = true) (hroom : w.cursor + (entryBytes (nodeEntry n)).length ≤ slotBytes)
    (hcount : es.length < 255) :
    ∃ w', encodeNode w n = .ok w' ∧ Writes w' head (es ++ [nodeEntry n]) := by
  obtain ⟨⟨k, hout⟩, hcur, hent⟩ := hw
  have hclen := canonicalUserPath_length hu
  have hlen : (entryBytes (nodeEntry n)).length
      = 4 + n.path.asStr.length + (storedData n).length := by
    rw [entryBytes_length]
    simp only [nodeEntry, hclen]
    rfl
  obtain ⟨hvalid, h6, -⟩ := (isUserWritablePath_iff _).mp hu
  have hmax := validAbsolutePath_length hvalid
  have hu64 : userPathMax = 64 := rfl
  have hk : w.cursor + k = slotBytes := by
    have := w.output.property
    rw [hout] at this
    simp only [length_append, length_replicate] at this
    omega
  have h4 : entryHeaderBytes = 4 := rfl
  have htest : ¬ slotBytes < w.cursor
      + (entryHeaderBytes + n.path.asStr.length + (storedData n).length) := by omega
  have hbad : ¬ (w.entries = 255 ∨ n.path.asStr = [] ∨ 255 < n.path.asStr.length) := by
    rintro (h | h | h)
    · omega
    · rw [h] at h6; simp at h6
    · omega
  have hu' : ¬ isUserWritablePath n.path.asStr = false := by
    have : isUserWritablePath n.path.asStr = true := hu
    simp [this]
  refine ⟨_, by rw [encodeNode, if_neg hu', if_neg htest, if_neg hbad], ?_, ?_, ?_⟩
  · have hfill := writeEntry_fills hout n.path.asStr n.kind (storedData n) (by omega)
      (by omega)
    rw [length_append, ← hcur] at hfill
    simpa [nodeEntry] using hfill
  · simp only [flatMap_append, flatMap_singleton, length_append, hlen, hcur, h4]
    omega
  · simp only [length_append, length_singleton, hent]
    omega

/-- A node that is not user-writable is skipped. -/
theorem encodeNode_skips (hu : isUserNode n = false) :
    encodeNode w n = .ok w := by
  have hu' : isUserWritablePath n.path.asStr = false := hu
  rw [encodeNode, if_pos hu']

theorem encodeNodes_skips {nodes : List VfsNode} (h : ∀ n ∈ nodes, isUserNode n = false) : encodeNodes w nodes = .ok w := by
  induction nodes with
  | nil => rfl
  | cons n ns ih =>
    rw [encodeNodes, encodeNode_skips (h n mem_cons_self)]
    exact ih (fun m hm => h m (mem_cons_of_mem _ hm))

/-- Without a user node there is nothing to encode. -/
theorem encodeSnapshot_nonempty (h : encodeSnapshot v generation = .ok s) : userNodes v ≠ [] := by
  intro hnil
  have hskip : ∀ n ∈ v.listRoot, isUserNode n = false := by
    intro n hn
    have := filter_eq_nil_iff.mp hnil n (mem_filter.mp hn).1
    simpa using this
  simp only [encodeSnapshot, encodeNodes_skips hskip, if_true] at h
  cases h

/-- The loop appends the entries of all user nodes. -/
theorem encodeNodes_writes {head : Bytes} (nodes : List VfsNode) :
    ∀ (w : Writer) (es : List Entry), Writes w head es →
      w.cursor + (((nodes.filter isUserNode).map nodeEntry).flatMap entryBytes).length
        ≤ slotBytes →
      es.length + (nodes.filter isUserNode).length ≤ 255 →
      ∃ w', encodeNodes w nodes = .ok w'
        ∧ Writes w' head (es ++ (nodes.filter isUserNode).map nodeEntry) := by
  induction nodes with
  | nil => intro w es hw _ _; exact ⟨w, rfl, by simpa using hw⟩
  | cons n ns ih =>
    intro w es hw hroom hcount
    by_cases hu : isUserNode n = true
    · simp only [filter_cons_of_pos hu, map_cons, flatMap_cons,
        length_append, length_cons] at hroom hcount
      obtain ⟨w₁, hstep, hw₁⟩ := encodeNode_writes hw hu (by omega) (by omega)
      have hcur : w₁.cursor = w.cursor + (entryBytes (nodeEntry n)).length := by
        rw [hw₁.cursor, hw.cursor]
        simp only [flatMap_append, flatMap_singleton, length_append]
        omega
      obtain ⟨w', hrun, hw'⟩ := ih w₁ _ hw₁ (by omega)
        (by simp only [length_append, length_singleton]; omega)
      refine ⟨w', by rw [encodeNodes, hstep]; exact hrun, ?_⟩
      simpa [filter_cons_of_pos hu] using hw'
    · have hu' : isUserNode n = false := by simpa using hu
      rw [filter_cons_of_neg hu] at hroom hcount ⊢
      obtain ⟨w', hrun, hw'⟩ := ih w es hw hroom hcount
      exact ⟨w', by rw [encodeNodes, encodeNode_skips hu']; exact hrun, hw'⟩

/-- All entries together fit into a slot. -/
theorem userEntries_fit (hlen : (userNodes v).length ≤ 30)
    (hpath : ∀ n ∈ userNodes v, n.path.asStr.length ≤ userPathMax) :
    recordHeaderBytes + ((userEntries v).flatMap entryBytes).length ≤ slotBytes := by
  have hone : ∀ n ∈ userNodes v, (entryBytes (nodeEntry n)).length ≤ 580 := by
    intro n hn
    have hu : isUserNode n = true := (mem_filter.mp hn).2
    have h1 := hpath n hn
    have h2 := storedData_length n
    have h64 : userPathMax = 64 := rfl
    have h512 : maxFileBytes = 512 := rfl
    have h4 : entryHeaderBytes = 4 := rfl
    rw [entryBytes_length]
    simp only [nodeEntry, canonicalUserPath_length hu]
    omega
  have hall : ∀ l : List VfsNode, (∀ n ∈ l, (entryBytes (nodeEntry n)).length ≤ 580) →
      ((l.map nodeEntry).flatMap entryBytes).length ≤ 580 * l.length := by
    intro l hl
    induction l with
    | nil => simp
    | cons n ns ih =>
      have h1 := hl n mem_cons_self
      have h2 := ih (fun m hm => hl m (mem_cons_of_mem _ hm))
      simp only [map_cons, flatMap_cons, length_append, length_cons]
      omega
  have hsum := hall (userNodes v) hone
  have h64 : recordHeaderBytes = 64 := rfl
  have hslot : slotBytes = 20480 := rfl
  rw [userEntries]
  omega

/-! ## §5. The header. -/

/-- The 64 header bytes with the given commit byte, count, generation, used
length and checksum field. -/
def recordHead (commit : UInt8) (count : Nat) (generation : UInt64) (used : Nat) (sum : Bytes) :
    Bytes :=
  recordMagic ++ leBytes 2 recordVersion ++ [UInt8.ofNat count] ++ [commit]
    ++ leBytes 8 generation.toNat ++ leBytes 4 used ++ sum ++ List.replicate 40 0

theorem recordHead_length {commit : UInt8} {count : Nat} {sum : Bytes} (hsum : sum.length = 4) :
    (recordHead commit count generation used sum).length = recordHeaderBytes := by
  simp [recordHead, hsum, recordMagic, ascii, recordHeaderBytes]

section Fields

variable {s : Snapshot} {commit : UInt8} {count used : Nat} {generation : UInt64} {sum rest : Bytes}

/-- What the validator reads from a header. -/
theorem recordHead_fields (hsum : sum.length = 4)
    (h : s.val = recordHead commit count generation used sum ++ rest) :
    s.slice 0 4 = recordMagic ∧ s.slice 4 2 = leBytes 2 recordVersion
      ∧ s.byte 6 = UInt8.ofNat count ∧ s.byte 7 = commit
      ∧ s.slice 8 8 = leBytes 8 generation.toNat ∧ s.slice 16 4 = leBytes 4 used
      ∧ s.slice 20 4 = sum := by
  have hm : recordMagic.length = 4 := rfl
  simp only [recordHead] at h
  refine ⟨?_, ?_, ?_, ?_, ?_, ?_, ?_⟩
  · exact slice_of_append (a := []) (by simpa using h) rfl rfl
  · exact slice_of_append (a := recordMagic) (by simpa using h) hm (by simp)
  · exact byte_of_append (a := recordMagic ++ leBytes 2 recordVersion)
      (by simpa using h) (by simp [hm])
  · exact byte_of_append
      (a := recordMagic ++ leBytes 2 recordVersion ++ [UInt8.ofNat count])
      (by simpa using h) (by simp [hm])
  · exact slice_of_append
      (a := recordMagic ++ leBytes 2 recordVersion ++ [UInt8.ofNat count] ++ [commit])
      (by simpa using h) (by simp [hm]) (by simp)
  · exact slice_of_append
      (a := recordMagic ++ leBytes 2 recordVersion ++ [UInt8.ofNat count] ++ [commit]
        ++ leBytes 8 generation.toNat) (by simpa using h) (by simp [hm]) (by simp)
  · exact slice_of_append
      (a := recordMagic ++ leBytes 2 recordVersion ++ [UInt8.ofNat count] ++ [commit]
        ++ leBytes 8 generation.toNat ++ leBytes 4 used)
      (by simpa using h) (by simp [hm]) hsum

end Fields

/-- The header `encode_snapshot` starts with. -/
theorem initialHeader_fills (generation : UInt64) :
    ∃ k, ((FixedBytes.zero : Snapshot).patch 0 recordMagic |>.patch 4 (leBytes 2 recordVersion)
        |>.patch 7 [0] |>.patch 8 (leBytes 8 generation.toNat)).val
      = recordHead 0 0 generation 0 (replicate 4 0) ++ replicate k 0 := by
  have hslot : slotBytes = 20480 := rfl
  have hm : recordMagic.length = 4 := rfl
  have h0 : (FixedBytes.zero : Snapshot).val = [] ++ replicate slotBytes 0 := rfl
  have s1 := patch_fill (o := 0) (d := recordMagic) h0 rfl (by rw [hm]; omega)
  have s2 := patch_fill (o := 4) (d := leBytes 2 recordVersion) s1 rfl
    (by simp [hm]; omega)
  -- byte 6 is skipped for now, it stays zero
  have hskip : slotBytes - recordMagic.length - (leBytes 2 recordVersion).length
      = 20473 + 1 := by simp [hm, hslot]
  rw [hskip, replicate_succ, append_cons] at s2
  have s3 := patch_fill (o := 7) (d := [0]) s2 (by simp [hm]) (by simp)
  have s4 := patch_fill (o := 8) (d := leBytes 8 generation.toNat) s3
    (by simp [hm]) (by simp)
  refine ⟨20416, s4.trans ?_⟩
  have hz : 20473 - [(0 : UInt8)].length - (leBytes 8 generation.toNat).length
      = 4 + (4 + (40 + 20416)) := by simp
  have hle : leBytes 4 0 = replicate 4 0 := by decide
  have h1 : UInt8.ofNat 0 = 0 := rfl
  rw [hz]
  simp only [recordHead, hle, h1, append_assoc, nil_append,
    ← replicate_append_replicate]

/-- **Encoding a file system with user nodes succeeds**, with the record of
its user entries as result, not yet committed. -/
theorem encodeSnapshot_shape (hi : VfsInv v) (hne : userNodes v ≠ []) (generation : UInt64) :
    ∃ s k, encodeSnapshot v generation = .ok s ∧ s.val
      = recordHead 0 (userNodes v).length generation
          (recordHeaderBytes + ((userEntries v).flatMap entryBytes).length) (replicate 4 0)
        ++ (userEntries v).flatMap entryBytes ++ replicate k 0 := by
  have h64 : recordHeaderBytes = 64 := rfl
  have hm : recordMagic.length = 4 := rfl
  have hcount : (userNodes v).length ≤ 30 := by
    have h1 := userNodes_length hi hne
    have h2 : v.nodes.length ≤ 32 := v.fits
    omega
  have hfit := userEntries_fit hcount (fun n hn =>
    validAbsolutePath_length (hi.valid n (mem_filter.mp hn).1))
  -- the root is the only node `list_root` leaves out, and it is no user node
  have hlist : v.listRoot.filter isUserNode = userNodes v := by
    rw [RamVfs.listRoot, filter_filter, userNodes]
    apply filter_congr
    intro n _
    cases hu : isUserNode n with
    | false => rfl
    | true =>
      have : n.path.asStr ≠ rootPath := by
        intro h
        rw [isUserNode, h] at hu
        exact absurd hu (by decide)
      simp [this]
  obtain ⟨k₀, hk₀⟩ := initialHeader_fills generation
  set head := recordHead 0 0 generation 0 (replicate 4 0) with hhead
  have hheadlen : head.length = recordHeaderBytes := recordHead_length (by simp)
  have hw₀ : Writes ⟨_, recordHeaderBytes, 0⟩ head [] :=
    ⟨⟨k₀, by simpa using hk₀⟩, by simp [hheadlen], rfl⟩
  obtain ⟨w, hrun, ⟨k, hout⟩, hcur, hent⟩ := encodeNodes_writes v.listRoot _ [] hw₀
    (by rw [hlist]; exact hfit) (by rw [hlist]; simp only [length_nil]; omega)
  rw [hlist, nil_append] at hout hcur hent
  have hent' : w.entries = (userNodes v).length := by rw [hent, length_map]
  have hpos : w.entries ≠ 0 := by
    rw [hent']
    exact fun h => hne (length_eq_zero_iff.mp h)
  refine ⟨_, k, by rw [encodeSnapshot, hrun]; exact if_neg hpos, ?_⟩
  rw [hheadlen] at hcur
  -- the two fields that are known only after the loop
  obtain ⟨tail, htail⟩ : ∃ t, t = replicate 4 0 ++ replicate 40 0
      ++ ((userNodes v).map nodeEntry).flatMap entryBytes ++ replicate k 0 := ⟨_, rfl⟩
  have hfront : w.output.val = recordMagic ++ leBytes 2 recordVersion ++ [UInt8.ofNat 0]
      ++ ([0] ++ leBytes 8 generation.toNat ++ leBytes 4 0 ++ tail) := by
    rw [hout, hhead, htail]
    simp only [recordHead, append_assoc]
  have s1 := patch_of_append (o := 6) (d := [UInt8.ofNat w.entries]) hfront
    (by simp [hm]) rfl
  have hback : (w.output.patch 6 [UInt8.ofNat w.entries]).val
      = (recordMagic ++ leBytes 2 recordVersion ++ [UInt8.ofNat w.entries] ++ [0]
        ++ leBytes 8 generation.toNat) ++ leBytes 4 0 ++ tail := by
    rw [s1]
    simp only [append_assoc]
  have s2 := patch_of_append (o := 16) (d := leBytes 4 w.cursor) hback
    (by simp [hm]) (by simp)
  rw [s2, htail]
  simp only [recordHead, userEntries, hcur, hent', append_assoc]

/-! ## §6. Sealing and validating. -/

/-- The checksum does not look at the bytes of its own field. -/
theorem checksum_fold_congr (l m : Bytes) : ∀ (k : Nat) (hash : UInt32), l.length = m.length →
    (∀ i, ¬ (recordChecksumOffset ≤ k + i ∧ k + i < recordChecksumOffset + 4) → l[i]? = m[i]?) →
    (l.zipIdx k).foldl checksumStep hash = (m.zipIdx k).foldl checksumStep hash := by
  induction l generalizing m with
  | nil =>
    intro k hash hlen _
    rw [length_eq_zero_iff.mp hlen.symm]
  | cons x xs ih =>
    intro k hash hlen hsame
    cases m with
    | nil => simp at hlen
    | cons y ys =>
      have hstep : checksumStep hash (x, k) = checksumStep hash (y, k) := by
        by_cases hk : recordChecksumOffset ≤ k ∧ k < recordChecksumOffset + 4
        · simp only [checksumStep, if_pos hk]
        have := hsame 0 (by simpa using hk)
        simp only [getElem?_cons_zero, Option.some.injEq] at this
        rw [this]
      simp only [zipIdx_cons, foldl_cons, hstep]
      apply ih ys (k + 1) _ (by simpa using hlen)
      intro i hi
      have := hsame (i + 1) (by omega)
      simpa only [getElem?_cons_succ] using this

theorem checksum_patch (s : Snapshot) {d : Bytes} (hd : d.length = 4) :
    checksum (s.patch recordChecksumOffset d).val = checksum s.val := by
  apply checksum_fold_congr
  · simp
  intro i hi
  apply patch_getElem?_of_notMem
  rw [hd]
  omega

theorem leNat_checksum (hash : UInt32) : leNat (leBytes 4 hash.toNat) = hash.toNat :=
  leNat_leBytes 4 _ hash.toNat_lt

/-- Sealing sets the commit byte and a checksum that matches the result. -/
theorem sealSnapshot_shape {count : Nat} {rest : Bytes}
    (h : s.val = recordHead 0 count generation used (replicate 4 0) ++ rest) :
    ∃ sum, sum.length = 4 ∧ leNat sum = (checksum (sealSnapshot s).val).toNat
      ∧ (sealSnapshot s).val = recordHead recordCommitted count generation used sum ++ rest := by
  have hm : recordMagic.length = 4 := rfl
  obtain ⟨z, hz⟩ : ∃ z, z = replicate 4 (0 : UInt8) := ⟨_, rfl⟩
  obtain ⟨tail, htail⟩ : ∃ t, t = replicate 40 0 ++ rest := ⟨_, rfl⟩
  have hfront : s.val = recordMagic ++ leBytes 2 recordVersion ++ [UInt8.ofNat count] ++ [0]
      ++ (leBytes 8 generation.toNat ++ leBytes 4 used ++ z ++ tail) := by
    rw [h, hz, htail]
    simp only [recordHead, append_assoc]
  have hzl : z.length = 4 := by rw [hz]; rfl
  have s1 := patch_of_append (o := 7) (d := [recordCommitted]) hfront (by simp [hm]) rfl
  have hback : (s.patch 7 [recordCommitted]).val
      = (recordMagic ++ leBytes 2 recordVersion ++ [UInt8.ofNat count] ++ [recordCommitted]
        ++ leBytes 8 generation.toNat ++ leBytes 4 used) ++ z ++ tail := by
    rw [s1]
    simp only [append_assoc]
  have s2 := patch_of_append (o := recordChecksumOffset) (d := replicate 4 0)
    hback (by simp [hm, recordChecksumOffset]) (by rw [hzl]; rfl)
  obtain ⟨marked, hmarked⟩ : ∃ m, m = (s.patch 7 [recordCommitted]).patch recordChecksumOffset
      (replicate 4 0) := ⟨_, rfl⟩
  have hseal : sealSnapshot s
      = marked.patch recordChecksumOffset (leBytes 4 (checksum marked.val).toNat) := by
    rw [hmarked]; rfl
  rw [← hmarked] at s2
  refine ⟨leBytes 4 (checksum marked.val).toNat, by simp, ?_, ?_⟩
  · rw [leNat_checksum, hseal, checksum_patch _ (by simp)]
  have s3 := patch_of_append (o := recordChecksumOffset)
    (d := leBytes 4 (checksum marked.val).toNat) s2
    (by simp [hm, recordChecksumOffset]) (by simp)
  rw [hseal, s3, htail]
  simp only [recordHead, append_assoc]

/-- **A sealed record of admissible entries is valid.** -/
theorem validateSnapshot_of_record {es : List Entry}
    {sum : Bytes} (hsum : sum.length = 4) (hcheck : leNat sum = (checksum s.val).toNat)
    (hs : s.val = recordHead recordCommitted es.length generation
        (recordHeaderBytes + (es.flatMap entryBytes).length) sum
      ++ es.flatMap entryBytes ++ c)
    (hok : AllPrior EntryOk [] es) (hpos : es ≠ []) (hmax : es.length ≤ maxNodes - 2)
    (hfit : recordHeaderBytes + (es.flatMap entryBytes).length ≤ slotBytes) :
    validateSnapshot s = .ok generation := by
  have hslot : slotBytes = 20480 := rfl
  have h30 : maxNodes - 2 = 30 := rfl
  have h64 : recordHeaderBytes = 64 := rfl
  obtain ⟨f1, f2, f3, f4, f5, f6, f7⟩ := recordHead_fields hsum
    (hs.trans (append_assoc _ _ _))
  have hlen : 0 < es.length := length_pos_iff.mpr hpos
  have hcount : entryCount s = es.length := by
    rw [entryCount, f3, UInt8.toNat_ofNat']
    omega
  have hused : usedBytes s = recordHeaderBytes + (es.flatMap entryBytes).length := by
    rw [usedBytes, f6, leNat_leBytes]
    omega
  have hhead : headerOk s = true := by
    have h6 : s.byte 6 ≠ 0 := by
      intro h0
      rw [entryCount, h0] at hcount
      simp only [UInt8.toNat_zero] at hcount
      omega
    have hver : leNat (leBytes 2 recordVersion) = recordVersion := leNat_leBytes 2 _ (by decide)
    simp only [headerOk, f1, f2, f4, hver, hcount, hmax, beq_self_eq_true, bne_iff_ne, ne_eq, h6,
      not_false_eq_true, decide_true, Bool.and_self, Bool.and_true, Bool.true_and]
  have hwalk := validateEntries_of_entries es _ [] hs hok
    (by rw [recordHead_length hsum]; exact hfit)
  rw [recordHead_length hsum, map_nil] at hwalk
  have hgen : UInt64.ofNat (leNat (s.slice 8 8)) = generation := by
    rw [f5, leNat_leBytes 8 _ generation.toNat_lt, UInt64.ofNat_toNat]
  unfold validateSnapshot
  rw [if_neg (by simp [hhead]), hused, if_neg (by omega),
    if_neg (by rw [recordChecksumOffset, f7, hcheck]; simp), hcount, hwalk]
  simp only [ne_eq, not_true_eq_false, if_false, hgen]

end GenOS.Storage
