/-
  GenOS.Storage.Mounting — when a slot mounts, and what mounting it gives.

  `apply_snapshot` builds a private namespace in two passes.  Copying the base
  node by node reproduces it (`copyNodes_rebuilds`), because every node was
  admissible after the ones before it.  The entries are then placed in order
  (`placeEntries`).  Both passes rest on one fact about a single insertion,
  `place_node`.

  The slot may hold any bytes.  What the validator lets through is a run of
  admissible entries (`validateEntries_admits`): every parent is `/USER` or a
  directory stored earlier, and no path occurs twice.  So the only way the
  second pass can fail is the base: no directory `/USER`, a path already
  taken, or too few free nodes (`placeEntries_ok_iff`).
-/
import GenOS.Storage.Encoding

namespace GenOS.Storage

open GenOS.Lib GenOS.Vfs List RamVfs

/-! ## §1. Placing one node. -/

variable {v base w : RamVfs} {n : VfsNode} {path data : Bytes} {kind : NodeKind} {s : Snapshot}
  {used : Nat} {e : Entry}

/-- A node that satisfies the structural tests passes those of `insert`. -/
theorem insertOk_of_nodeOk (hi : VfsInv v) (hn : NodeOk v.nodes n)
    (hroom : v.nodes.length < maxNodes) : v.InsertOk n.path.asStr n.kind n.data where
  size := fun _ => n.fits
  valid := hn.valid
  fresh := (v.find_eq_none_iff _).mpr hn.fresh
  parent := by
    intro hr
    obtain ⟨p, hp, hd, hf⟩ := hn.parent hr
    cases hfind : v.find (parentPath n.path.asStr) with
    | none => exact absurd hf ((v.find_eq_none_iff _).mp hfind p hp)
    | some q =>
      -- the found node carries the same path, so it is the parent
      obtain ⟨hq, hqf⟩ := find_some hfind
      rw [hi.eq_of_fold hq hp (hqf.trans hf.symm)]
      exact ⟨p, rfl, hd⟩
  room := hroom

/-- Inserting the parts of a node gives the node. -/
theorem inserted_self {prior : List VfsNode} (hn : NodeOk prior n)
    (h : n.kind = .file → n.data.length ≤ maxFileBytes) :
    inserted n.path.asStr n.kind n.data h = n := by
  have hpath : FixedText.fromStr n.path.asStr = n.path :=
    FixedText.ext (fromStr_validPath hn.valid)
  have hempty := hn.dirEmpty
  obtain ⟨path, kind, data, fits⟩ := n
  cases kind with
  | file => simp only [inserted, hpath]
  | directory =>
    have hd : data = [] := hempty rfl
    subst hd
    simp only [inserted, hpath]

theorem place_of_ok (h : v.InsertOk path kind data) :
    place v path kind data = .ok (v.push (inserted path kind data h.size) h.room) := by
  cases kind with
  | file =>
    have hidx : v.findIndex path = none := (v.findIndex_eq_none_iff path).mpr h.fresh
    have hsmall : ¬ maxFileBytes < data.length := by
      have := h.size rfl
      omega
    simp only [place, write, if_neg hsmall, hidx, insert_of_ok h]
  | directory =>
    have h' : v.InsertOk path .directory [] := ⟨by simp, h.valid, h.fresh, h.parent, h.room⟩
    simp only [place, mkdir, insert_of_ok h']
    rfl

/-- Placing an admissible node appends it and keeps the invariant. -/
theorem place_node (hi : VfsInv v) (hn : NodeOk v.nodes n) (hroom : v.nodes.length < maxNodes) :
    place v n.path.asStr n.kind n.data = .ok (v.push n hroom) ∧ VfsInv (v.push n hroom) := by
  have hok := insertOk_of_nodeOk hi hn hroom
  have hself := inserted_self hn hok.size
  have hinv := hi.push hok
  rw [hself] at hinv
  refine ⟨?_, hinv⟩
  rw [place_of_ok hok, hself]

/-! ## §2. The two passes. -/

/-- Copying admissible nodes appends them in order. -/
theorem copyNodes_appends (ns : List VfsNode) : ∀ v : RamVfs, VfsInv v →
    AllPrior NodeOk v.nodes ns → v.nodes.length + ns.length ≤ maxNodes →
    ∃ w, copyNodes v ns = .ok w ∧ w.nodes = v.nodes ++ ns ∧ VfsInv w := by
  induction ns with
  | nil => intro v hi _ _; exact ⟨v, rfl, by simp, hi⟩
  | cons n ns ih =>
    intro v hi hns hroom
    rw [length_cons] at hroom
    obtain ⟨hplace, hinv⟩ := place_node hi hns.1 (by omega)
    obtain ⟨w, hw, hnodes, hwi⟩ := ih _ hinv hns.2
      (by simp only [push, length_append, length_singleton]; omega)
    refine ⟨w, by rw [copyNodes, hplace]; exact hw, ?_, hwi⟩
    rw [hnodes]
    simp [push]

/-- The base namespace is reproduced node by node. -/
theorem copyNodes_rebuilds (hi : VfsInv base) :
    copyNodes (if (base.find rootPath).isSome then initialised else new)
      base.listRoot = .ok base := by
  obtain ⟨r, rest, hb, hr, hk⟩ := hi.root
  have hnodes := hi.nodes
  rw [hb] at hnodes
  obtain ⟨hrok, hrest⟩ := hnodes
  have hfind : (base.find rootPath).isSome = true := by
    rw [Option.isSome_iff_ne_none]
    intro hnone
    exact (base.find_eq_none_iff rootPath).mp hnone r (by rw [hb]; exact mem_cons_self)
      (by rw [hr])
  -- the root made by `init_root` is the root of the base
  have hroot : initialised.nodes = [r] := by
    have hok : new.InsertOk rootPath .directory [] :=
      ⟨by simp, by decide, rfl, fun h => absurd rfl h, by decide⟩
    have hpath : FixedText.fromStr rootPath = r.path := by
      rw [← hr]
      exact FixedText.ext (fromStr_validPath hrok.valid)
    rw [initialised, mkdir, insert_of_ok hok]
    show [inserted rootPath .directory [] hok.size] = [r]
    have hdata := hrok.dirEmpty hk
    congr 1
    exact VfsNode.ext hpath hk.symm hdata.symm
  have hlist : base.listRoot = rest := by
    rw [listRoot, hb, filter_cons_of_neg (by simp [hr]), filter_eq_self]
    intro n hn
    have hb' : base.nodes = [] ++ r :: rest := hb
    have hne := (hi.unique hb').2 n hn
    simp only [bne_iff_ne, ne_eq]
    intro h
    exact hne (by rw [h, hr])
  rw [if_pos hfind, hlist]
  have hlen : rest.length + 1 ≤ maxNodes := by
    have := base.fits
    rw [hb, length_cons] at this
    exact this
  obtain ⟨w, hw, hwn, -⟩ := copyNodes_appends rest initialised VfsInv.initialised
    (by rw [hroot]; exact hrest) (by rw [hroot, length_singleton]; omega)
  rw [hw]
  congr 1
  apply RamVfs.ext
  rw [hwn, hroot, hb]
  rfl

/-! ## §3. The entries of a slot. -/

/-- The entries from `cursor` on, as far as they decode. -/
def decodeEntries (snapshot : Snapshot) (used : Nat) : Nat → Nat → List Entry
  | 0, _ => []
  | remaining + 1, cursor =>
    match decodeEntry snapshot cursor used with
    | .error _ => []
    | .ok (entry, next) => entry :: decodeEntries snapshot used remaining next

/-- The entries a slot announces. -/
def snapshotEntries (snapshot : Snapshot) : List Entry :=
  decodeEntries snapshot (usedBytes snapshot) (entryCount snapshot) recordHeaderBytes

theorem decodeBody_dirEmpty {cursor next : Nat}
    (h : decodeBody s cursor used kind = .ok (e, next)) : e.kind = .directory → e.data = [] := by
  simp only [decodeBody] at h
  split_ifs at h with hbad hstop
  rw [Except.ok.injEq, Prod.mk.injEq] at h
  obtain ⟨rfl, -⟩ := h
  intro hk
  simp only [not_or, not_and, not_not] at hbad
  have hzero := hbad.2 hk
  show s.slice _ (leNat (s.slice (cursor + 2) 2)) = []
  rw [hzero]
  exact take_zero

theorem decodeEntry_dirEmpty {cursor next : Nat} (h : decodeEntry s cursor used = .ok (e, next)) : e.kind = .directory → e.data = [] := by
  unfold decodeEntry at h
  split_ifs at h
  · exact decodeBody_dirEmpty h
  · exact decodeBody_dirEmpty h

/-- What the validator tests of an entry makes the entry admissible. -/
theorem entryOk_of_accepts {prior : List Entry} (hdir : e.kind = .directory → e.data = [])
    (h : acceptsEntry (prior.map priorKey) e.path e.data = true) : EntryOk prior e := by
  unfold acceptsEntry at h
  simp only [Bool.and_eq_true, decide_eq_true_eq, Bool.not_eq_true'] at h
  obtain ⟨⟨⟨⟨hpre, hvalid⟩, hsmall⟩, hfresh⟩, hparent⟩ := h
  have hbelow := isPrefixOf_iff_prefix.mp hpre
  refine ⟨hbelow, hvalid, hsmall, hdir, ?_, ?_⟩
  · intro m hm hfold
    rw [any_eq_false] at hfresh
    exact hfresh (priorKey m) (mem_map_of_mem hm) ((eqIgnoreAsciiCase_iff _ _).mpr hfold)
  · obtain ⟨k, hk, htake, -⟩ := parentPath_userPath hbelow
    rw [hk] at hparent
    simp only [Bool.or_eq_true, beq_iff_eq, any_eq_true, Bool.and_eq_true] at hparent
    rw [htake]
    rcases hparent with hroot | ⟨row, hrow, hkind, hfold⟩
    · exact .inl hroot
    · obtain ⟨p, hp, rfl⟩ := mem_map.mp hrow
      exact .inr ⟨p, hp, hkind, (eqIgnoreAsciiCase_iff _ _).mp hfold⟩

/-- **The validator only lets runs of admissible entries through.** -/
theorem validateEntries_admits {stop : Nat} (n : Nat) :
    ∀ (cursor : Nat) (seen : List Entry),
      validateEntries s used n cursor (seen.map priorKey) = .ok stop →
      (decodeEntries s used n cursor).length = n
        ∧ AllPrior EntryOk seen (decodeEntries s used n cursor) := by
  induction n with
  | zero => intro cursor seen _; exact ⟨rfl, allPrior_nil _ _⟩
  | succ n ih =>
    intro cursor seen h
    rw [validateEntries] at h
    cases hdec : decodeEntry s cursor used with
    | error e => simp only [hdec] at h; exact absurd h (by simp)
    | ok found =>
      obtain ⟨e, next⟩ := found
      simp only [hdec] at h
      cases hutf : fromUtf8 e.path with
      | none => simp only [hutf] at h; exact absurd h (by simp)
      | some path =>
        obtain rfl := fromUtf8_eq_some hutf
        simp only [hutf] at h
        split_ifs at h with hacc
        have hok := entryOk_of_accepts (decodeEntry_dirEmpty hdec) hacc
        -- the table grows by the row of this entry
        have hrow : seen.map priorKey ++ [(e.path, e.kind)] = (seen ++ [e]).map priorKey := by
          simp [priorKey]
        rw [hrow] at h
        obtain ⟨hlen, hrest⟩ := ih next (seen ++ [e]) h
        simp only [decodeEntries, hdec]
        exact ⟨by rw [length_cons, hlen], hok, hrest⟩

theorem validateSnapshot_entries {generation : UInt64} (h : validateSnapshot s = .ok generation) :
    (snapshotEntries s).length = entryCount s ∧ AllPrior EntryOk [] (snapshotEntries s)
      ∧ 0 < entryCount s := by
  unfold validateSnapshot at h
  split_ifs at h with hhead
  have hpos : 0 < entryCount s := by
    simp only [Bool.not_eq_false, headerOk, Bool.and_eq_true, bne_iff_ne, ne_eq] at hhead
    rw [entryCount, Nat.pos_iff_ne_zero]
    intro hzero
    exact hhead.1.1.2 (UInt8.toNat_inj.mp hzero)
  cases hent : validateEntries s (usedBytes s) (entryCount s) recordHeaderBytes [] with
  | error e => simp only [hent] at h; exact absurd h (by simp)
  | ok stop =>
    obtain ⟨hlen, hok⟩ := validateEntries_admits _ _ [] hent
    exact ⟨hlen, hok, hpos⟩

/-! ## §4. The second pass. -/

/-- The entry that denotes a node. -/
def rawEntry (n : VfsNode) : Entry := ⟨n.path.asStr, n.kind, n.data⟩

theorem rawEntry_injective : Function.Injective rawEntry := by
  intro m n h
  rw [rawEntry, rawEntry, Entry.mk.injEq] at h
  exact VfsNode.ext (FixedText.ext h.1) h.2.1 h.2.2

/-- The second pass of `apply_snapshot` on entries that are already decoded. -/
def placeEntries (candidate : RamVfs) : List Entry → Except StorageError RamVfs
  | [] => .ok candidate
  | e :: es =>
    if (candidate.find e.path).isSome then .error .invalidRecord
    else
      match place candidate e.path e.kind e.data with
      | .error error => .error error
      | .ok candidate' => placeEntries candidate' es

/-- Decoding never fails on admitted entries, nor do the tests of their paths. -/
theorem applyEntries_eq_place (n : Nat) :
    ∀ (cursor : Nat) (v : RamVfs), (decodeEntries s used n cursor).length = n →
      (∀ e ∈ decodeEntries s used n cursor,
        userWritablePrefix <+: e.path ∧ validAbsolutePath e.path = true) →
      applyEntries s used n cursor v = placeEntries v (decodeEntries s used n cursor) := by
  induction n with
  | zero => intro cursor v _ _; rfl
  | succ n ih =>
    intro cursor v hlen hpaths
    cases hdec : decodeEntry s cursor used with
    | error e =>
      simp only [decodeEntries, hdec, length_nil] at hlen
      omega
    | ok found =>
      obtain ⟨e, next⟩ := found
      simp only [decodeEntries, hdec, length_cons, Nat.add_right_cancel_iff] at hlen
      simp only [decodeEntries, hdec] at hpaths ⊢
      obtain ⟨hbelow, hvalid⟩ := hpaths e mem_cons_self
      have hutf := fromUtf8_of_isAscii (validAbsolutePath_isAscii hvalid)
      have hpre : userWritablePrefix.isPrefixOf e.path = true :=
        isPrefixOf_iff_prefix.mpr hbelow
      have htest : (userWritablePrefix.isPrefixOf e.path = false ∨ (v.find e.path).isSome)
          ↔ (v.find e.path).isSome := by simp [hpre]
      simp only [applyEntries, hdec, hutf, htest, placeEntries]
      split_ifs
      · rfl
      cases place v e.path e.kind e.data with
      | error error => rfl
      | ok v' => exact ih next v' hlen (fun d hd => hpaths d (mem_cons_of_mem _ hd))

/-- Placing at a free path is an insertion. -/
theorem place_fresh (hfresh : v.find path = none) (h : place v path kind data = .ok w) :
    ∃ hok : v.InsertOk path kind data,
      w = v.push (inserted path kind data hok.size) hok.room := by
  have hok : v.InsertOk path kind data := by
    cases kind with
    | file =>
      rcases v.insert_error_or_ok path .file data with ⟨e, he⟩ | hok
      · -- `write` on a free path either finds the bytes too long or inserts
        have hidx : v.findIndex path = none := (v.findIndex_eq_none_iff path).mpr hfresh
        simp only [place, write, hidx, he] at h
        split_ifs at h
      · exact hok
    | directory =>
      rcases v.insert_error_or_ok path .directory [] with ⟨e, he⟩ | hok
      · simp only [place, mkdir, he] at h
        exact absurd h (by simp)
      · exact ⟨by simp, hok.valid, hok.fresh, hok.parent, hok.room⟩
  refine ⟨hok, ?_⟩
  rw [place_of_ok hok, Except.ok.injEq] at h
  exact h.symm

theorem rawEntry_inserted (hvalid : validAbsolutePath e.path = true)
    (hdir : e.kind = .directory → e.data = [])
    (hsize : e.kind = .file → e.data.length ≤ maxFileBytes) :
    rawEntry (inserted e.path e.kind e.data hsize) = e := by
  have hpath := inserted_path hvalid e.kind e.data hsize
  obtain ⟨path, kind, data⟩ := e
  cases kind with
  | file => simp only [rawEntry, hpath]; rfl
  | directory =>
    have hd : data = [] := hdir rfl
    subst hd
    simp only [rawEntry, hpath]
    rfl

/-- A pass that succeeds appended the nodes of its entries, and every path was
free before it. -/
theorem placeEntries_inv (es : List Entry) : ∀ {v w : RamVfs},
    (∀ e ∈ es, e.kind = .directory → e.data = []) → placeEntries v es = .ok w →
    ∃ ns, w.nodes = v.nodes ++ ns ∧ ns.map rawEntry = es ∧ ∀ e ∈ es, v.find e.path = none := by
  induction es with
  | nil =>
    intro v w _ h
    rw [placeEntries, Except.ok.injEq] at h
    subst h
    exact ⟨[], by simp, rfl, by simp⟩
  | cons e es ih =>
    intro v w hdirs h
    rw [placeEntries] at h
    split_ifs at h with htaken
    have hfresh : v.find e.path = none := by simpa using htaken
    cases hplace : place v e.path e.kind e.data with
    | error error => simp only [hplace] at h; exact absurd h (by simp)
    | ok v' =>
      simp only [hplace] at h
      obtain ⟨hok, rfl⟩ := place_fresh hfresh hplace
      obtain ⟨ns, hnodes, hmap, hfree⟩ :=
        ih (fun d hd => hdirs d (mem_cons_of_mem _ hd)) h
      refine ⟨inserted e.path e.kind e.data hok.size :: ns, ?_, ?_, ?_⟩
      · rw [hnodes]
        simp [push]
      · rw [map_cons, hmap,
          rawEntry_inserted hok.valid (hdirs e mem_cons_self) hok.size]
      · intro d hd
        rcases mem_cons.mp hd with rfl | hd
        · exact hfresh
        -- free behind the new node, so free before it
        have hlater := (find_eq_none_iff _ _).mp (hfree d hd)
        refine (v.find_eq_none_iff _).mpr (fun n hn => hlater n ?_)
        exact mem_append_left _ hn

/-- The directory user files live under. -/
def HasUserRoot (base : RamVfs) : Prop :=
  ∃ d ∈ base.nodes, d.kind = .directory ∧ foldCase d.path.asStr = foldCase userRoot

/-- An admissible entry is an admissible node behind a base that leaves its
path free. -/
theorem nodeOk_of_entryOk (huser : HasUserRoot base) {prior : List VfsNode}
    (hfree : base.find n.path.asStr = none) (h : EntryOk (prior.map rawEntry) (rawEntry n)) : NodeOk (base.nodes ++ prior) n where
  valid := h.valid
  fresh := by
    intro m hm
    rcases mem_append.mp hm with hm | hm
    · exact (base.find_eq_none_iff _).mp hfree m hm
    · exact h.fresh (rawEntry m) (mem_map_of_mem hm)
  parent := by
    intro _
    rcases h.parent with hroot | ⟨p, hp, hd, hf⟩
    · obtain ⟨d, hd, hk, hf⟩ := huser
      have hparent : parentPath n.path.asStr = userRoot := hroot
      exact ⟨d, mem_append_left _ hd, hk, by rw [hf, hparent]⟩
    · obtain ⟨m, hm, rfl⟩ := mem_map.mp hp
      exact ⟨m, mem_append_right _ hm, hd, hf⟩
  dirEmpty := h.dirEmpty

/-- Admissible entries at free paths are placed one after the other. -/
theorem placeEntries_appends (huser : HasUserRoot base) (es : List Entry) :
    ∀ (v : RamVfs) (prior : List VfsNode), VfsInv v → v.nodes = base.nodes ++ prior →
      AllPrior EntryOk (prior.map rawEntry) es → (∀ e ∈ es, base.find e.path = none) →
      v.nodes.length + es.length ≤ maxNodes →
      ∃ w, placeEntries v es = .ok w ∧ VfsInv w := by
  induction es with
  | nil => intro v prior hi _ _ _ _; exact ⟨v, rfl, hi⟩
  | cons e es ih =>
    intro v prior hi hv hall hfree hroom
    obtain ⟨he, hes⟩ := hall
    rw [length_cons] at hroom
    obtain ⟨n, hn⟩ : ∃ n, n = inserted e.path e.kind e.data (fun _ => he.small) :=
      ⟨_, rfl⟩
    have hraw : rawEntry n = e := by
      rw [hn]
      exact rawEntry_inserted he.valid he.dirEmpty _
    have hok : NodeOk v.nodes n := by
      rw [hv]
      apply nodeOk_of_entryOk huser
      · rw [show n.path.asStr = e.path from congrArg Entry.path hraw]
        exact hfree e mem_cons_self
      · rw [hraw]
        exact he
    obtain ⟨hplace, hinv⟩ := place_node hi hok (by omega)
    have hfresh : v.find n.path.asStr = none := (v.find_eq_none_iff _).mpr hok.fresh
    obtain ⟨w, hw, hwi⟩ := ih (v.push n (by omega)) (prior ++ [n]) hinv
      (by simp [push, hv]) (by simpa [hraw] using hes)
      (fun d hd => hfree d (mem_cons_of_mem _ hd))
      (by simp only [push, length_append, length_singleton]; omega)
    refine ⟨w, ?_, hwi⟩
    have hparts : n.path.asStr = e.path ∧ n.kind = e.kind ∧ n.data = e.data := by
      rw [← hraw]
      exact ⟨rfl, rfl, rfl⟩
    rw [hparts.1, hparts.2.1, hparts.2.2] at hplace
    rw [hparts.1] at hfresh
    simp only [placeEntries, hfresh, hplace]
    exact hw

/-! ## §5. Mounting. -/

/-- What a base must offer for a run of entries. -/
structure Offers (base : RamVfs) (es : List Entry) : Prop where
  user : HasUserRoot base
  free : ∀ e ∈ es, base.find e.path = none
  room : base.nodes.length + es.length ≤ maxNodes

theorem mountedCandidate_eq (hi : VfsInv base) {generation : UInt64}
    (h : validateSnapshot s = .ok generation) :
    mountedCandidate base s = placeEntries base (snapshotEntries s) := by
  obtain ⟨hlen, hok, -⟩ := validateSnapshot_entries h
  rw [mountedCandidate, h]
  simp only [copyNodes_rebuilds hi]
  exact applyEntries_eq_place _ _ _ hlen (hok.forall (fun _ _ he => ⟨he.below, he.valid⟩))

/-- The first entry hangs below `/USER`, so a mount that succeeds found it. -/
theorem hasUserRoot_of_placed {es : List Entry} (hok : AllPrior EntryOk [] es) (hne : es ≠ [])
    (h : placeEntries base es = .ok w) : HasUserRoot base := by
  obtain ⟨e, es, rfl⟩ := exists_cons_of_ne_nil hne
  obtain ⟨he, -⟩ := hok
  rw [placeEntries] at h
  split_ifs at h with htaken
  have hfresh : base.find e.path = none := by simpa using htaken
  cases hplace : place base e.path e.kind e.data with
  | error error => simp only [hplace] at h; exact absurd h (by simp)
  | ok v =>
    obtain ⟨hins, -⟩ := place_fresh hfresh hplace
    have hroot : parentPath e.path = userRoot := by
      rcases he.parent with hroot | ⟨p, hp, -⟩
      · exact hroot
      · exact absurd hp not_mem_nil
    have hne : e.path ≠ rootPath := by
      intro hpath
      rw [hpath] at hroot
      exact absurd hroot (by decide)
    obtain ⟨d, hd, hk⟩ := hins.parent hne
    obtain ⟨hmem, hfold⟩ := find_some hd
    exact ⟨d, hmem, hk, by rw [hfold, hroot]⟩

/-- A valid slot mounts on exactly the bases that offer what it needs. -/
theorem placeEntries_ok_iff (hi : VfsInv base) {es : List Entry} (hok : AllPrior EntryOk [] es)
    (hne : es ≠ []) :
    (∃ w, placeEntries base es = .ok w) ↔ Offers base es := by
  constructor
  · rintro ⟨w, hw⟩
    obtain ⟨ns, hnodes, hmap, hfree⟩ :=
      placeEntries_inv es (hok.forall (fun _ _ he => he.dirEmpty)) hw
    refine ⟨hasUserRoot_of_placed hok hne hw, hfree, ?_⟩
    have hfits := w.fits
    rw [hnodes, length_append] at hfits
    rw [← hmap, length_map]
    exact hfits
  · intro h
    obtain ⟨w, hw, -⟩ := placeEntries_appends h.user es base [] hi (by simp) hok h.free h.room
    exact ⟨w, hw⟩

theorem applySnapshot_ok_iff :
    applySnapshot base s = (w, .ok ()) ↔ mountedCandidate base s = .ok w := by
  rw [applySnapshot]
  cases mountedCandidate base s <;> simp

/-- Whether a slot mounts. -/
theorem applySnapshot_mounts_iff (hi : VfsInv base) (s : Snapshot) :
    (∃ w, applySnapshot base s = (w, .ok ())) ↔
      (∃ generation, validateSnapshot s = .ok generation) ∧ Offers base (snapshotEntries s) := by
  cases hval : validateSnapshot s with
  | error e => simp [applySnapshot, mountedCandidate, hval]
  | ok generation =>
    obtain ⟨hlen, hok, hpos⟩ := validateSnapshot_entries hval
    have hne : snapshotEntries s ≠ [] := by
      rw [← length_pos_iff, hlen]
      exact hpos
    simp only [applySnapshot_ok_iff, mountedCandidate_eq hi hval, placeEntries_ok_iff hi hok hne]
    constructor
    · intro h
      exact ⟨⟨generation, rfl⟩, h⟩
    · rintro ⟨-, h⟩
      exact h

theorem place_reachable (hv : Reachable v) (h : place v path kind data = .ok w) : Reachable w := by
  unfold place at h
  cases kind with
  | file =>
    dsimp only at h
    split at h
    · rename_i v' hwrite
      rw [Except.ok.injEq] at h
      subst h
      have hstep := Reachable.step (.write path data) hv
      rwa [VfsOp.apply, hwrite] at hstep
    · exact absurd h (by simp)
  | directory =>
    dsimp only at h
    split at h
    · rename_i v' hmkdir
      rw [Except.ok.injEq] at h
      subst h
      have hstep := Reachable.step (.mkdir path) hv
      rwa [VfsOp.apply, hmkdir] at hstep
    · exact absurd h (by simp)

theorem placeEntries_reachable (es : List Entry) : ∀ {v w : RamVfs}, Reachable v →
    placeEntries v es = .ok w → Reachable w := by
  induction es with
  | nil =>
    intro v w hv h
    rw [placeEntries, Except.ok.injEq] at h
    exact h ▸ hv
  | cons e es ih =>
    intro v w hv h
    rw [placeEntries] at h
    split_ifs at h
    cases hplace : place v e.path e.kind e.data with
    | error error => simp only [hplace] at h; exact absurd h (by simp)
    | ok v' =>
      simp only [hplace] at h
      exact ih (place_reachable hv hplace) h

/-- What a mount leaves behind was made by the operations of the file system. -/
theorem applySnapshot_reachable (hbase : Reachable base) (h : applySnapshot base s = (w, .ok ())) : Reachable w := by
  rw [applySnapshot_ok_iff] at h
  cases hval : validateSnapshot s with
  | error e => simp [mountedCandidate, hval] at h
  | ok generation =>
    rw [mountedCandidate_eq (reachable_inv hbase) hval] at h
    exact placeEntries_reachable _ hbase h

/-- `find` of a path decides whether the base has the directory `/USER`. -/
theorem hasUserRoot_iff (hi : VfsInv base) :
    HasUserRoot base ↔ ∃ d, base.find userRoot = some d ∧ d.kind = .directory := by
  constructor
  · rintro ⟨d, hmem, hk, hfold⟩
    cases hfind : base.find userRoot with
    | none => exact absurd hfold ((base.find_eq_none_iff _).mp hfind d hmem)
    | some q =>
      obtain ⟨hq, hqf⟩ := find_some hfind
      exact ⟨q, rfl, by rw [hi.eq_of_fold hq hmem (hqf.trans hfold.symm)]; exact hk⟩
  · rintro ⟨d, hfind, hk⟩
    obtain ⟨hmem, hfold⟩ := find_some hfind
    exact ⟨d, hmem, hk, hfold⟩

end GenOS.Storage
