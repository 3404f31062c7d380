/-
  GenOS.Vfs.FileMap — the RAM file system as a finite map.

  The map is keyed by the case-folded path and holds the node stored under
  it: no array, no order, no buffer.  Its operations are what the calls of
  `vfs.rs` are for: look a path up, bind it, rebind it, unbind it.

  `perform_toMap` is the refinement: on a file system with the structural
  invariant every call acts on `toMap` as the map operation and gives the
  same reply.  Together with the view of the arrays this relates whole runs
  (`VfsRun`), with `copy_from` and `seed_file` among their steps.
-/
import GenOS.Vfs.RawVfs
import Mathlib.Data.Finmap

namespace GenOS.Vfs

open GenOS.Lib Finmap

/-! ## §1. The map and its operations. -/

/-- Nodes by case-folded path. -/
abbrev FileMap := Finmap fun _ : Bytes => VfsNode

variable {n : VfsNode} {path data : Bytes} {v : RawVfs} {i : Nat}

namespace FileMap

variable (m : FileMap)

/-- The node a path names. -/
def named (path : Bytes) : Option VfsNode := m.lookup (foldCase path)

/-- Bind a node to its own path. -/
def bind (n : VfsNode) : FileMap := m.insert (foldCase n.path.asStr) n

/-- `n` is in `directory`. -/
def IsChild (directory : Bytes) (n : VfsNode) : Prop :=
  m.named n.path.asStr = some n ∧ n.path.asStr ≠ rootPath
    ∧ foldCase (parentPath n.path.asStr) = foldCase directory

/-- A new node needs a parent that is a directory. -/
def parentOk (path : Bytes) : Except VfsError Unit :=
  if path = rootPath then .ok ()
  else
    match m.named (parentPath path) with
    | none => .error .notFound
    | some p => if p.kind = .directory then .ok () else .error .notDirectory

/-- Bind a new path. -/
def create (path : Bytes) (kind : NodeKind) (data : Bytes) : FileMap × Except VfsError Unit :=
  if hs : kind = .file ∧ maxFileBytes < data.length then (m, .error .noSpace)
  else if validAbsolutePath path = false then (m, .error .invalidPath)
  else if (m.named path).isSome then (m, .error .alreadyExists)
  else
    match m.parentOk path with
    | .error e => (m, .error e)
    | .ok () =>
      if m.keys.card < maxNodes then
        (m.bind (RamVfs.inserted path kind data
          fun hk => Nat.le_of_not_lt fun hl => hs ⟨hk, hl⟩), .ok ())
      else (m, .error .noSpace)

/-- Rebind a file to the bytes `f` makes of its old ones. -/
def update (path : Bytes) (f : Bytes → Except VfsError Bytes) :
    FileMap × Except VfsError Unit :=
  match m.named path with
  | none => (m, .error .notFound)
  | some n =>
    if n.kind = .directory then (m, .error .isDirectory)
    else
      match f n.data with
      | .error e => (m, .error e)
      | .ok data =>
        if h : data.length ≤ maxFileBytes then
          (m.bind { n with data := data, fits := h }, .ok ())
        else (m, .error .noSpace)

/-- Put `data` over the old bytes from `offset` on. -/
def overwrite (offset : Nat) (data old : Bytes) : Except VfsError Bytes :=
  if old.length < offset then .error .invalidOffset
  else .ok (RamVfs.overlay old offset data)

open Classical in
/-- Unbind a path that is not the root and has no children. -/
noncomputable def unbind (path : Bytes) : FileMap × Except VfsError Unit :=
  match m.named path with
  | none => (m, .error .notFound)
  | some n =>
    if path = rootPath then (m, .error .invalidPath)
    else if n.kind = .directory ∧ ∃ c, m.IsChild path c then (m, .error .notEmpty)
    else (m.erase (foldCase path), .ok ())

/-- What each call does to the map, with its reply. -/
noncomputable def perform : VfsOp → FileMap × Reply
  | .mkdir path => (m.create path .directory []).map id (·.map fun _ => none)
  | .touch path =>
    if (m.named path).isSome then (m, .ok none)
    else (m.create path .file []).map id (·.map fun _ => none)
  | .write path data =>
    if maxFileBytes < data.length then (m, .error .noSpace)
    else if (m.named path).isSome then
      (m.update path fun _ => .ok data).map id (·.map fun _ => none)
    else (m.create path .file data).map id (·.map fun _ => none)
  | .append path data =>
    if maxFileBytes < data.length then (m, .error .noSpace)
    else if (m.named path).isSome then
      (m.update path fun old => .ok (old ++ data)).map id (·.map fun _ => none)
    else (m.create path .file data).map id (·.map fun _ => none)
  | .writeAt path offset data =>
    (m.update path (overwrite offset data)).map id (·.map fun _ => some data.length)
  | .truncate path => (m.update path fun _ => .ok []).map id (·.map fun _ => none)
  | .remove path => (m.unbind path).map id (·.map fun _ => none)

/-- What `read` returns. -/
def read (path : Bytes) : Except VfsError Bytes :=
  match m.named path with
  | none => .error .notFound
  | some n => if n.kind = .directory then .error .isDirectory else .ok n.data

/-- What `read_dir_at` returns over all cursors: an enumeration of the
children without repetition. -/
def Lists (directory : Bytes) (answer : Nat → Except VfsError (Option VfsNode)) : Prop :=
  match m.named directory with
  | none => ∀ cursor, answer cursor = .error .notFound
  | some d =>
    if d.kind = .directory then
      ∃ children : List VfsNode, children.Nodup ∧ (∀ n, n ∈ children ↔ m.IsChild directory n)
        ∧ ∀ cursor, answer cursor = .ok children[cursor]?
    else ∀ cursor, answer cursor = .error .notDirectory

/-! ## §2. Files that stay. -/

/-- `path` names a file. -/
def HasFile (path : Bytes) : Prop := ∃ n, m.named path = some n ∧ n.kind = .file

theorem named_bind_self (n : VfsNode) : (m.bind n).named n.path.asStr = some n :=
  lookup_insert _

theorem named_bind_of_ne (h : foldCase path ≠ foldCase n.path.asStr) : (m.bind n).named path = m.named path :=
  lookup_insert_of_ne _ h

variable {m}

section

variable (h : m.HasFile path)

include h

theorem HasFile.create (path' : Bytes) (kind : NodeKind) (data : Bytes) :
    (m.create path' kind data).1.HasFile path := by
  unfold FileMap.create
  split
  · exact h
  split
  · exact h
  rename_i hv
  split
  · exact h
  rename_i hnew
  split
  · exact h
  split
  · obtain ⟨n, hn, hk⟩ := h
    refine ⟨n, ?_, hk⟩
    rw [named_bind_of_ne, hn]
    -- the new path was not bound, the file's path was
    rw [RamVfs.inserted_path (by simpa using hv)]
    intro heq
    rw [named, ← heq] at hnew
    exact hnew (by rw [show m.lookup (foldCase path) = some n from hn]; rfl)
  · exact h

theorem HasFile.update (path' : Bytes) (f : Bytes → Except VfsError Bytes) :
    (m.update path' f).1.HasFile path := by
  unfold FileMap.update
  split
  · exact h
  rename_i n' hn'
  split
  · exact h
  rename_i hfile
  split
  · exact h
  split
  · rename_i data _ hd
    obtain ⟨n, hn, hk⟩ := h
    by_cases heq : foldCase path = foldCase n'.path.asStr
    · refine ⟨{ n' with data := data, fits := hd }, ?_, ?_⟩
      · rw [named, heq]
        exact named_bind_self m { n' with data := data, fits := hd }
      · show n'.kind = .file
        cases hkind : n'.kind with
        | file => rfl
        | directory => exact absurd hkind hfile
    · have hsame := named_bind_of_ne m (n := { n' with data := data, fits := hd }) heq
      exact ⟨n, hsame.trans hn, hk⟩
  · exact h

theorem HasFile.unbind {path' : Bytes} (hne : foldCase path ≠ foldCase path') :
    (m.unbind path').1.HasFile path := by
  unfold FileMap.unbind
  split
  · exact h
  split
  · exact h
  split
  · exact h
  obtain ⟨n, hn, hk⟩ := h
  refine ⟨n, ?_, hk⟩
  rw [named, lookup_erase_ne hne]
  exact hn

/-- **A file stays a file until its path is removed.** -/
theorem HasFile.perform (op : VfsOp)
    (hop : ∀ path', op = .remove path' → foldCase path ≠ foldCase path') :
    (m.perform op).1.HasFile path := by
  cases op with
  | mkdir path' => exact h.create path' .directory []
  | touch path' =>
    rw [FileMap.perform]
    split
    · exact h
    · exact h.create path' .file []
  | write path' data =>
    rw [FileMap.perform]
    split
    · exact h
    split
    · exact h.update path' fun _ => .ok data
    · exact h.create path' .file data
  | append path' data =>
    rw [FileMap.perform]
    split
    · exact h
    split
    · exact h.update path' fun old => .ok (old ++ data)
    · exact h.create path' .file data
  | writeAt path' offset data => exact h.update path' (overwrite offset data)
  | truncate path' => exact h.update path' fun _ => .ok []
  | remove path' => exact h.unbind (hop path' rfl)

/-- A bound file can be written whatever else the map holds. -/
theorem HasFile.write (hd : data.length ≤ maxFileBytes) :
    (m.perform (.write path data)).2 = .ok none := by
  obtain ⟨n, hn, hk⟩ := h
  rw [FileMap.perform, if_neg (Nat.not_lt_of_le hd), if_pos (by rw [hn]; rfl)]
  simp only [FileMap.update, hn, hk, reduceCtorEq, if_false, dif_pos hd]
  rfl

end

theorem hasFile_of_create (h : (m.create path .file data).2 = .ok ()) :
    (m.create path .file data).1.HasFile path := by
  unfold FileMap.create at h ⊢
  split at h
  · cases h
  rename_i hs
  split at h
  · cases h
  rename_i hv
  split at h
  · cases h
  rename_i hnew
  rw [dif_neg hs, if_neg hv, if_neg hnew]
  cases hpar : m.parentOk path with
  | error e =>
    rw [hpar] at h
    cases h
  | ok u =>
    rw [hpar] at h
    dsimp only at h ⊢
    split at h
    · rename_i hroom
      rw [if_pos hroom]
      have hvalid : validAbsolutePath path = true := by simpa using hv
      have hpath := RamVfs.inserted_path hvalid .file data
        fun hk => Nat.le_of_not_lt fun hl => hs ⟨hk, hl⟩
      have hself := named_bind_self m (RamVfs.inserted path .file data
        fun hk => Nat.le_of_not_lt fun hl => hs ⟨hk, hl⟩)
      rw [hpath] at hself
      exact ⟨_, hself, rfl⟩
    · cases h

/-- A write that succeeds leaves a file. -/
theorem hasFile_of_write (h : (m.perform (.write path data)).2 = .ok none) :
    (m.perform (.write path data)).1.HasFile path := by
  rw [FileMap.perform] at h ⊢
  split at h
  · cases h
  rename_i hd
  rw [if_neg hd]
  split at h
  · rename_i hsome
    rw [if_pos hsome]
    obtain ⟨n, hn⟩ := Option.isSome_iff_exists.mp hsome
    refine .update ⟨n, hn, ?_⟩ path fun _ => .ok data
    cases hk : n.kind with
    | file => rfl
    | directory =>
      rw [FileMap.update, hn] at h
      simp only [hk, if_true] at h
      cases h
  · rename_i hnone
    rw [if_neg hnone]
    refine hasFile_of_create ?_
    cases hc : (m.create path .file data).2 with
    | ok u => rfl
    | error e =>
      rw [Prod.map_snd, hc] at h
      cases h

end FileMap

/-! ## §3. The map of a file system. -/

namespace RamVfs

/-- The nodes by path. -/
def toMap (v : RamVfs) : FileMap :=
  (v.nodes.map fun n => (⟨foldCase n.path.asStr, n⟩ : Sigma fun _ : Bytes => VfsNode)).toFinmap

theorem toMap_lookup (v : RamVfs) (k : Bytes) :
    v.toMap.lookup k = v.nodes.find? (fun n => foldCase n.path.asStr = k) := by
  rw [toMap, dlookup_list_toFinmap]
  induction v.nodes with
  | nil => rfl
  | cons n rest ih =>
    by_cases hk : foldCase n.path.asStr = k
    · subst hk
      simp
    · rw [List.map_cons, List.dlookup_cons_ne _ _ (Ne.symm hk), ih]
      simp [hk]

theorem toMap_named (v : RamVfs) (path : Bytes) : v.toMap.named path = v.find path := by
  rw [FileMap.named, toMap_lookup, find]
  congr 1
  funext n
  rw [Bool.eq_iff_iff, decide_eq_true_eq, eqIgnoreAsciiCase_iff]

theorem toMap_keys (v : RamVfs) :
    v.toMap.keys = (v.nodes.map fun n => foldCase n.path.asStr).toFinset := by
  ext k
  rw [mem_keys, ← lookup_isSome, toMap_lookup, List.find?_isSome, List.mem_toFinset]
  simp

/-- Distinct paths are as many as nodes. -/
theorem toMap_card {v : RamVfs} (h : VfsInv v) : v.toMap.keys.card = v.nodes.length := by
  rw [toMap_keys, List.toFinset_card_of_nodup h.nodup, List.length_map]

/-- Appending a node with a new path binds it. -/
theorem toMap_push {v : RamVfs} (h : v.nodes.length < maxNodes)
    (hfresh : v.find n.path.asStr = none) : (v.push n h).toMap = v.toMap.bind n := by
  apply ext_lookup
  intro k
  rw [toMap_lookup, FileMap.bind]
  show (v.nodes ++ [n]).find? _ = _
  rw [List.find?_append]
  by_cases hk : foldCase n.path.asStr = k
  · subst hk
    rw [lookup_insert, ← toMap_lookup]
    have hnone : v.toMap.lookup (foldCase n.path.asStr) = none := (toMap_named v _).trans hfresh
    rw [hnone]
    simp
  · rw [lookup_insert_of_ne _ (Ne.symm hk), toMap_lookup]
    simp [hk]

section Split

variable {v w : RamVfs} {pre post : List VfsNode} {n : VfsNode}

/-- Exchanging a node for another one with the same path rebinds it. -/
theorem toMap_exchange (hi : VfsInv v) (hv : v.nodes = pre ++ n :: post) {n' : VfsNode}
    (hw : w.nodes = pre ++ n' :: post) (hpath : n'.path = n.path) :
    w.toMap = v.toMap.bind n' := by
  apply ext_lookup
  intro k
  rw [toMap_lookup, FileMap.bind, hw, hpath, List.find?_append, List.find?_cons, hpath]
  by_cases hk : foldCase n.path.asStr = k
  · subst hk
    have hpre : pre.find? (fun x => foldCase x.path.asStr = foldCase n.path.asStr) = none := by
      simpa using (hi.unique hv).1
    rw [lookup_insert, hpre]
    simp
  · rw [lookup_insert_of_ne _ (Ne.symm hk), toMap_lookup, hv, List.find?_append,
      List.find?_cons, decide_eq_false hk]

/-- Taking a node out unbinds its path. -/
theorem toMap_erase (hi : VfsInv v) (hv : v.nodes = pre ++ n :: post)
    (hw : w.nodes = pre ++ post) : w.toMap = v.toMap.erase (foldCase n.path.asStr) := by
  apply ext_lookup
  intro k
  rw [toMap_lookup, hw, List.find?_append]
  by_cases hk : foldCase n.path.asStr = k
  · subst hk
    have hpre : pre.find? (fun x => foldCase x.path.asStr = foldCase n.path.asStr) = none := by
      simpa using (hi.unique hv).1
    have hpost : post.find? (fun x => foldCase x.path.asStr = foldCase n.path.asStr) = none := by
      simpa using (hi.unique hv).2
    rw [lookup_erase, hpre, hpost]
    rfl
  · rw [lookup_erase_ne (Ne.symm hk), toMap_lookup, hv, List.find?_append, List.find?_cons]
    simp [hk]

end Split

/-- An outcome as an outcome on the map. -/
def mapped {α : Type} (o : Outcome α) : FileMap × Except VfsError α := (o.1.toMap, o.2)

end RamVfs

/-! ## §4. Every operation acts on the map. -/

namespace VfsInv

open RamVfs

variable {v : RamVfs}

theorem parentOk_toMap (hv : validAbsolutePath path = true) :
    v.toMap.parentOk path = v.checkParent path := by
  rw [checkParent_eq v hv, FileMap.parentOk]
  cases hfind : v.find (parentPath path) with
  | none | some node => rw [toMap_named, hfind]

theorem update_missing (hnone : v.find path = none) (f : Bytes → Except VfsError Bytes) :
    v.toMap.update path f = (v.toMap, .error .notFound) := by
  rw [FileMap.update, toMap_named, hnone]

/-- Inserting acts on the map wherever the map has as many entries as the
list. -/
theorem insert_toMap (hcard : v.toMap.keys.card = v.nodes.length) (path : Bytes) (kind : NodeKind)
    (data : Bytes) :
    v.toMap.create path kind data = mapped (v.insert path kind data) := by
  by_cases hsize : kind = .file ∧ maxFileBytes < data.length
  · rw [FileMap.create, dif_pos hsize, RamVfs.insert, if_pos hsize]
    rfl
  by_cases hvalid : validAbsolutePath path = false
  · rw [FileMap.create, dif_neg hsize, if_pos hvalid, RamVfs.insert, if_neg hsize, if_pos hvalid]
    rfl
  by_cases hsome : (v.find path).isSome
  · rw [FileMap.create, dif_neg hsize, if_neg hvalid, toMap_named, if_pos hsome, RamVfs.insert,
      if_neg hsize, if_neg hvalid, if_pos hsome]
    rfl
  have hv : validAbsolutePath path = true := by simpa using hvalid
  rw [FileMap.create, dif_neg hsize, if_neg hvalid, toMap_named, if_neg hsome,
    parentOk_toMap hv, hcard]
  cases hpar : v.checkParent path with
  | error e =>
    rw [RamVfs.insert, if_neg hsize, if_neg hvalid, if_neg hsome, hpar]
    rfl
  | ok u =>
    by_cases hroom : v.nodes.length < maxNodes
    · have hok : v.InsertOk path kind data :=
        ⟨fun hk => Nat.le_of_not_lt fun hl => hsize ⟨hk, hl⟩, hv, by simpa using hsome,
          (checkParent_ok_iff v hv).mp hpar, hroom⟩
      have hfresh : v.find (inserted path kind data hok.size).path.asStr = none := by
        rw [inserted_path hv]
        exact hok.fresh
      simp only [if_pos hroom]
      rw [insert_of_ok hok, mapped, toMap_push hok.room hfresh]
    · simp only [if_neg hroom]
      rw [RamVfs.insert, if_neg hsize, if_neg hvalid, if_neg hsome, hpar]
      simp only [dif_neg hroom, mapped]

/-- On a missing path `append` creates the file with the bytes. -/
theorem append_missing (hnone : v.findIndex path = none) (hd : data.length ≤ maxFileBytes) : v.append path data = v.insert path .file data := by
  have hreply := v.insert_file_reply path hd
  rw [append, if_neg (Nat.not_lt_of_le hd), hnone]
  dsimp only
  rcases v.insert_error_or_ok path .file data with ⟨e, he⟩ | hok
  · rcases v.insert_error_or_ok path .file [] with ⟨e', he'⟩ | hok'
    · rw [he, he'] at hreply
      rw [he, he', Except.error.inj hreply]
    · rw [he, insert_of_ok hok'] at hreply
      cases hreply
  · have hok' : v.InsertOk path .file [] :=
      ⟨fun _ => Nat.zero_le _, hok.valid, hok.fresh, hok.parent, hok.room⟩
    rw [insert_of_ok hok', insert_of_ok hok]
    dsimp only
    rw [findIndex_push hok']
    have hw : (v.push (inserted path .file [] hok'.size) hok'.room).nodes
        = v.nodes ++ inserted path .file [] hok'.size :: [] := rfl
    have hdata : (v.push (inserted path .file [] hok'.size) hok'.room).dataAt v.nodes.length
        = [] := by
      rw [dataAt, getElem?_of_split hw]
      rfl
    show appendAt _ v.nodes.length data = _
    rw [appendAt, isDirectoryAt_of_split hw, if_neg (by simp)]
    simp only [hdata, List.nil_append, dif_pos hd]
    refine Prod.ext (RamVfs.ext ?_) rfl
    exact setData_of_split hw hd

variable (hi : VfsInv v)

include hi

theorem find_of_mem (hn : n ∈ v.nodes) (hf : foldCase n.path.asStr = foldCase path) : v.find path = some n := by
  cases h : v.find path with
  | none => exact absurd hf ((find_eq_none_iff v path).mp h n hn)
  | some m =>
    obtain ⟨hm, hfm⟩ := find_some h
    rw [hi.eq_of_fold hm hn (hfm.trans hf.symm)]

theorem named_iff (n : VfsNode) : v.toMap.named n.path.asStr = some n ↔ n ∈ v.nodes := by
  rw [toMap_named]
  exact ⟨fun h => (find_some h).1, fun h => hi.find_of_mem h rfl⟩

theorem path_ne_nil (hn : n ∈ v.nodes) : n.path.asStr ≠ [] := by
  intro hnil
  have := hi.valid n hn
  rw [hnil] at this
  exact absurd this (by decide)

/-- The node at a found index is the node the path names. -/
theorem located (h : v.findIndex path = some i) :
    ∃ pre n post, v.nodes = pre ++ n :: post ∧ pre.length = i ∧ v.find path = some n
      ∧ foldCase n.path.asStr = foldCase path := by
  obtain ⟨pre, n, post, hv, hpre, hf⟩ := findIndex_some h
  exact ⟨pre, n, post, hv, hpre, hi.find_of_mem (by rw [hv]; simp) hf, hf⟩

/-- What `update` does when the path names a file. -/
theorem update_toMap (hloc : v.findIndex path = some i) (f : Bytes → Except VfsError Bytes) :
    v.toMap.update path f =
      if v.isDirectoryAt i then (v.toMap, .error .isDirectory)
      else
        match f (v.dataAt i) with
        | .error e => (v.toMap, .error e)
        | .ok data =>
          if h : data.length ≤ maxFileBytes then ((v.setData i data h).toMap, .ok ())
          else (v.toMap, .error .noSpace) := by
  obtain ⟨pre, n, post, hv, rfl, hfind, _⟩ := hi.located hloc
  have hdata : v.dataAt pre.length = n.data := by
    rw [dataAt, getElem?_of_split hv]
    rfl
  rw [FileMap.update, toMap_named, hfind, isDirectoryAt_of_split hv, hdata]
  simp only [beq_iff_eq]
  split
  · rfl
  cases f n.data with
  | error e => rfl
  | ok data =>
    by_cases h : data.length ≤ maxFileBytes
    · simp only [dif_pos h]
      rw [toMap_exchange hi hv (setData_of_split hv h) rfl]
    · simp only [dif_neg h]

/-- Emptying a file and storing new bytes is storing the new bytes. -/
theorem write_existing (hloc : v.findIndex path = some i) (hd : data.length ≤ maxFileBytes) :
    (v.setData i [] (Nat.zero_le _)).writeData i data = (v.setData i data hd, .ok ()) := by
  obtain ⟨pre, n, post, hv, rfl, _⟩ := hi.located hloc
  rw [writeData, dif_pos hd]
  refine Prod.ext (RamVfs.ext ?_) rfl
  rw [setData_of_split (setData_of_split hv _), setData_of_split hv]

theorem write_toMap (path data : Bytes) :
    (v.toMap.perform (.write path data))
      = (mapped (v.write path data)).map id (·.map fun _ => none) := by
  by_cases hd : maxFileBytes < data.length
  · rw [FileMap.perform, if_pos hd, write, if_pos hd]
    rfl
  rw [FileMap.perform, if_neg hd, write, if_neg hd, toMap_named]
  cases hloc : v.findIndex path with
  | none =>
    have hnone := (findIndex_eq_none_iff v path).mp hloc
    rw [hnone]
    exact congrArg (Prod.map id _) (insert_toMap (toMap_card hi) path .file data)
  | some i =>
    obtain ⟨pre, n, post, _, _, hfind, _⟩ := hi.located hloc
    rw [hfind, hi.update_toMap hloc]
    simp only [Option.isSome_some, if_true]
    split
    · rfl
    · rw [hi.write_existing hloc (Nat.le_of_not_lt hd), dif_pos (Nat.le_of_not_lt hd)]
      rfl

theorem append_toMap (path data : Bytes) :
    (v.toMap.perform (.append path data))
      = (mapped (v.append path data)).map id (·.map fun _ => none) := by
  by_cases hd : maxFileBytes < data.length
  · rw [FileMap.perform, if_pos hd, append, if_pos hd]
    rfl
  rw [FileMap.perform, if_neg hd, toMap_named]
  cases hloc : v.findIndex path with
  | none =>
    have hnone := (findIndex_eq_none_iff v path).mp hloc
    rw [hnone, append_missing hloc (Nat.le_of_not_lt hd)]
    exact congrArg (Prod.map id _) (insert_toMap (toMap_card hi) path .file data)
  | some i =>
    obtain ⟨pre, n, post, _, _, hfind, _⟩ := hi.located hloc
    rw [hfind, hi.update_toMap hloc, append, if_neg hd, hloc]
    simp only [Option.isSome_some, if_true, appendAt]
    split
    · rfl
    split
    · rfl
    · rfl

theorem writeAt_toMap (path : Bytes) (offset : Nat) (data : Bytes) :
    (v.toMap.perform (.writeAt path offset data))
      = (mapped (v.writeAt path offset data)).map id (·.map some) := by
  rw [FileMap.perform, writeAt]
  cases hloc : v.findIndex path with
  | none => rw [update_missing ((findIndex_eq_none_iff v path).mp hloc)]; rfl
  | some i =>
    rw [hi.update_toMap hloc, FileMap.overwrite]
    dsimp only
    split
    · rfl
    by_cases ho : (v.dataAt i).length < offset
    · rw [if_pos ho, if_pos ho]
      rfl
    rw [if_neg ho, if_neg ho]
    have hbound := v.dataAt_length i
    have hlen : (overlay (v.dataAt i) offset data).length ≤ maxFileBytes
        ↔ offset + data.length ≤ maxFileBytes := by
      simp only [overlay, List.length_append, List.length_take, List.length_drop]
      omega
    by_cases h : offset + data.length ≤ maxFileBytes
    · rw [dif_pos h]
      simp only [dif_pos (hlen.mpr h)]
      rfl
    · rw [dif_neg h]
      simp only [dif_neg (mt hlen.mp h)]
      rfl

theorem truncate_toMap (path : Bytes) :
    (v.toMap.perform (.truncate path))
      = (mapped (v.truncate path)).map id (·.map fun _ => none) := by
  rw [FileMap.perform, truncate]
  cases hloc : v.findIndex path with
  | none => rw [update_missing ((findIndex_eq_none_iff v path).mp hloc)]; rfl
  | some i =>
    rw [hi.update_toMap hloc]
    dsimp only
    split <;> rfl

/-- The children of a stored directory, as the scan of `remove` and the map
see them. -/
theorem isChild_iff {directory : Bytes} (hd : directory ≠ []) (n : VfsNode) :
    v.toMap.IsChild directory n ↔
      n ∈ v.nodes ∧ n.path.asStr ≠ rootPath ∧ directChild directory n.path.asStr = true := by
  rw [FileMap.IsChild, hi.named_iff]
  constructor
  · intro ⟨hn, hr, hp⟩
    exact ⟨hn, hr, (directChild_iff hd (hi.valid n hn) hr).mpr hp⟩
  · intro ⟨hn, hr, hp⟩
    exact ⟨hn, hr, (directChild_iff hd (hi.valid n hn) hr).mp hp⟩

omit hi in
/-- The root is nobody's direct child. -/
theorem directChild_root {directory : Bytes} (hd : directory ≠ []) (hr : directory ≠ rootPath) :
    directChild directory rootPath = false := by
  rw [← Bool.not_eq_true, directChild_below_iff hr]
  intro ⟨_, name, hdrop, _⟩
  have hlen : 0 < directory.length := List.length_pos_of_ne_nil hd
  have := congrArg List.length hdrop
  simp only [List.length_drop, List.length_cons, rootPath, ascii, List.map_cons, List.map_nil,
    List.length_nil] at this
  omega

theorem remove_toMap (path : Bytes) :
    (v.toMap.perform (.remove path))
      = (mapped (v.remove path)).map id (·.map fun _ => none) := by
  suffices h : v.toMap.unbind path = mapped (v.remove path) by
    exact congrArg (Prod.map id _) h
  unfold FileMap.unbind
  rw [toMap_named, remove]
  cases hloc : v.findIndex path with
  | none =>
    rw [(findIndex_eq_none_iff v path).mp hloc]
    rfl
  | some i =>
    obtain ⟨pre, n, post, hv, rfl, hfind, hf⟩ := hi.located hloc
    have hn : n ∈ v.nodes := (find_some hfind).1
    have hown : ((v.nodes[pre.length]?).map (fun n => n.path.asStr)).getD [] = n.path.asStr := by
      rw [getElem?_of_split hv]
      rfl
    rw [hfind]
    simp only [hown, isDirectoryAt_of_split hv]
    split
    · rfl
    rename_i hroot
    have hnroot : n.path.asStr ≠ rootPath := by
      intro h
      rw [h] at hf
      exact hroot (foldCase_eq_root hf.symm)
    -- the scan with the stored spelling finds what the map finds with the caller's
    have hchild : (∃ c, v.toMap.IsChild path c)
        ↔ v.nodes.any (fun c => directChild n.path.asStr c.path.asStr) = true := by
      have hsame : ∀ c, v.toMap.IsChild path c ↔ v.toMap.IsChild n.path.asStr c := by
        intro c
        rw [FileMap.IsChild, FileMap.IsChild, hf]
      simp only [hsame, hi.isChild_iff (hi.path_ne_nil hn), List.any_eq_true]
      constructor
      · rintro ⟨c, hc, _, hd⟩
        exact ⟨c, hc, hd⟩
      · rintro ⟨c, hc, hd⟩
        refine ⟨c, hc, fun hcr => ?_, hd⟩
        rw [hcr, directChild_root (hi.path_ne_nil hn) hnroot] at hd
        cases hd
    rw [hchild]
    by_cases hne : n.kind = .directory
        ∧ v.nodes.any (fun c => directChild n.path.asStr c.path.asStr) = true
    · rw [if_pos hne, if_pos (by simpa using hne)]
      rfl
    · rw [if_neg hne, if_neg (by simpa using hne)]
      refine Prod.ext ?_ rfl
      show v.toMap.erase (foldCase path) = _
      rw [← hf]
      refine (toMap_erase hi hv ?_).symm
      show v.nodes.eraseIdx pre.length = pre ++ post
      simp [hv, List.eraseIdx_append]

/-- **Every call acts on the map as the map operation.** -/
theorem perform_toMap (op : VfsOp) :
    v.toMap.perform op = ((v.perform op).1.toMap, (v.perform op).2) := by
  cases op with
  | mkdir path => exact congrArg (Prod.map id _) (insert_toMap (toMap_card hi) path .directory [])
  | touch path =>
    rw [FileMap.perform, toMap_named, perform, touch]
    split
    · rfl
    · exact congrArg (Prod.map id _) (insert_toMap (toMap_card hi) path .file [])
  | write path data => exact hi.write_toMap path data
  | append path data => exact hi.append_toMap path data
  | writeAt path offset data => exact hi.writeAt_toMap path offset data
  | truncate path => exact hi.truncate_toMap path
  | remove path => exact hi.remove_toMap path

end VfsInv

/-! ## §5. What the reading calls see. -/

namespace RawVfs

/-- The map of an array state. -/
def toMap (v : RawVfs) : FileMap := v.view.toMap

theorem find_toMap (v : RawVfs) (path : Bytes) :
    (v.find path).map RawNode.view = v.toMap.named path := by
  rw [toMap, RamVfs.toMap_named, view_find]

theorem read_toMap (v : RawVfs) (path : Bytes) : v.read path = v.toMap.read path := by
  rw [read, FileMap.read, ← find_toMap]
  cases v.find path <;> rfl

/-- The nodes the loop of `read_dir_at` counts. -/
def listed (directory : Bytes) (n : RawNode) : Bool :=
  !(decide (n.path.asStr = rootPath) || !directChild directory n.path.asStr)

/-- The loop finds the node with the wanted ordinal. -/
theorem readDirLoop_eq (directory : Bytes) {cursor ordinal : Nat} (h : ordinal ≤ cursor)
    (nodes : List RawNode) :
    readDirLoop directory cursor ordinal nodes
      = (nodes.filter (listed directory))[cursor - ordinal]? := by
  induction nodes generalizing ordinal with
  | nil => rfl
  | cons n rest ih =>
    rw [readDirLoop]
    by_cases hskip : n.path.asStr = rootPath ∨ directChild directory n.path.asStr = false
    · rw [if_pos hskip, ih h, List.filter_cons_of_neg]
      simpa [listed] using fun h => hskip.resolve_left h
    · have hkeep : listed directory n = true := by simpa [listed] using hskip
      rw [if_neg hskip, List.filter_cons_of_pos hkeep]
      by_cases heq : ordinal = cursor
      · rw [if_pos heq, heq, Nat.sub_self]
        rfl
      · rw [if_neg heq, ih (by omega), show cursor - ordinal = (cursor - (ordinal + 1)) + 1 by omega]
        rfl

/-- The nodes whose parent is the directory, in the order of the array. -/
def children (v : RawVfs) (directory : Bytes) : List RawNode :=
  v.live.filter fun n => decide (n.path.asStr ≠ rootPath
    ∧ foldCase (parentPath n.path.asStr) = foldCase directory)

/-- On a directory `read_dir_at` is the list of its children. -/
theorem readDirAt_children (hi : VfsInv v.view) {directory : Bytes} {d : RawNode}
    (hd : v.find directory = some d) (hk : d.kind = .directory) (cursor : Nat) :
    v.readDirAt directory cursor = .ok (v.children directory)[cursor]? := by
  have hview : v.view.find directory = some d.view := by rw [view_find, hd]; rfl
  obtain ⟨hmem, hf⟩ := RamVfs.find_some hview
  have hne : directory ≠ [] := by
    intro hnil
    rw [hnil] at hf
    exact hi.path_ne_nil hmem (List.map_eq_nil_iff.mp hf)
  have hlisted : v.live.filter (listed directory) = v.children directory := by
    refine List.filter_congr fun n hn => ?_
    have hvalid := hi.valid n.view (List.mem_map_of_mem hn)
    by_cases hroot : n.path.asStr = rootPath
    · simp [listed, hroot]
    have hchild := directChild_iff hne hvalid hroot
    simp only [listed, hroot, decide_false, Bool.false_or, Bool.not_not, ne_eq, not_false_eq_true,
      true_and]
    exact Bool.eq_iff_iff.mpr (hchild.trans decide_eq_true_iff.symm)
  rw [readDirAt, hd]
  simp only [hk, ne_eq, not_true_eq_false, if_false]
  rw [readDirLoop_eq directory (Nat.zero_le cursor), hlisted]
  rfl

theorem children_nodup (hi : VfsInv v.view) (directory : Bytes) :
    ((v.children directory).map RawNode.view).Nodup := by
  have hnodes : v.view.nodes.Nodup := List.Nodup.of_map _ hi.nodup
  exact hnodes.sublist (List.filter_sublist.map RawNode.view)

/-- Over all cursors `read_dir_at` enumerates the children of a directory. -/
theorem readDirAt_toMap (hi : VfsInv v.view) (directory : Bytes) :
    v.toMap.Lists directory fun cursor => (v.readDirAt directory cursor).map (·.map RawNode.view) := by
  rw [FileMap.Lists, ← find_toMap]
  cases hd : v.find directory with
  | none =>
    intro cursor
    rw [readDirAt, hd]
    rfl
  | some d =>
    dsimp only [Option.map_some]
    by_cases hk : d.kind = .directory
    · rw [if_pos (show d.view.kind = .directory from hk)]
      refine ⟨(v.children directory).map RawNode.view, children_nodup hi directory, ?_, ?_⟩
      · intro n
        rw [toMap, FileMap.IsChild, hi.named_iff, List.mem_map]
        show _ ↔ n ∈ v.live.map RawNode.view ∧ _
        rw [List.mem_map]
        constructor
        · intro ⟨r, hr, hrn⟩
          obtain ⟨hlive, hchild⟩ := List.mem_filter.mp hr
          rw [← hrn]
          exact ⟨⟨r, hlive, rfl⟩, of_decide_eq_true hchild⟩
        · intro ⟨⟨r, hlive, hrn⟩, hchild⟩
          rw [← hrn] at hchild
          exact ⟨r, List.mem_filter.mpr ⟨hlive, decide_eq_true hchild⟩, hrn⟩
      · intro cursor
        rw [readDirAt_children hi hd hk, List.getElem?_map]
        rfl
    · rw [if_neg (show ¬ d.view.kind = .directory from hk)]
      intro cursor
      rw [readDirAt, hd]
      simp only [ne_eq, hk, not_false_eq_true, if_true]
      rfl

end RawVfs

open RawVfs

/-! ## §6. Runs. -/

/-- An array state together with the map the same calls produce: calls with
any arguments, `seed_file` where it does not halt, and `copy_from` another
file system with a history of its own. -/
inductive VfsRun : RawVfs → FileMap → Prop
  | init : VfsRun RawVfs.initialised
      ((∅ : FileMap).perform (.mkdir rootPath)).1
  | call {v : RawVfs} {m : FileMap} (op : VfsOp) : VfsRun v m →
      VfsRun (v.perform op).1 (m.perform op).1
  | seed {v w : RawVfs} {m : FileMap} (name data : Bytes) : VfsRun v m →
      v.seedFile name data = some w →
      VfsRun w (m.perform (.write ((FixedText.fromStr rootPath).pushStr name).asStr data)).1
  | copy {v w : RawVfs} {m k : FileMap} : VfsRun v m → VfsRun w k → VfsRun (v.copyFrom w) k

namespace VfsRun

theorem seedFile_eq {w : RawVfs} {name : Bytes} (h : v.seedFile name data = some w) :
    w = (v.perform (.write ((FixedText.fromStr rootPath).pushStr name).asStr data)).1 := by
  rw [seedFile] at h
  rw [perform]
  match hw : v.write ((FixedText.fromStr rootPath).pushStr name).asStr data, h with
  | (w', .ok ()), h => exact (Option.some.inj h).symm

/-- One call keeps the invariant and the correspondence. -/
theorem step (hi : VfsInv v.view) (op : VfsOp) :
    VfsInv (v.perform op).1.view ∧ (v.toMap.perform op).1 = (v.perform op).1.toMap := by
  have hview := v.perform_view op
  have hfst : (v.view.perform op).1 = (v.perform op).1.view := congrArg Prod.fst hview
  constructor
  · rw [← hfst, RamVfs.perform_fst]
    exact hi.apply op
  · rw [toMap, hi.perform_toMap op, toMap, hfst]

/-- **Along every run the arrays satisfy the structural invariant and hold
exactly the map.** -/
theorem sound {m : FileMap} (h : VfsRun v m) : VfsInv v.view ∧ m = v.toMap := by
  induction h with
  | init =>
    have hview : initialised.view = RamVfs.initialised :=
      (congrArg Prod.fst (insert_view new rootPath .directory [])).symm
    refine ⟨by rw [hview]; exact .initialised, ?_⟩
    have hnew : RamVfs.new.toMap = ∅ := rfl
    have hmap := VfsInv.insert_toMap (v := RamVfs.new) rfl rootPath .directory []
    rw [hnew] at hmap
    rw [toMap, hview]
    exact congrArg Prod.fst hmap
  | call op _ ih =>
    obtain ⟨hi, rfl⟩ := ih
    exact step hi op
  | seed name data _ hs ih =>
    obtain ⟨hi, rfl⟩ := ih
    rw [seedFile_eq hs]
    exact step hi _
  | copy _ _ _ ih => exact ih

end VfsRun

/-! ## §7. The structure and the model. -/

/-- The directory tree in the arrays. -/
structure VfsTree (v : RawVfs) : Prop where
  valid : ∀ n ∈ v.live, validAbsolutePath n.path.asStr = true
  unique : (v.live.map fun n => foldCase n.path.asStr).Nodup
  parent : ∀ (i : Nat) (n : RawNode), v.live[i]? = some n → n.path.asStr ≠ rootPath →
    ∃ (j : Nat) (p : RawNode), j < i ∧ v.live[j]? = some p ∧ p.kind = .directory
      ∧ foldCase p.path.asStr = foldCase (parentPath n.path.asStr)
  count : v.live.length ≤ 32
  sizes : ∀ n ∈ v.live, n.bytes.length ≤ 512

/-- The reading calls answer from the map and the next call does to it what
the map operation says. -/
structure VfsAgrees (v : RawVfs) (m : FileMap) : Prop where
  find : ∀ path, (v.find path).map RawNode.view = m.named path
  read : ∀ path, v.read path = m.read path
  readDirAt : ∀ directory, m.Lists directory fun cursor =>
    (v.readDirAt directory cursor).map (·.map RawNode.view)
  reply : ∀ op, (v.perform op).2 = (m.perform op).2

theorem VfsInv.tree (hi : VfsInv v.view) : VfsTree v where
  valid := by
    intro n hn
    exact hi.valid n.view (List.mem_map_of_mem hn)
  unique := by
    have hnodup := hi.nodup
    rw [view, List.map_map] at hnodup
    exact hnodup
  parent := by
    intro i n hn hr
    have hview : v.view.nodes[i]? = some n.view := by
      rw [view, List.getElem?_map, hn]
      rfl
    -- the node was admissible after the nodes in front of it
    obtain ⟨hlt, hget⟩ := List.getElem?_eq_some_iff.mp hview
    have hsplit : v.view.nodes = v.view.nodes.take i ++ n.view :: v.view.nodes.drop (i + 1) := by
      rw [← hget, ← List.drop_eq_getElem_cons hlt, List.take_append_drop]
    have hall := hi.nodes
    rw [hsplit] at hall
    obtain ⟨p, hp, hk, hf⟩ := hall.at_split.parent hr
    rw [List.nil_append] at hp
    obtain ⟨j, hj⟩ := List.getElem?_of_mem hp
    have hji : j < i := by
      have := (List.getElem?_eq_some_iff.mp hj).1
      rw [List.length_take] at this
      omega
    rw [List.getElem?_take_of_lt hji, view, List.getElem?_map, Option.map_eq_some_iff] at hj
    obtain ⟨r, hr', hrp⟩ := hj
    subst hrp
    exact ⟨j, r, hji, hr', hk, hf⟩
  count := by
    rw [live_length]
    exact v.fits
  sizes := by
    intro n _
    rw [n.bytes_length]
    exact n.fits

theorem VfsInv.agrees (hi : VfsInv v.view) : VfsAgrees v v.toMap where
  find := v.find_toMap
  read := v.read_toMap
  readDirAt := readDirAt_toMap hi
  reply := by
    intro op
    rw [toMap, hi.perform_toMap op, v.perform_view op]

/-- **The RAM file system is a tree that implements a finite map.**  After
any calls from an initialised root the structure holds, the reading calls
and every reply agree with the map of the same calls, and a call that
returns an error changes nothing. -/
theorem vfs_implements_fileMap {v : RawVfs} {m : FileMap} (h : VfsRun v m) :
    VfsTree v ∧ VfsAgrees v m ∧ ∀ op e, (v.perform op).2 = .error e → (v.perform op).1 = v := by
  obtain ⟨hi, rfl⟩ := h.sound
  exact ⟨hi.tree, hi.agrees, fun op e he => v.perform_error op e he⟩

/-- A file written, truncated and appended to shows only the new byte. -/
theorem vfs_implements_fileMap_truncate :
    let file := ascii ['/', 'A']
    let v := (((RawVfs.initialised.perform (.write file [1, 2, 3])).1.perform
      (.truncate file)).1.perform (.append file [9])).1
    v.read file = .ok [9] ∧ VfsTree v := by
  intro file v
  exact ⟨by decide +kernel, (vfs_implements_fileMap
    (((VfsRun.init.call (.write file [1, 2, 3])).call (.truncate file)).call
      (.append file [9]))).1⟩

/-! ## §8. Calls on other paths. -/

/-- The path of a call. -/
def VfsOp.target : VfsOp → Bytes
  | .mkdir path | .touch path | .write path _ | .append path _ | .writeAt path _ _
  | .truncate path | .remove path => path

namespace FileMap

variable {m : FileMap} {path' : Bytes}

theorem named_create_of_ne (hne : foldCase path ≠ foldCase path') (kind : NodeKind) (data : Bytes) :
    (m.create path' kind data).1.named path = m.named path := by
  unfold create
  split_ifs with _ hv
  iterate 3 rfl
  all_goals cases m.parentOk path' with
    | error e => rfl
    | ok => first | rfl | exact named_bind_of_ne m (by rwa [RamVfs.inserted_path (by simpa using hv)])

theorem named_update_of_ne (f : Bytes → Except VfsError Bytes)
    (hne : ∀ n, m.named path' = some n → foldCase path ≠ foldCase n.path.asStr) :
    (m.update path' f).1.named path = m.named path := by
  unfold update
  repeat' split
  all_goals first | rfl | exact named_bind_of_ne m (hne _ ‹m.named path' = some _› :)

theorem named_unbind_of_ne (hne : foldCase path ≠ foldCase path') :
    (m.unbind path').1.named path = m.named path := by
  unfold unbind
  repeat' split
  all_goals first | rfl | exact lookup_erase_ne hne

/-- A call binds or unbinds its own path. -/
theorem named_perform_of_ne {op : VfsOp} (hne : foldCase path ≠ foldCase op.target)
    (hown : ∀ n, m.named op.target = some n → foldCase path ≠ foldCase n.path.asStr) :
    (m.perform op).1.named path = m.named path := by
  cases op <;> rw [perform] <;> (repeat' split) <;> simp only [Prod.map_fst, id_eq]
  all_goals first
    | exact named_create_of_ne hne ..
    | exact named_update_of_ne _ hown
    | exact named_unbind_of_ne hne

end FileMap

/-- **Calls on other paths do not change what a path reads.** -/
theorem read_of_other_paths {m : FileMap} (h : VfsRun v m) (path : Bytes) (ops : List VfsOp)
    (hops : ∀ op ∈ ops, foldCase path ≠ foldCase op.target) :
    (ops.foldl (fun v op => (v.perform op).1) v).read path = v.read path := by
  induction ops generalizing v m with
  | nil => rfl
  | cons op ops ih =>
    obtain ⟨hi, rfl⟩ := h.sound
    have hne := hops op (.head _)
    have hsame := FileMap.named_perform_of_ne (m := v.toMap) hne fun n hn => by
      -- a node is bound to its own path
      rwa [(RamVfs.find_some ((v.view.toMap_named op.target).symm.trans hn)).2]
    rw [List.foldl_cons, ih (h.call op) fun op' hop' => hops op' (.tail _ hop'), read_toMap,
      read_toMap, ← (VfsRun.step hi op).2, FileMap.read, FileMap.read, hsame]

theorem read_of_other_paths_removed :
    let v := (RawVfs.initialised.perform (.write (ascii ['/', 'A']) [7])).1
    let w := (v.perform (.write (ascii ['/', 'B']) [8])).1
    (w.perform (.remove (ascii ['/', 'b']))).1.read (ascii ['/', 'a']) = .ok [7] := by
  intro v w
  exact (read_of_other_paths (VfsRun.init.call _) _ [.write _ _, .remove _] (by decide)).trans
    (by decide +kernel)

end GenOS.Vfs
