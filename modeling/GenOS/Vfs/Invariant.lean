/-
  GenOS.Vfs.Invariant — what every reachable RAM file system looks like.

  `Change` lists the three ways a mutating operation alters the node list:
  a node is appended, the bytes of a file are replaced, or a node without
  children is taken out.  Every operation is a (possibly empty) sequence of
  changes (`apply_changes`), so an invariant only has to survive the three
  constructors (`VfsInv.change`).
-/
import GenOS.Vfs.RamVfs
import GenOS.Lib.Prior
import Mathlib.Logic.Relation
import Mathlib.Data.List.Nodup

namespace GenOS.Vfs

open GenOS.Lib List

/-! ## §1. Lookups. -/

variable {v w : RamVfs} {path data : Bytes} {n : VfsNode} {i : Nat} {kind : NodeKind}
  {pre post : List VfsNode}

namespace RamVfs

theorem find_some (h : v.find path = some n) :
    n ∈ v.nodes ∧ foldCase n.path.asStr = foldCase path := by
  refine ⟨mem_of_find?_eq_some h, ?_⟩
  have := find?_some h
  exact (eqIgnoreAsciiCase_iff _ _).mp this

theorem find_eq_none_iff (v : RamVfs) (path : Bytes) :
    v.find path = none ↔ ∀ n ∈ v.nodes, foldCase n.path.asStr ≠ foldCase path := by
  simp only [find, find?_eq_none, eqIgnoreAsciiCase_iff, ne_eq]

theorem findIndex_eq_none_iff (v : RamVfs) (path : Bytes) :
    v.findIndex path = none ↔ v.find path = none := by
  rw [find_eq_none_iff, findIndex, findIdx?_eq_none_iff]
  simp only [← Bool.not_eq_true, eqIgnoreAsciiCase_iff, ne_eq]

/-- A found index splits the node list at the node that carries the path. -/
theorem findIndex_some (h : v.findIndex path = some i) :
    ∃ pre n post, v.nodes = pre ++ n :: post ∧ pre.length = i
      ∧ foldCase n.path.asStr = foldCase path := by
  obtain ⟨hi, hp, -⟩ := findIdx?_eq_some_iff_getElem.mp h
  refine ⟨v.nodes.take i, v.nodes[i], v.nodes.drop (i + 1), ?_, ?_,
    (eqIgnoreAsciiCase_iff _ _).mp hp⟩
  · rw [← drop_eq_getElem_cons hi, take_append_drop]
  · rw [length_take]; omega

/-! ## §2. Node updates at a split. -/

theorem modify_split {α : Type} (pre post : List α) (n : α) (f : α → α) :
    (pre ++ n :: post).modify pre.length f = pre ++ f n :: post := by
  induction pre with
  | nil => rfl
  | cons x xs ih => simp [ih]

section Split

variable {v : RamVfs} {pre post : List VfsNode} {n : VfsNode}

variable (h : v.nodes = pre ++ n :: post)

include h

theorem getElem?_of_split : v.nodes[pre.length]? = some n := by
  rw [h, getElem?_append_right (Nat.le_refl _)]
  simp

theorem isDirectoryAt_of_split : v.isDirectoryAt pre.length = (n.kind == .directory) := by
  simp [isDirectoryAt, getElem?_of_split h]

theorem setData_of_split (hd : data.length ≤ maxFileBytes) :
    (v.setData pre.length data hd).nodes = pre ++ { n with data := data, fits := hd } :: post := by
  simp only [setData, h, modify_split]

end Split

/-! ## §3. The effect of `insert`. -/

/-- The tests `insert` makes, in the source's order. -/
structure InsertOk (v : RamVfs) (path : Bytes) (kind : NodeKind) (data : Bytes) : Prop where
  size : kind = .file → data.length ≤ maxFileBytes
  valid : validAbsolutePath path = true
  fresh : v.find path = none
  parent : path ≠ rootPath → ∃ p, v.find (parentPath path) = some p ∧ p.kind = .directory
  room : v.nodes.length < maxNodes

/-- The node a successful `insert` appends. -/
def inserted (path : Bytes) (kind : NodeKind) (data : Bytes) (h : kind = .file →
    data.length ≤ maxFileBytes) : VfsNode :=
  match kind, h with
  | .file, h => ⟨FixedText.fromStr path, .file, data, h rfl⟩
  | .directory, _ => ⟨FixedText.fromStr path, .directory, [], Nat.zero_le _⟩

/-- On a valid path the parent test is a lookup of the parent path. -/
theorem checkParent_eq (v : RamVfs) (hv : validAbsolutePath path = true) :
    v.checkParent path =
      if path = rootPath then .ok ()
      else
        match v.find (parentPath path) with
        | none => .error .notFound
        | some p => if p.kind = .directory then .ok () else .error .notDirectory := by
  unfold checkParent
  split
  · rfl
  rename_i hr
  obtain ⟨-, h | ⟨rest, rfl, -⟩⟩ := (validAbsolutePath_iff path).mp hv
  · exact absurd h hr
  cases hk : rfind slash (slash :: rest) with
  | none => exact absurd mem_cons_self ((rfind_eq_none_iff slash _).mp hk)
  | some k =>
    have hp : parentPath (slash :: rest)
        = if k = 0 then rootPath else (slash :: rest).take k := by
      rw [parentPath, hk]
      cases k <;> rfl
    simp only [hp]
    cases v.find (if k = 0 then rootPath else (slash :: rest).take k) <;> rfl

theorem checkParent_ok_iff (v : RamVfs) (hv : validAbsolutePath path = true) :
    v.checkParent path = .ok () ↔
      (path ≠ rootPath → ∃ p, v.find (parentPath path) = some p ∧ p.kind = .directory) := by
  rw [checkParent_eq v hv]
  by_cases hr : path = rootPath
  · simp [hr]
  cases v.find (parentPath path) with
  | none => simp [hr]
  | some p => by_cases hd : p.kind = .directory <;> simp [hr, hd]

/-- A call whose tests all pass appends one node. -/
theorem insert_of_ok (h : InsertOk v path kind data) :
    v.insert path kind data = (v.push (inserted path kind data h.size) h.room, .ok ()) := by
  have hsize : ¬ (kind = .file ∧ maxFileBytes < data.length) := by
    rintro ⟨hk, hl⟩
    have := h.size hk
    omega
  have hpar := (checkParent_ok_iff v h.valid).mpr h.parent
  unfold insert
  rw [if_neg hsize, if_neg (by simp [h.valid]), if_neg (by simp [h.fresh]), hpar]
  cases kind with
  | directory => simp [h.room, inserted]
  | file =>
    have hd := h.size rfl
    simp [h.room, inserted, writeData, hd, setData, push, modify_split]

/-- Every other call returns an error and changes nothing. -/
theorem insert_error_or_ok (v : RamVfs) (path : Bytes) (kind : NodeKind) (data : Bytes) :
    (∃ e, v.insert path kind data = (v, .error e)) ∨ InsertOk v path kind data := by
  by_cases hsize : kind = .file ∧ maxFileBytes < data.length
  · exact .inl ⟨.noSpace, by rw [insert, if_pos hsize]⟩
  by_cases hvalid : validAbsolutePath path = false
  · exact .inl ⟨.invalidPath, by rw [insert, if_neg hsize, if_pos hvalid]⟩
  by_cases hfresh : (v.find path).isSome
  · exact .inl ⟨.alreadyExists, by rw [insert, if_neg hsize, if_neg hvalid, if_pos hfresh]⟩
  rw [Bool.not_eq_false] at hvalid
  cases hpar : v.checkParent path with
  | error e =>
    refine .inl ⟨e, ?_⟩
    rw [insert, if_neg hsize, if_neg (by simp [hvalid]), if_neg hfresh, hpar]
  | ok u =>
    by_cases hroom : v.nodes.length < maxNodes
    · refine .inr ⟨?_, hvalid, by simpa using hfresh,
        (checkParent_ok_iff v hvalid).mp hpar, hroom⟩
      intro hk
      simp only [hk, true_and, not_lt] at hsize
      exact hsize
    · refine .inl ⟨.noSpace, ?_⟩
      rw [insert, if_neg hsize, if_neg (by simp [hvalid]), if_neg hfresh, hpar]
      simp [hroom]

@[simp] theorem inserted_kind (path : Bytes) (kind : NodeKind) (data : Bytes)
    (h : kind = .file → data.length ≤ maxFileBytes) : (inserted path kind data h).kind = kind := by
  cases kind <;> rfl

theorem inserted_path (hv : validAbsolutePath path = true) (kind : NodeKind) (data : Bytes)
    (h : kind = .file → data.length ≤ maxFileBytes) :
    (inserted path kind data h).path.asStr = path := by
  cases kind <;> exact fromStr_validPath hv

/-- An appended node is found at the end. -/
theorem findIndex_push (h : InsertOk v path kind data) :
    (v.push (inserted path kind data h.size) h.room).findIndex path = some v.nodes.length := by
  have hnew : eqIgnoreAsciiCase (inserted path kind data h.size).path.asStr path = true := by
    rw [inserted_path h.valid, eqIgnoreAsciiCase_iff]
  have hold := (findIndex_eq_none_iff v path).mpr h.fresh
  rw [findIndex] at hold ⊢
  rw [push, findIdx?_append, hold, findIdx?_singleton, if_pos hnew]
  simp

/-- Whether a file can be inserted does not depend on its bytes. -/
theorem insert_file_reply (v : RamVfs) (path : Bytes) (hd : data.length ≤ maxFileBytes) :
    (v.insert path .file data).2 = (v.insert path .file []).2 := by
  have hs : ¬ (NodeKind.file = .file ∧ maxFileBytes < data.length) := by simpa using hd
  have hs' : ¬ (NodeKind.file = .file ∧ maxFileBytes < ([] : Bytes).length) := by simp
  rw [insert, insert, if_neg hs, if_neg hs']
  split
  · rfl
  split
  · rfl
  cases v.checkParent path with
  | error e => rfl
  | ok u =>
    by_cases hroom : v.nodes.length < maxNodes
    · simp only [dif_pos hroom, writeData, dif_pos hd]
      rfl
    · simp only [dif_neg hroom]

end RamVfs

open RamVfs

/-! ## §4. The three ways a node list changes. -/

/-- One change of the node list, with the tests that guard it. -/
inductive Change (v w : RamVfs) : Prop
  | push (path : Bytes) (kind : NodeKind) (data : Bytes) (h : v.InsertOk path kind data)
      (hw : w = v.push (RamVfs.inserted path kind data h.size) h.room)
  | rewrite (pre post : List VfsNode) (n : VfsNode) (data : Bytes)
      (hd : data.length ≤ maxFileBytes) (hv : v.nodes = pre ++ n :: post)
      (hfile : n.kind ≠ .directory)
      (hw : w.nodes = pre ++ { n with data := data, fits := hd } :: post)
  | erase (pre post : List VfsNode) (n : VfsNode) (hv : v.nodes = pre ++ n :: post)
      (hroot : n.path.asStr ≠ rootPath)
      (hleaf : n.kind = .directory →
        ∀ m ∈ v.nodes, directChild n.path.asStr m.path.asStr = false)
      (hw : w.nodes = pre ++ post)

/-- Any number of changes. -/
abbrev Changes : RamVfs → RamVfs → Prop := Relation.ReflTransGen Change

/-- The case-folded paths of the nodes, in their order. -/
def RamVfs.keys (v : RamVfs) : List Bytes := v.nodes.map fun n => foldCase n.path.asStr

/-- Changes that put new nodes behind those that are there. -/
structure Extends (v w : RamVfs) : Prop where
  changes : Changes v w
  keys : v.keys <+: w.keys

namespace Extends

@[refl] theorem refl (v : RamVfs) : Extends v v := ⟨.refl, prefix_rfl⟩

theorem trans {x : RamVfs} (h : Extends v w) (h' : Extends w x) : Extends v x :=
  ⟨h.changes.trans h'.changes, h.keys.trans h'.keys⟩

theorem push (h : v.InsertOk path kind data) :
    Extends v (v.push (RamVfs.inserted path kind data h.size) h.room) := by
  refine ⟨.single (.push path kind data h rfl), ?_⟩
  rw [RamVfs.keys, RamVfs.keys, RamVfs.push, map_append]
  exact prefix_append _ _

theorem rewrite (hd : data.length ≤ maxFileBytes) (hv : v.nodes = pre ++ n :: post)
    (hfile : n.kind ≠ .directory)
    (hw : w.nodes = pre ++ { n with data := data, fits := hd } :: post) : Extends v w := by
  refine ⟨.single (.rewrite pre post n data hd hv hfile hw), ?_⟩
  rw [RamVfs.keys, RamVfs.keys, hv, hw, map_append, map_append]
  exact prefix_rfl

end Extends

section Operations

variable (v : RamVfs)

theorem insert_changes (path : Bytes) (kind : NodeKind) (data : Bytes) :
    Extends v (v.insert path kind data).1 := by
  rcases v.insert_error_or_ok path kind data with ⟨e, he⟩ | h
  · rw [he]
  · rw [insert_of_ok h]
    exact .push h

/-- Replacing the bytes of a node that is no directory is one change. -/
theorem setData_changes (hi : v.findIndex path = some i) (hfile : v.isDirectoryAt i = false)
    (hd : data.length ≤ maxFileBytes) :
    Extends v (v.setData i data hd) := by
  obtain ⟨pre, n, post, hv, rfl, -⟩ := findIndex_some hi
  rw [isDirectoryAt_of_split hv] at hfile
  exact .rewrite hd hv (by simpa using hfile) (setData_of_split hv hd)

theorem write_changes (path data : Bytes) : Extends v (v.write path data).1 := by
  unfold write
  split
  · exact .refl v
  rename_i hlen
  split
  · rename_i i hi
    split
    · exact .refl v
    rename_i hfile
    -- emptying the file and storing the new bytes amount to one rewrite
    obtain ⟨pre, n, post, hv, rfl, -⟩ := findIndex_some hi
    have hd : data.length ≤ maxFileBytes := by omega
    have h0 : ([] : Bytes).length ≤ maxFileBytes := Nat.zero_le _
    have hempty := setData_of_split hv h0
    rw [isDirectoryAt_of_split hv] at hfile
    simp only [writeData, dif_pos hd]
    exact .rewrite hd hv (by simpa using hfile) (setData_of_split hempty hd)
  · exact insert_changes v path .file data

theorem appendAt_changes (hi : v.findIndex path = some i) :
    Extends v (v.appendAt i data).1 := by
  unfold appendAt
  split
  · exact .refl v
  rename_i hfile
  split
  · rename_i hd
    exact setData_changes v hi (by simpa using hfile) hd
  · exact .refl v

theorem append_changes (path data : Bytes) : Extends v (v.append path data).1 := by
  unfold append
  split
  · exact .refl v
  split
  · rename_i i hi
    exact appendAt_changes v hi
  · have hins := insert_changes v path .file []
    split
    · rename_i v' e he
      rwa [he] at hins
    · rename_i v' he
      rw [he] at hins
      split
      · rename_i i hi
        exact hins.trans (appendAt_changes v' hi)
      · exact hins

theorem writeAt_changes (path : Bytes) (offset : Nat) (data : Bytes) :
    Extends v (v.writeAt path offset data).1 := by
  unfold writeAt
  split
  · exact .refl v
  rename_i i hi
  split
  · exact .refl v
  rename_i hfile
  split
  · exact .refl v
  split
  · exact setData_changes v hi (by simpa using hfile) _
  · exact .refl v

theorem truncate_changes (path : Bytes) : Extends v (v.truncate path).1 := by
  unfold truncate
  split
  · exact .refl v
  rename_i i hi
  split
  · exact .refl v
  · rename_i hfile
    exact setData_changes v hi (by simpa using hfile) _

theorem foldCase_eq_root (h : foldCase path = foldCase rootPath) :
    path = rootPath := by
  have hlen : path.length = 1 := by
    have := congrArg length h
    simpa [rootPath, ascii] using this
  obtain ⟨b, rfl⟩ := length_eq_one_iff.mp hlen
  have hb : toAsciiLower b = slash := by
    have : [toAsciiLower b] = [slash] := h.trans (by decide)
    exact head_eq_of_cons_eq this
  rw [(slash_fold b).mp hb]
  rfl

/-- `remove` changes nothing or takes one node out. -/
theorem remove_changes (path : Bytes) :
    (v.remove path).1 = v ∨ (Change v (v.remove path).1
      ∧ ∃ pre n post, v.nodes = pre ++ n :: post ∧ (v.remove path).1.nodes = pre ++ post) := by
  unfold remove
  split
  · exact .inl rfl
  rename_i i hi
  obtain ⟨pre, n, post, hv, rfl, hfold⟩ := findIndex_some hi
  split
  · exact .inl rfl
  rename_i hroot
  have hown : ((v.nodes[pre.length]?).map (fun n => n.path.asStr)).getD [] = n.path.asStr := by
    rw [getElem?_of_split hv]; rfl
  simp only [hown, isDirectoryAt_of_split hv]
  split
  · exact .inl rfl
  rename_i hleaf
  have hw : v.nodes.eraseIdx pre.length = pre ++ post := by simp [hv, eraseIdx_append]
  refine .inr ⟨.erase pre post n hv ?_ ?_ hw, pre, n, post, hv, hw⟩
  · intro hn
    rw [hn] at hfold
    exact hroot (foldCase_eq_root hfold.symm)
  · intro hd m hm
    simp only [hd, beq_self_eq_true, Bool.true_and, any_eq_true, not_exists,
      not_and, Bool.not_eq_true] at hleaf
    exact hleaf m hm

/-- Every operation puts nodes behind those that are there, or takes one out. -/
theorem apply_cases (op : VfsOp) : Extends v (op.apply v)
    ∨ (Change v (op.apply v)
      ∧ ∃ pre n post, v.nodes = pre ++ n :: post ∧ (op.apply v).nodes = pre ++ post) := by
  cases op with
  | mkdir path => exact .inl (insert_changes v path .directory [])
  | touch path =>
    simp only [VfsOp.apply, touch]
    split
    · exact .inl (.refl v)
    · exact .inl (insert_changes v path .file [])
  | write path data => exact .inl (write_changes v path data)
  | append path data => exact .inl (append_changes v path data)
  | writeAt path offset data => exact .inl (writeAt_changes v path offset data)
  | truncate path => exact .inl (truncate_changes v path)
  | remove path =>
    refine (remove_changes v path).imp_left fun hsame => ?_
    show Extends v (v.remove path).1
    rw [hsame]

/-- **Every operation is a sequence of changes.** -/
theorem apply_changes (op : VfsOp) : Changes v (op.apply v) := by
  rcases apply_cases v op with h | ⟨h, -⟩
  · exact h.changes
  · exact .single h

end Operations

/-! ## §5. The structural invariant. -/

/-- A valid path that is not the root is a directory part, a slash and a
nonempty last component. -/
theorem validPath_split (hv : validAbsolutePath path = true) (hr : path ≠ rootPath) :
    ∃ a c, path = a ++ slash :: c ∧ slash ∉ c ∧ c ≠ [] ∧ a ≠ rootPath
      ∧ parentPath path = if a = [] then rootPath else a := by
  obtain ⟨-, h | ⟨rest, rfl, hrest⟩⟩ := (validAbsolutePath_iff path).mp hv
  · exact absurd h hr
  cases hk : rfind slash (slash :: rest) with
  | none => exact absurd mem_cons_self ((rfind_eq_none_iff slash _).mp hk)
  | some k =>
    obtain ⟨a, c, hs, rfl, hc⟩ := (rfind_eq_some_iff slash _ k).mp hk
    have hpar : parentPath (slash :: rest) = if a = [] then rootPath else a := by
      rw [parentPath, hk]
      cases a with
      | nil => rfl
      | cons b bs => rw [hs]; exact take_left
    cases a with
    | nil =>
      obtain ⟨_, rfl⟩ : slash = slash ∧ rest = c := by simpa using hs
      refine ⟨[], rest, rfl, hc, ?_, by decide, hpar⟩
      intro hempty
      exact hr (by rw [hempty]; rfl)
    | cons b bs =>
      obtain ⟨rfl, hrs⟩ : slash = b ∧ rest = bs ++ slash :: c := by simpa using hs
      -- an empty component, last or first, would not be valid
      have hname : ∀ x ∈ rest.splitOn slash, x ≠ [] :=
        fun x hx => ((validName_iff x).mp (hrest x hx)).1
      refine ⟨slash :: bs, c, hs, hc, ?_, ?_, hpar⟩
      · exact hname c (by rw [hrs, splitOn_last bs hc]; simp)
      intro hroot
      have hbs : bs = [] := (cons.inj hroot).2
      refine hname [] ?_ rfl
      rw [hrs, hbs, splitOn_append_sep not_mem_nil]
      exact mem_cons_self

theorem directChild_root_iff (path : Bytes) :
    directChild rootPath path = true ↔
      ∃ name, path = slash :: name ∧ name ≠ [] ∧ slash ∉ name := by
  cases path with
  | nil => simp [directChild]
  | cons b name => simp [directChild, and_assoc]

theorem directChild_below_iff {directory : Bytes} (h : directory ≠ rootPath) (path : Bytes) :
    directChild directory path = true ↔ (directory.length ≤ path.length
      ∧ foldCase (path.take directory.length) = foldCase directory)
      ∧ ∃ name, path.drop directory.length = slash :: name ∧ name ≠ [] ∧ slash ∉ name := by
  rw [directChild, if_neg h, Bool.and_eq_true, Bool.and_eq_true, decide_eq_true_eq,
    eqIgnoreAsciiCase_iff]
  cases path.drop directory.length with
  | nil => simp
  | cons b name => simp [and_assoc]

/-- The direct children of a directory are the paths whose parent it is. -/
theorem directChild_iff {directory : Bytes} (hd : directory ≠ [])
    (hv : validAbsolutePath path = true) (hr : path ≠ rootPath) :
    directChild directory path = true ↔ foldCase (parentPath path) = foldCase directory := by
  obtain ⟨a, c, hs, hc, hne, ha, hpar⟩ := validPath_split hv hr
  -- a slash followed by a text without slashes occurs once, at the end
  have hlast : ∀ a' c', path = a' ++ slash :: c' → slash ∉ c' → a' = a ∧ c' = c := by
    intro a' c' hs' hc'
    have h1 := (rfind_eq_some_iff slash path a.length).mpr ⟨a, c, hs, rfl, hc⟩
    have h2 := (rfind_eq_some_iff slash path a'.length).mpr ⟨a', c', hs', rfl, hc'⟩
    have hlen : a'.length = a.length := Option.some.inj (h2.symm.trans h1)
    have happ := append_inj (hs'.symm.trans hs) hlen
    exact ⟨happ.1, (cons.inj happ.2).2⟩
  by_cases hroot : directory = rootPath
  · rw [hroot, directChild_root_iff, hpar]
    constructor
    · intro ⟨name, hp, _, hn⟩
      obtain ⟨rfl, _⟩ := hlast [] name hp hn
      rfl
    · intro hf
      by_cases hnil : a = []
      · exact ⟨c, by rw [hs, hnil]; rfl, hne, hc⟩
      · rw [if_neg hnil] at hf
        exact absurd (foldCase_eq_root hf) ha
  · rw [directChild_below_iff hroot, hpar]
    constructor
    · intro ⟨⟨_, hf⟩, name, hp, _, hn⟩
      obtain ⟨ha', _⟩ := hlast (path.take directory.length) name
        (by rw [← hp, take_append_drop]) hn
      rw [ha'] at hf
      rw [if_neg, hf]
      intro hnil
      rw [hnil] at hf
      exact hd (map_eq_nil_iff.mp hf.symm)
    · intro hf
      have hnil : a ≠ [] := by
        intro hnil
        rw [if_pos hnil] at hf
        exact hroot (foldCase_eq_root hf.symm)
      rw [if_neg hnil] at hf
      have hlen : directory.length = a.length := by simpa using congrArg length hf.symm
      refine ⟨⟨?_, ?_⟩, c, ?_, hne, hc⟩
      · rw [hs, length_append]; omega
      · rw [hlen, hs, take_left, hf]
      · rw [hlen, hs, drop_left]

/-- What `insert` establishes of a node, given the nodes before it. -/
structure NodeOk (prior : List VfsNode) (n : VfsNode) : Prop where
  valid : validAbsolutePath n.path.asStr = true
  fresh : ∀ m ∈ prior, foldCase m.path.asStr ≠ foldCase n.path.asStr
  parent : n.path.asStr ≠ rootPath → ∃ p ∈ prior, p.kind = .directory
    ∧ foldCase p.path.asStr = foldCase (parentPath n.path.asStr)
  dirEmpty : n.kind = .directory → n.data = []

/-- The nodes before a node may be exchanged while their paths stay known
and its parent directory stays there. -/
theorem NodeOk.exchange {prior prior' : List VfsNode} (h : NodeOk prior n)
    (hpaths : ∀ m ∈ prior', ∃ m₀ ∈ prior, foldCase m₀.path.asStr = foldCase m.path.asStr)
    (hdirs : n.path.asStr ≠ rootPath → ∀ p ∈ prior, p.kind = .directory →
      foldCase p.path.asStr = foldCase (parentPath n.path.asStr) → p ∈ prior') :
    NodeOk prior' n where
  valid := h.valid
  fresh := by
    intro m hm
    obtain ⟨m₀, hm₀, hf⟩ := hpaths m hm
    rw [← hf]
    exact h.fresh m₀ hm₀
  parent := by
    intro hr
    obtain ⟨p, hp, hk, hf⟩ := h.parent hr
    exact ⟨p, hdirs hr p hp hk hf, hk, hf⟩
  dirEmpty := h.dirEmpty

/-- **The structural invariant**: the root directory comes first and every
node was admissible after the ones before it. -/
structure VfsInv (v : RamVfs) : Prop where
  root : ∃ r rest, v.nodes = r :: rest ∧ r.path.asStr = rootPath ∧ r.kind = .directory
  nodes : AllPrior NodeOk [] v.nodes

namespace VfsInv

variable {v : RamVfs}

theorem valid (h : VfsInv v) : ∀ n ∈ v.nodes, validAbsolutePath n.path.asStr = true :=
  h.nodes.forall (fun _ _ hn => hn.valid)

theorem dirEmpty (h : VfsInv v) : ∀ n ∈ v.nodes, n.kind = .directory → n.data = [] :=
  h.nodes.forall (fun _ _ hn => hn.dirEmpty)

/-- Two positions with the same path up to case are the same. -/
theorem unique (h : VfsInv v) (hv : v.nodes = pre ++ n :: post) :
    (∀ m ∈ pre, foldCase m.path.asStr ≠ foldCase n.path.asStr)
      ∧ ∀ m ∈ post, foldCase m.path.asStr ≠ foldCase n.path.asStr := by
  have hn := h.nodes
  rw [hv] at hn
  refine ⟨by simpa using hn.at_split.fresh, fun m hm => ?_⟩
  obtain ⟨a, b, rfl⟩ := append_of_mem hm
  have hsplit : pre ++ n :: (a ++ m :: b) = (pre ++ n :: a) ++ m :: b := by simp
  rw [hsplit] at hn
  exact (hn.at_split.fresh n (by simp)).symm

/-- No two nodes have the same path up to case. -/
theorem nodup (h : VfsInv v) : (v.nodes.map (fun n => foldCase n.path.asStr)).Nodup := by
  have hgen : ∀ (l prior : List VfsNode), AllPrior NodeOk prior l →
      (l.map (fun n => foldCase n.path.asStr)).Nodup
        ∧ ∀ n ∈ l, ∀ m ∈ prior, foldCase m.path.asStr ≠ foldCase n.path.asStr := by
    intro l
    induction l with
    | nil => exact fun _ _ => ⟨nodup_nil, fun n hn => absurd hn not_mem_nil⟩
    | cons x xs ih =>
      intro prior hall
      obtain ⟨hx, hxs⟩ := hall
      obtain ⟨hnodup, hprior⟩ := ih _ hxs
      constructor
      · rw [map_cons, nodup_cons]
        refine ⟨fun hmem => ?_, hnodup⟩
        obtain ⟨n, hn, hf⟩ := mem_map.mp hmem
        exact hprior n hn x (by simp) hf.symm
      · intro n hn m hm
        rcases mem_cons.mp hn with rfl | hn
        · exact hx.fresh m hm
        · exact hprior n hn m (mem_append_left _ hm)
  exact (hgen v.nodes [] h.nodes).1

/-- A path is carried by one node at most. -/
theorem eq_of_fold (h : VfsInv v) {m : VfsNode} (hm : m ∈ v.nodes) (hn : n ∈ v.nodes)
    (hf : foldCase m.path.asStr = foldCase n.path.asStr) : m = n := by
  obtain ⟨pre, post, hv⟩ := append_of_mem hn
  obtain ⟨h1, h2⟩ := h.unique hv
  rw [hv] at hm
  rcases mem_append.mp hm with hm | hm
  · exact absurd hf (h1 m hm)
  rcases mem_cons.mp hm with rfl | hm
  · rfl
  · exact absurd hf (h2 m hm)

/-- Appending an admitted node. -/
theorem push (hi : VfsInv v) (h : v.InsertOk path kind data) :
    VfsInv (v.push (RamVfs.inserted path kind data h.size) h.room) := by
  have hpath := inserted_path h.valid kind data h.size
  constructor
  · obtain ⟨r, rest, hv, hr⟩ := hi.root
    refine ⟨r, rest ++ [RamVfs.inserted path kind data h.size], ?_, hr⟩
    simp only [RamVfs.push, hv, cons_append]
  · refine (allPrior_append _ _ _ _).mpr ⟨hi.nodes, (allPrior_singleton _ _ _).mpr ?_⟩
    constructor
    · rw [hpath]; exact h.valid
    · rw [hpath]
      exact (find_eq_none_iff v path).mp h.fresh
    · rw [hpath]
      intro hr
      obtain ⟨p, hp, hd⟩ := h.parent hr
      obtain ⟨hmem, hfold⟩ := find_some hp
      exact ⟨p, hmem, hd, hfold⟩
    · intro hk
      rw [inserted_kind] at hk
      subst hk
      rfl

/-- Replacing the bytes of a file. -/
theorem rewrite (hi : VfsInv v) {hd : data.length ≤ maxFileBytes}
    (hv : v.nodes = pre ++ n :: post) (hfile : n.kind ≠ .directory)
    (hw : w.nodes = pre ++ { n with data := data, fits := hd } :: post) : VfsInv w := by
  obtain ⟨r, rest, hr, hrp, hrk⟩ := hi.root
  have hn := hi.nodes
  rw [hv, allPrior_append, allPrior_cons, nil_append] at hn
  obtain ⟨hpre, hnode, hpost⟩ := hn
  constructor
  · -- the first node is the root, a directory, so it is not the rewritten one
    rw [hr] at hv
    cases pre with
    | nil =>
      obtain ⟨rfl, -⟩ := cons.inj hv
      exact absurd hrk hfile
    | cons x xs =>
      obtain ⟨rfl, -⟩ := cons.inj hv
      exact ⟨r, _, hw, hrp, hrk⟩
  · rw [hw, allPrior_append, allPrior_cons, nil_append]
    refine ⟨hpre, ⟨hnode.valid, hnode.fresh, hnode.parent, fun hk => absurd hk hfile⟩, ?_⟩
    refine hpost.imp (fun t x _ hx => hx.exchange ?_ ?_)
    · intro m hm
      simp only [append_assoc, mem_append, mem_singleton] at hm
      rcases hm with hm | rfl | hm
      · exact ⟨m, by simp [hm], rfl⟩
      · exact ⟨n, by simp, rfl⟩
      · exact ⟨m, by simp [hm], rfl⟩
    · intro _ p hp hk _
      simp only [append_assoc, mem_append, mem_singleton] at hp ⊢
      rcases hp with hp | rfl | hp
      · exact .inl hp
      · exact absurd hk hfile
      · exact .inr (.inr hp)

/-- Taking out a node without children. -/
theorem erase (hi : VfsInv v) (hv : v.nodes = pre ++ n :: post) (hroot : n.path.asStr ≠ rootPath)
    (hleaf : n.kind = .directory → ∀ m ∈ v.nodes, directChild n.path.asStr m.path.asStr = false)
    (hw : w.nodes = pre ++ post) : VfsInv w := by
  obtain ⟨r, rest, hr, hrp, hrk⟩ := hi.root
  have hn := hi.nodes
  rw [hv, allPrior_append, allPrior_cons, nil_append] at hn
  obtain ⟨hpre, hnode, hpost⟩ := hn
  constructor
  · rw [hr] at hv
    cases pre with
    | nil =>
      obtain ⟨rfl, -⟩ := cons.inj hv
      exact absurd hrp hroot
    | cons x xs =>
      obtain ⟨rfl, -⟩ := cons.inj hv
      exact ⟨r, _, hw, hrp, hrk⟩
  · rw [hw, allPrior_append, nil_append]
    refine ⟨hpre, hpost.imp (fun t x hmem hx => hx.exchange ?_ ?_)⟩
    · intro m hm
      refine ⟨m, ?_, rfl⟩
      simp only [append_assoc, mem_append] at hm ⊢
      exact hm.imp_right .inr
    · intro hxr p hp hk hf
      simp only [append_assoc, mem_append, mem_singleton] at hp ⊢
      rcases hp with hp | rfl | hp
      · exact .inl hp
      · -- the removed node would have `x` as a direct child
        have hx' : x ∈ v.nodes := by
          rw [hv]; exact mem_append_right _ (mem_cons_of_mem _ hmem)
        have hne : p.path.asStr ≠ [] := fun hnil => by
          have := hnode.valid
          rw [hnil] at this
          exact absurd this (by decide)
        have := hleaf hk x hx'
        rw [(directChild_iff hne hx.valid hxr).mpr hf.symm] at this
        exact absurd this (by simp)
      · exact .inr hp

/-- The invariant survives every change. -/
theorem change (hi : VfsInv v) (h : Change v w) : VfsInv w := by
  cases h with
  | push path kind data h hw => subst hw; exact hi.push h
  | rewrite pre post n data hd hv hfile hw => exact hi.rewrite hv hfile hw
  | erase pre post n hv hroot hleaf hw => exact hi.erase hv hroot hleaf hw

theorem changes (hi : VfsInv v) (h : Changes v w) : VfsInv w := by
  induction h with
  | refl => exact hi
  | tail _ hstep ih => exact ih.change hstep

/-- One operation with any arguments keeps the invariant. -/
theorem apply (hi : VfsInv v) (op : VfsOp) : VfsInv (op.apply v) := hi.changes (apply_changes v op)

/-- What stays keeps its order, in front of what is new. -/
theorem survivors (hi : VfsInv v) (op : VfsOp) :
    v.keys.filter (· ∈ (op.apply v).keys) <+: (op.apply v).keys := by
  rcases apply_cases v op with h | ⟨-, pre, n, post, hv, hw⟩
  · have hall : v.keys.filter (· ∈ (op.apply v).keys) = v.keys :=
      filter_eq_self.mpr fun k hk => decide_eq_true (h.keys.subset hk)
    rw [hall]
    exact h.keys
  · have hnodup : v.keys.Nodup := hi.nodup
    have hkeys : v.keys = pre.map (fun n => foldCase n.path.asStr) ++ foldCase n.path.asStr
        :: post.map fun n => foldCase n.path.asStr := by
      rw [RamVfs.keys, hv, map_append, map_cons]
    rw [hkeys] at hnodup ⊢
    rw [RamVfs.keys, hw, map_append]
    have hgone : foldCase n.path.asStr ∉ pre.map (fun n => foldCase n.path.asStr)
        ++ post.map fun n => foldCase n.path.asStr :=
      (nodup_middle.mp hnodup).notMem
    rw [filter_append, filter_cons_of_neg (by simpa using hgone), ← filter_append]
    refine ⟨[], ?_⟩
    rw [append_nil]
    exact filter_eq_self.mpr fun k hk => decide_eq_true hk

/-- A new file system with its root. -/
theorem initialised : VfsInv RamVfs.initialised := by
  have hok : RamVfs.new.InsertOk rootPath .directory [] := by
    refine ⟨by simp, by decide, rfl, fun h => absurd rfl h, by decide⟩
  have heq : RamVfs.initialised.nodes
      = [RamVfs.inserted rootPath .directory [] hok.size] := by
    rw [RamVfs.initialised, RamVfs.mkdir, RamVfs.insert_of_ok hok]
    rfl
  have hpath := RamVfs.inserted_path (by decide : validAbsolutePath rootPath = true) .directory []
    hok.size
  refine ⟨⟨_, [], heq, hpath, rfl⟩, ?_⟩
  rw [heq, allPrior_singleton]
  exact ⟨by rw [hpath]; decide, by simp, fun h => absurd hpath h, fun _ => rfl⟩

end VfsInv

/-- **Every reachable file system satisfies the invariant.** -/
theorem reachable_inv (h : Reachable v) : VfsInv v := by
  induction h with
  | init => exact .initialised
  | step op _ ih => exact ih.apply op

theorem reachable_foldl (ops : List VfsOp) (h : Reachable v) :
    Reachable (ops.foldl VfsOp.apply v) := by
  induction ops generalizing v with
  | nil => exact h
  | cons op ops ih => exact ih (.step op h)

end GenOS.Vfs
