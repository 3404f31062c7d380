/-
  GenOS.Vfs.RawVfs — the arrays behind the RAM file system.

  `RawVfs` keeps what `vfs.rs` stores: 32 node slots of which the first
  `len` are live, and in every node a 512-byte buffer of which the first
  `len` bytes are live.  `truncate` and `remove` only shorten a length, so
  the bytes and nodes behind it are stale, and later writes go byte by byte
  into the old buffer.

  `view` forgets everything stale and yields the `RamVfs` of the same file
  system.  Every operation commutes with it and returns the same result
  (`perform_view`), so no stale byte or node is ever seen; and a call that
  returns an error leaves the arrays as they were (`perform_error`).
-/
import GenOS.Vfs.Invariant

namespace GenOS.Vfs

open GenOS.Lib List FixedBytes

/-! ## §1. Data model. -/

/-- `VfsNode` with its whole buffer. -/
@[ext] structure RawNode where
  path : FixedText
  kind : NodeKind
  data : FixedBytes maxFileBytes
  len : Nat
  fits : len ≤ maxFileBytes
  deriving DecidableEq

namespace RawNode

/-- `VfsNode::empty`. -/
def empty : RawNode := ⟨FixedText.empty, .file, FixedBytes.zero, 0, Nat.zero_le _⟩

variable (n : RawNode)

/-- `VfsNode::data`. -/
def bytes : Bytes := n.data.val.take n.len

theorem bytes_length : n.bytes.length = n.len := by
  have := n.fits
  rw [bytes, length_take, n.data.property]
  omega

/-- The node without its stale bytes. -/
def view : VfsNode :=
  ⟨n.path, n.kind, n.bytes, by rw [n.bytes_length]; exact n.fits⟩

/-- The node with another buffer and length. -/
def withData (data : FixedBytes maxFileBytes) (len : Nat) (h : len ≤ maxFileBytes) : RawNode :=
  { n with data := data, len := len, fits := h }

end RawNode

/-- `RamVfs` with all its slots. -/
@[ext] structure RawVfs where
  nodes : List RawNode
  len : Nat
  slots : nodes.length = maxNodes
  fits : len ≤ maxNodes
  deriving DecidableEq

/-- The result of a mutating call on the arrays. -/
abbrev RawOutcome (α : Type) := RawVfs × Except VfsError α

/-! ## §2. Operations. -/

namespace RawVfs

/-- `RamVfs::new`. -/
def new : RawVfs := ⟨List.replicate maxNodes RawNode.empty, 0, List.length_replicate, Nat.zero_le _⟩

/-- `copy_from`. -/
def copyFrom (v source : RawVfs) : RawVfs :=
  { v with nodes := source.nodes, len := source.len, slots := source.slots, fits := source.fits }

variable (v : RawVfs) (path : Bytes) (index : Nat) (data : Bytes)

/-- `self.nodes.iter().take(self.len)`. -/
def live : List RawNode := v.nodes.take v.len

/-- `find`. -/
def find : Option RawNode :=
  v.live.find? (fun node => eqIgnoreAsciiCase node.path.asStr path)

/-- `find_index`. -/
def findIndex : Option Nat :=
  v.live.findIdx? (fun node => eqIgnoreAsciiCase node.path.asStr path)

/-- `self.nodes[index]`. -/
def nodeAt : RawNode := v.nodes.getD index RawNode.empty

/-- `self.nodes[index] = node`. -/
def put (node : RawNode) : RawVfs :=
  { v with nodes := v.nodes.set index node, slots := by rw [List.length_set]; exact v.slots }

/-- `write_data`. -/
def writeData : RawOutcome Unit :=
  if h : data.length ≤ maxFileBytes then
    let node := v.nodeAt index
    (v.put index (node.withData (node.data.storeFrom 0 data) data.length h), .ok ())
  else (v, .error .noSpace)

/-- The parent test inside `insert`. -/
def checkParent : Except VfsError Unit :=
  if path = rootPath then .ok ()
  else
    match rfind slash path with
    | none => .error .invalidPath
    | some slashIndex =>
      let parent := if slashIndex = 0 then rootPath else path.take slashIndex
      match v.find parent with
      | some node => if node.kind = .directory then .ok () else .error .notDirectory
      | none => .error .notFound

/-- The assignments of `insert`: a zeroed node in the first free slot. -/
def grow (kind : NodeKind) (h : v.len < maxNodes) : RawVfs where
  nodes := v.nodes.set v.len
    ⟨FixedText.fromStr path, kind, FixedBytes.zero, 0, Nat.zero_le _⟩
  len := v.len + 1
  slots := by rw [List.length_set]; exact v.slots
  fits := h

/-- `insert`. -/
def insert (kind : NodeKind) (data : Bytes) : RawOutcome Unit :=
  if kind = .file ∧ maxFileBytes < data.length then (v, .error .noSpace)
  else if validAbsolutePath path = false then (v, .error .invalidPath)
  else if (v.find path).isSome then (v, .error .alreadyExists)
  else
    match v.checkParent path with
    | .error e => (v, .error e)
    | .ok () =>
      if h : v.len < maxNodes then
        match kind with
        | .file => (v.grow path .file h).writeData v.len data
        | .directory => (v.grow path .directory h, .ok ())
      else (v, .error .noSpace)

/-- `mkdir`. -/
def mkdir : RawOutcome Unit := v.insert path .directory []

/-- `touch`. -/
def touch : RawOutcome Unit :=
  if (v.find path).isSome then (v, .ok ()) else v.insert path .file []

/-- `self.nodes[index].len = 0`. -/
def clearLen : RawVfs :=
  v.put index ((v.nodeAt index).withData (v.nodeAt index).data 0 (Nat.zero_le _))

/-- `write`. -/
def write : RawOutcome Unit :=
  if maxFileBytes < data.length then (v, .error .noSpace)
  else
    match v.findIndex path with
    | some index =>
      if (v.nodeAt index).kind = .directory then (v, .error .isDirectory)
      else (v.clearLen index).writeData index data
    | none => v.insert path .file data

/-- The tail of `append`, on the node that exists by then. -/
def appendAt : RawOutcome Unit :=
  let node := v.nodeAt index
  if node.kind = .directory then (v, .error .isDirectory)
  else if h : node.len + data.length ≤ maxFileBytes then
    (v.put index (node.withData (node.data.storeFrom node.len data) (node.len + data.length) h),
      .ok ())
  else (v, .error .noSpace)

/-- `append`. -/
def append : RawOutcome Unit :=
  if maxFileBytes < data.length then (v, .error .noSpace)
  else
    match v.findIndex path with
    | some index => v.appendAt index data
    | none =>
      match v.insert path .file [] with
      | (v', .error e) => (v', .error e)
      | (v', .ok ()) =>
        match v'.findIndex path with
        | some index => v'.appendAt index data
        | none => (v', .error .notFound)

/-- `write_at`. -/
def writeAt (offset : Nat) (data : Bytes) : RawOutcome Nat :=
  match v.findIndex path with
  | none => (v, .error .notFound)
  | some index =>
    let node := v.nodeAt index
    if node.kind = .directory then (v, .error .isDirectory)
    else if node.len < offset then (v, .error .invalidOffset)
    else
      if h : offset + data.length ≤ maxFileBytes then
        (v.put index (node.withData (node.data.patch offset data)
          (max node.len (offset + data.length)) (Nat.max_le.mpr ⟨node.fits, h⟩)),
          .ok data.length)
      else (v, .error .noSpace)

/-- `truncate`. -/
def truncate : RawOutcome Unit :=
  match v.findIndex path with
  | none => (v, .error .notFound)
  | some index =>
    if (v.nodeAt index).kind = .directory then (v, .error .isDirectory)
    else (v.clearLen index, .ok ())

/-- `read`. -/
def read : Except VfsError Bytes :=
  match v.find path with
  | none => .error .notFound
  | some node => if node.kind = .directory then .error .isDirectory else .ok node.bytes

/-- `while i < self.len { self.nodes[i - 1] = self.nodes[i]; i += 1 }` with
`count` rounds left. -/
def shiftDown (v : RawVfs) : Nat → Nat → RawVfs
  | 0, _ => v
  | count + 1, i => (v.put (i - 1) (v.nodeAt i)).shiftDown count (i + 1)

/-- `self.len -= 1`. -/
def shrink : RawVfs :=
  { v with len := v.len - 1, fits := Nat.le_trans (Nat.sub_le _ _) v.fits }

/-- `remove`. -/
def remove : RawOutcome Unit :=
  match v.findIndex path with
  | none => (v, .error .notFound)
  | some index =>
    if path = rootPath then (v, .error .invalidPath)
    else if (v.nodeAt index).kind = .directory
        ∧ v.live.any (fun n => directChild (v.nodeAt index).path.asStr n.path.asStr) then
      (v, .error .notEmpty)
    else ((v.shiftDown (v.len - (index + 1)) (index + 1)).shrink, .ok ())

/-- The loop of `read_dir_at`, from `ordinal` on. -/
def readDirLoop (directory : Bytes) (cursor : Nat) : Nat → List RawNode → Option RawNode
  | _, [] => none
  | ordinal, node :: rest =>
    if node.path.asStr = rootPath ∨ directChild directory node.path.asStr = false then
      readDirLoop directory cursor ordinal rest
    else if ordinal = cursor then some node
    else readDirLoop directory cursor (ordinal + 1) rest

/-- `read_dir_at`. -/
def readDirAt (directory : Bytes) (cursor : Nat) : Except VfsError (Option RawNode) :=
  match v.find directory with
  | none => .error .notFound
  | some parent =>
    if parent.kind ≠ .directory then .error .notDirectory
    else .ok (readDirLoop directory cursor 0 v.live)

/-- `init_root` on a new file system. -/
def initialised : RawVfs := (RawVfs.new.mkdir rootPath).1

/-- `seed_file`, which halts on an error: `none`. -/
def seedFile (name : Bytes) (data : Bytes) : Option RawVfs :=
  match v.write (((FixedText.fromStr rootPath).pushStr name).asStr) data with
  | (v', .ok ()) => some v'
  | (_, .error _) => none

end RawVfs

/-- The reply of a call: `write_at` returns a count, the others `()`. -/
abbrev Reply := Except VfsError (Option Nat)

/-- One call with its reply. -/
def RawVfs.perform (v : RawVfs) : VfsOp → RawVfs × Reply
  | .mkdir path => (v.mkdir path).map id (·.map fun _ => none)
  | .touch path => (v.touch path).map id (·.map fun _ => none)
  | .write path data => (v.write path data).map id (·.map fun _ => none)
  | .append path data => (v.append path data).map id (·.map fun _ => none)
  | .writeAt path offset data => (v.writeAt path offset data).map id (·.map some)
  | .truncate path => (v.truncate path).map id (·.map fun _ => none)
  | .remove path => (v.remove path).map id (·.map fun _ => none)

/-- One call on the live lists with its reply. -/
def RamVfs.perform (v : RamVfs) : VfsOp → RamVfs × Reply
  | .mkdir path => (v.mkdir path).map id (·.map fun _ => none)
  | .touch path => (v.touch path).map id (·.map fun _ => none)
  | .write path data => (v.write path data).map id (·.map fun _ => none)
  | .append path data => (v.append path data).map id (·.map fun _ => none)
  | .writeAt path offset data => (v.writeAt path offset data).map id (·.map some)
  | .truncate path => (v.truncate path).map id (·.map fun _ => none)
  | .remove path => (v.remove path).map id (·.map fun _ => none)

open RamVfs

theorem RamVfs.perform_fst (v : RamVfs) (op : VfsOp) : (v.perform op).1 = op.apply v := by
  cases op <;> rfl

/-! ## §3. The view of an array state. -/

variable {path data : Bytes} {i : Nat} {α : Type}

namespace RawVfs

/-- The live nodes with their live bytes. -/
def view (v : RawVfs) : RamVfs :=
  ⟨v.live.map RawNode.view, by
    rw [List.length_map, live, List.length_take]
    exact Nat.le_trans (Nat.min_le_left _ _) v.fits⟩

/-- An outcome seen through the view. -/
def seen {α : Type} (o : RawOutcome α) : Outcome α := (o.1.view, o.2)

variable (v : RawVfs)

theorem live_length : v.live.length = v.len := by
  have := v.fits
  rw [live, length_take, v.slots]
  omega

theorem view_length : v.view.nodes.length = v.len := by
  rw [view, length_map, live_length]

theorem view_find (path : Bytes) : v.view.find path = (v.find path).map RawNode.view := by
  show (v.live.map RawNode.view).find? _ = _
  rw [find?_map]
  rfl

theorem view_findIndex (path : Bytes) : v.view.findIndex path = v.findIndex path := by
  show (v.live.map RawNode.view).findIdx? _ = _
  rw [findIdx?_map]
  rfl

theorem view_checkParent (path : Bytes) : v.view.checkParent path = v.checkParent path := by
  unfold checkParent RamVfs.checkParent
  split
  · rfl
  cases rfind slash path with
  | none => rfl
  | some k =>
    simp only [view_find]
    cases v.find (if k = 0 then rootPath else path.take k) <;> rfl

theorem findIndex_lt (h : v.findIndex path = some i) : i < v.len := by
  obtain ⟨hi, -, -⟩ := findIdx?_eq_some_iff_getElem.mp h
  rwa [live_length] at hi

section At

variable {v} {i : Nat}

theorem live_getElem? (h : i < v.len) : v.live[i]? = some (v.nodeAt i) := by
  have := v.fits
  rw [live, getElem?_take_of_lt h, nodeAt, getD_eq_getElem?_getD,
    getElem?_eq_getElem (by rw [v.slots]; omega)]
  rfl

theorem view_getElem? (h : i < v.len) : v.view.nodes[i]? = some (v.nodeAt i).view := by
  rw [view, getElem?_map, live_getElem? h]
  rfl

theorem view_isDirectoryAt (h : i < v.len) :
    v.view.isDirectoryAt i = decide ((v.nodeAt i).kind = .directory) := by
  rw [isDirectoryAt, view_getElem? h]
  simp only [Option.any_some, RawNode.view]
  cases (v.nodeAt i).kind <;> rfl

theorem view_dataAt (h : i < v.len) : v.view.dataAt i = (v.nodeAt i).bytes := by
  rw [dataAt, view_getElem? h]
  rfl

/-- Replacing a live node replaces it in the view. -/
theorem view_put (node : RawNode) :
    (v.put i node).view.nodes = v.view.nodes.set i node.view := by
  show (List.take v.len (v.nodes.set i node)).map RawNode.view = _
  rw [take_set, map_set]
  rfl

/-- Storing bytes in a live node sets its data in the view. -/
theorem view_put_withData (h : i < v.len) {data : FixedBytes maxFileBytes} {len : Nat}
    {hl : len ≤ maxFileBytes} {bytes : Bytes} (hb : bytes.length ≤ maxFileBytes)
    (hd : data.val.take len = bytes) :
    (v.put i ((v.nodeAt i).withData data len hl)).view = v.view.setData i bytes hb := by
  apply RamVfs.ext
  subst hd
  have : Inhabited VfsNode := ⟨RawNode.empty.view⟩
  show _ = v.view.nodes.modify i _
  rw [view_put, modify_eq_set, view_getElem? h]
  rfl

end At

/-- The live part of a buffer after a range that starts inside it was
replaced. -/
theorem take_patch_eq_overlay (s : FixedBytes maxFileBytes) {len offset : Nat} (ho : offset ≤ len)
    (hl : len ≤ maxFileBytes) (hend : offset + data.length ≤ maxFileBytes) :
    (s.patch offset data).val.take (max len (offset + data.length))
      = overlay (s.val.take len) offset data := by
  have hs := s.property
  have hhead : (s.val.take offset ++ data).length = offset + data.length := by
    rw [length_append, length_take]; omega
  have hgrow : max len (offset + data.length)
      = (s.val.take offset ++ data).length + (len - (offset + data.length)) := by
    rw [hhead]; omega
  rw [val_patch hend, hgrow, take_length_add_append, take_drop,
    overlay, take_take, Nat.min_eq_left ho]
  by_cases hle : offset + data.length ≤ len
  · rw [show offset + data.length + (len - (offset + data.length)) = len by omega]
  · rw [drop_of_length_le (by rw [length_take]; omega),
      drop_of_length_le (by rw [length_take]; omega)]

/-! ## §4. Every operation commutes with the view. -/

/-- `write_data` on a live node. -/
theorem writeData_view (h : i < v.len) (data : Bytes) :
    v.view.writeData i data = seen (v.writeData i data) := by
  unfold writeData RamVfs.writeData
  split
  · rename_i hd
    refine Prod.ext ?_ rfl
    refine (view_put_withData h hd ?_).symm
    rw [storeFrom_eq_patch _ (by omega), val_patch (by omega)]
    simp
  · rfl

theorem clearLen_view (h : i < v.len) :
    (v.clearLen i).view = v.view.setData i [] (Nat.zero_le _) :=
  view_put_withData h _ rfl

/-- The view after `insert` used the next slot. -/
theorem grow_view {kind : NodeKind} (h : v.len < maxNodes) (h' : v.view.nodes.length < maxNodes) :
    (v.grow path kind h).view
      = v.view.push ⟨FixedText.fromStr path, kind, [], Nat.zero_le _⟩ h' := by
  apply RamVfs.ext
  show (List.take (v.len + 1) (v.nodes.set v.len _)).map RawNode.view = _
  rw [take_add_one, take_set_of_le (Nat.le_refl _),
    getElem?_set_self (by rw [v.slots]; exact h), map_append]
  rfl

section

variable (path : Bytes)

theorem insert_view (kind : NodeKind) (data : Bytes) :
    v.view.insert path kind data = seen (v.insert path kind data) := by
  unfold insert RamVfs.insert
  split
  · rfl
  split
  · rfl
  rw [view_find, Option.isSome_map]
  split
  · rfl
  rw [view_checkParent]
  cases v.checkParent path with
  | error e => rfl
  | ok u =>
    by_cases h : v.len < maxNodes
    · have h' : v.view.nodes.length < maxNodes := by rw [view_length]; exact h
      simp only [dif_pos h, dif_pos h']
      cases kind with
      | directory => exact Prod.ext (grow_view v h h').symm rfl
      | file =>
        simp only [view_length]
        rw [← grow_view v h h']
        exact writeData_view _ (Nat.lt_succ_self _) data
    · have h' : ¬ v.view.nodes.length < maxNodes := by rw [view_length]; exact h
      simp only [dif_neg h, dif_neg h']
      rfl

theorem touch_view : v.view.touch path = seen (v.touch path) := by
  unfold touch RamVfs.touch
  rw [view_find, Option.isSome_map]
  split
  · rfl
  · exact insert_view v path .file []

theorem write_view (path data : Bytes) : v.view.write path data = seen (v.write path data) := by
  unfold write RamVfs.write
  split
  · rfl
  rw [view_findIndex]
  cases hi : v.findIndex path with
  | none => exact insert_view v path .file data
  | some i =>
    have hlt := v.findIndex_lt hi
    simp only [view_isDirectoryAt hlt, decide_eq_true_eq]
    split
    · rfl
    · rw [← clearLen_view v hlt]
      exact writeData_view (v.clearLen i) hlt data

theorem appendAt_view (h : i < v.len) (data : Bytes) :
    v.view.appendAt i data = seen (v.appendAt i data) := by
  unfold appendAt RamVfs.appendAt
  simp only [view_isDirectoryAt h, decide_eq_true_eq, view_dataAt h]
  split
  · rfl
  have hlen := (v.nodeAt i).bytes_length
  by_cases hd : (v.nodeAt i).len + data.length ≤ maxFileBytes
  · have hd' : ((v.nodeAt i).bytes ++ data).length ≤ maxFileBytes := by
      rw [length_append, hlen]; exact hd
    rw [dif_pos hd, dif_pos hd']
    refine Prod.ext (view_put_withData h hd' ?_).symm rfl
    have hover := take_patch_eq_overlay (v.nodeAt i).data (Nat.le_refl _) (v.nodeAt i).fits hd
    rw [Nat.max_eq_right (Nat.le_add_right _ _)] at hover
    rw [storeFrom_eq_patch _ hd, hover, overlay,
      take_of_length_le (by rw [length_take]; omega),
      drop_of_length_le (by rw [length_take]; omega), append_nil]
    rfl
  · rw [dif_neg hd, dif_neg (by rw [length_append, hlen]; exact hd)]
    rfl

theorem append_view (path data : Bytes) :
    v.view.append path data = seen (v.append path data) := by
  unfold append RamVfs.append
  split
  · rfl
  rw [view_findIndex]
  cases hi : v.findIndex path with
  | some i => exact appendAt_view v (v.findIndex_lt hi) data
  | none =>
    simp only [insert_view]
    obtain ⟨w, result⟩ := v.insert path .file []
    cases result with
    | error e => rfl
    | ok =>
      simp only [seen, view_findIndex]
      cases hj : w.findIndex path with
      | none => rfl
      | some j => exact appendAt_view w (w.findIndex_lt hj) data

theorem writeAt_view (offset : Nat) (data : Bytes) :
    v.view.writeAt path offset data = seen (v.writeAt path offset data) := by
  unfold writeAt RamVfs.writeAt
  rw [view_findIndex]
  cases hi : v.findIndex path with
  | none => rfl
  | some i =>
    have hlt := v.findIndex_lt hi
    simp only [view_isDirectoryAt hlt, decide_eq_true_eq, view_dataAt hlt, RawNode.bytes_length]
    split
    · rfl
    split
    · rfl
    rename_i ho
    split
    · rename_i hd
      refine Prod.ext (view_put_withData hlt _ ?_).symm rfl
      exact take_patch_eq_overlay _ (Nat.le_of_not_lt ho) (v.nodeAt i).fits hd
    · rfl

theorem truncate_view : v.view.truncate path = seen (v.truncate path) := by
  unfold truncate RamVfs.truncate
  rw [view_findIndex]
  cases hi : v.findIndex path with
  | none => rfl
  | some i =>
    have hlt := v.findIndex_lt hi
    simp only [view_isDirectoryAt hlt, decide_eq_true_eq]
    split
    · rfl
    · exact Prod.ext (clearLen_view v hlt).symm rfl

/-- The loop of `remove` moves the nodes behind `i` down over the node
before it; the last slot of the range keeps its stale copy. -/
theorem shiftDown_nodes (count i : Nat) (hi : 0 < i) (hend : i + count ≤ maxNodes) :
    (v.shiftDown count i).nodes
      = v.nodes.take (i - 1) ++ (v.nodes.drop i).take count ++ v.nodes.drop (i - 1 + count)
    ∧ (v.shiftDown count i).len = v.len := by
  induction count generalizing v i with
  | zero => simp [shiftDown]
  | succ count ih =>
    have hs := v.slots
    obtain ⟨hnodes, hlen⟩ := ih (v.put (i - 1) (v.nodeAt i)) (i + 1) (by omega) (by omega)
    refine ⟨?_, hlen⟩
    have hnode : v.nodes.drop i = v.nodeAt i :: v.nodes.drop (i + 1) := by
      rw [drop_eq_getElem_cons (by omega), nodeAt, getD_eq_getElem?_getD,
        getElem?_eq_getElem (by omega)]
      rfl
    have htake : (v.nodes.set (i - 1) (v.nodeAt i)).take i
        = v.nodes.take (i - 1) ++ [v.nodeAt i] := by
      rw [show i = (i - 1) + 1 by omega, take_add_one, take_set_of_le (by omega)]
      simp only [Nat.add_sub_cancel]
      rw [getElem?_set_self (by omega)]
      rfl
    rw [shiftDown, hnodes]
    simp only [put, Nat.add_sub_cancel]
    rw [htake, drop_set_of_lt (by omega), drop_set_of_lt (by omega), hnode,
      show i - 1 + (count + 1) = i + count by omega]
    simp

theorem remove_view : v.view.remove path = seen (v.remove path) := by
  unfold remove RamVfs.remove
  rw [view_findIndex]
  cases hi : v.findIndex path with
  | none => rfl
  | some i =>
    have hlt := v.findIndex_lt hi
    have hfits := v.fits
    have hown : ((v.view.nodes[i]?).map (fun n => n.path.asStr)).getD []
        = (v.nodeAt i).path.asStr := by
      rw [view_getElem? hlt]
      rfl
    have hany : v.view.nodes.any (fun n => directChild (v.nodeAt i).path.asStr n.path.asStr)
        = v.live.any (fun n => directChild (v.nodeAt i).path.asStr n.path.asStr) := by
      rw [view, any_map]
      rfl
    simp only [hown, hany, view_isDirectoryAt hlt, Bool.and_eq_true, decide_eq_true_eq]
    split
    · rfl
    split
    · rfl
    refine Prod.ext (RamVfs.ext ?_) rfl
    obtain ⟨hnodes, hlen⟩ := shiftDown_nodes v (v.len - (i + 1)) (i + 1) (by omega) (by omega)
    show v.view.nodes.eraseIdx i
      = (List.take ((v.shiftDown _ _).len - 1) (v.shiftDown _ _).nodes).map RawNode.view
    have hkept : (v.nodes.take i ++ (v.nodes.drop (i + 1)).take (v.len - (i + 1))).length
        = v.len - 1 := by
      rw [length_append, length_take, length_take, length_drop, v.slots]
      omega
    rw [hnodes, hlen, Nat.add_sub_cancel, take_append_of_le_length (Nat.le_of_eq hkept.symm),
      take_of_length_le (Nat.le_of_eq hkept), eraseIdx_eq_take_drop_succ]
    simp only [view, live, ← map_take, ← map_drop, ← map_append, drop_take,
      take_take, Nat.min_eq_left (Nat.le_of_lt hlt)]

/-- **Every call commutes with the view and gives the same reply.** -/
theorem perform_view (op : VfsOp) :
    v.view.perform op = ((v.perform op).1.view, (v.perform op).2) := by
  cases op with
  | mkdir path => exact congrArg (Prod.map id _) (insert_view v path .directory [])
  | touch path => exact congrArg (Prod.map id _) (touch_view v path)
  | write path data => exact congrArg (Prod.map id _) (write_view v path data)
  | append path data => exact congrArg (Prod.map id _) (append_view v path data)
  | writeAt path offset data => exact congrArg (Prod.map id _) (writeAt_view v path offset data)
  | truncate path => exact congrArg (Prod.map id _) (truncate_view v path)
  | remove path => exact congrArg (Prod.map id _) (remove_view v path)

/-! ## §5. Failed calls. -/

/-- An outcome that is an error kept the state. -/
def KeepsOnError {α : Type} (o : RawOutcome α) : Prop := ∀ e, o.2 = .error e → o.1 = v

theorem keepsOnError_ok (w : RawVfs) (a : α) : v.KeepsOnError (w, .ok a) :=
  fun _ h => nomatch h

theorem keepsOnError_self (r : Except VfsError α) : v.KeepsOnError (v, r) :=
  fun _ _ => rfl

theorem writeData_ok (h : data.length ≤ maxFileBytes) (i : Nat) :
    ∃ w, v.writeData i data = (w, .ok ()) := by
  rw [writeData, dif_pos h]
  exact ⟨_, rfl⟩

theorem insert_keeps (kind : NodeKind) (data : Bytes) :
    v.KeepsOnError (v.insert path kind data) := by
  unfold insert
  split
  · exact keepsOnError_self v _
  rename_i hsize
  split
  · exact keepsOnError_self v _
  split
  · exact keepsOnError_self v _
  split
  · exact keepsOnError_self v _
  split
  · cases kind with
    | directory => exact keepsOnError_ok v _ _
    | file =>
      -- the size was tested before the slot was taken
      have hd : data.length ≤ maxFileBytes := by simpa using hsize
      obtain ⟨w, hw⟩ := (v.grow path .file ‹_›).writeData_ok hd v.len
      show v.KeepsOnError ((v.grow path .file _).writeData v.len data)
      rw [hw]
      exact keepsOnError_ok v _ _
  · exact keepsOnError_self v _

theorem touch_keeps : v.KeepsOnError (v.touch path) := by
  unfold touch
  split
  · exact keepsOnError_self v _
  · exact insert_keeps v path .file []

end

theorem write_keeps (path data : Bytes) : v.KeepsOnError (v.write path data) := by
  unfold write
  split
  · exact keepsOnError_self v _
  rename_i hsize
  split
  · split
    · exact keepsOnError_self v _
    rename_i i _ _
    obtain ⟨w, hw⟩ := (v.clearLen i).writeData_ok (Nat.le_of_not_lt hsize) i
    rw [hw]
    exact keepsOnError_ok v _ _
  · exact insert_keeps v path .file data

theorem appendAt_keeps (i : Nat) (data : Bytes) : v.KeepsOnError (v.appendAt i data) := by
  unfold appendAt
  dsimp only
  split
  · exact keepsOnError_self v _
  split
  · exact keepsOnError_ok v _ _
  · exact keepsOnError_self v _

/-- A file that was just inserted takes any bytes a file can hold. -/
theorem append_inserted {w : RawVfs} (hins : v.insert path .file [] = (w, .ok ()))
    (hd : data.length ≤ maxFileBytes) :
    ∃ i, w.findIndex path = some i ∧ ∃ w', w.appendAt i data = (w', .ok ()) := by
  have hview := insert_view v path .file []
  rw [hins] at hview
  rcases v.view.insert_error_or_ok path .file [] with ⟨e, he⟩ | hok
  · rw [he] at hview
    exact absurd (congrArg Prod.snd hview) (by simp [seen])
  rw [insert_of_ok hok] at hview
  have hw : w.view = v.view.push (inserted path .file [] hok.size) hok.room :=
    (congrArg Prod.fst hview).symm
  have hi : w.findIndex path = some v.view.nodes.length := by
    rw [← view_findIndex, hw]
    exact findIndex_push hok
  have hnode : (w.nodeAt v.view.nodes.length).view = inserted path .file [] hok.size := by
    have hat := view_getElem? (w.findIndex_lt hi)
    rw [hw, push, getElem?_append_right (Nat.le_refl _), Nat.sub_self] at hat
    exact (Option.some.inj hat).symm
  have hkind : (w.nodeAt v.view.nodes.length).kind = .file := congrArg VfsNode.kind hnode
  have hlen : (w.nodeAt v.view.nodes.length).len = 0 := by
    rw [← RawNode.bytes_length]
    exact congrArg (fun n => n.data.length) hnode
  refine ⟨_, hi, ?_⟩
  rw [appendAt]
  simp only [hkind, reduceCtorEq, if_false]
  rw [dif_pos (by rw [hlen]; omega)]
  exact ⟨_, rfl⟩

theorem append_keeps (path data : Bytes) : v.KeepsOnError (v.append path data) := by
  unfold append
  split
  · exact keepsOnError_self v _
  rename_i hsize
  split
  · exact appendAt_keeps v _ data
  have hkeep := insert_keeps v path .file []
  split
  · rename_i w e hins
    rw [hins] at hkeep
    exact fun _ _ => hkeep e rfl
  · rename_i w hins
    obtain ⟨i, hi, w', hw'⟩ := append_inserted v hins (Nat.le_of_not_lt hsize)
    rw [hi]
    show v.KeepsOnError (w.appendAt i data)
    rw [hw']
    exact keepsOnError_ok v _ _

theorem writeAt_keeps (path : Bytes) (offset : Nat) (data : Bytes) :
    v.KeepsOnError (v.writeAt path offset data) := by
  unfold writeAt
  split
  · exact keepsOnError_self v _
  dsimp only
  split
  · exact keepsOnError_self v _
  split
  · exact keepsOnError_self v _
  split
  · exact keepsOnError_ok v _ _
  · exact keepsOnError_self v _

theorem truncate_keeps (path : Bytes) : v.KeepsOnError (v.truncate path) := by
  unfold truncate
  split
  · exact keepsOnError_self v _
  split
  · exact keepsOnError_self v _
  · exact keepsOnError_ok v _ _

theorem remove_keeps (path : Bytes) : v.KeepsOnError (v.remove path) := by
  unfold remove
  split
  · exact keepsOnError_self v _
  split
  · exact keepsOnError_self v _
  split
  · exact keepsOnError_self v _
  · exact keepsOnError_ok v _ _

theorem KeepsOnError.map {β : Type} {o : RawOutcome α} (h : v.KeepsOnError o) (f : α → β) :
    v.KeepsOnError (o.map id (·.map f)) := by
  intro e he
  cases o with
  | mk w r =>
    cases r with
    | ok a => nomatch he
    | error e' => exact h e' rfl

/-- **A call that returns an error changes nothing.** -/
theorem perform_error (op : VfsOp) : v.KeepsOnError (v.perform op) := by
  cases op with
  | mkdir path => exact (insert_keeps v path .directory []).map v _
  | touch path => exact (touch_keeps v path).map v _
  | write path data => exact (write_keeps v path data).map v _
  | append path data => exact (append_keeps v path data).map v _
  | writeAt path offset data => exact (writeAt_keeps v path offset data).map v _
  | truncate path => exact (truncate_keeps v path).map v _
  | remove path => exact (remove_keeps v path).map v _

end RawVfs

end GenOS.Vfs
