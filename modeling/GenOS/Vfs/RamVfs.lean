/-
  GenOS.Vfs.RamVfs — the RAM file system of `vfs.rs`.

  `RamVfs` is the list of its live nodes in insertion order (`nodes[..len]`);
  a node's `data` is the live part `data[..len]` of its buffer.  Both
  capacities are fields, so no oversized value exists.  A mutating operation
  returns the file system after the call together with the `Result`, because
  an `Err` does not by itself undo earlier assignments.

  `VfsInv` is the structural invariant of every file system reached from an
  initialised root: the root comes first, paths are valid and unique up to
  letter case, every other node's parent is a directory stored before it,
  and directories hold no bytes (`reachable_inv`).
-/
import GenOS.Vfs.PathPolicy

namespace GenOS.Vfs

open GenOS.Lib

/-! ## §1. Data model. -/

/-- `MAX_NODES`. -/
def maxNodes : Nat := 32

/-- `MAX_FILE_BYTES`. -/
def maxFileBytes : Nat := 512

inductive NodeKind where
  | file
  | directory
  deriving DecidableEq, Repr

inductive VfsError where
  | alreadyExists
  | notFound
  | noSpace
  | isDirectory
  | notDirectory
  | notEmpty
  | invalidPath
  | invalidOffset
  deriving DecidableEq, Repr

@[ext] structure VfsNode where
  path : FixedText
  kind : NodeKind
  data : Bytes
  fits : data.length ≤ maxFileBytes
  deriving DecidableEq

@[ext] structure RamVfs where
  nodes : List VfsNode
  fits : nodes.length ≤ maxNodes
  deriving DecidableEq

/-- The result of a mutating call: the state after it and its `Result`. -/
abbrev Outcome (α : Type) := RamVfs × Except VfsError α

namespace RamVfs

/-- `RamVfs::new`. -/
def new : RamVfs := ⟨[], Nat.zero_le _⟩

variable (v : RamVfs) (path : Bytes) (index : Nat) (data : Bytes)

/-- `find`. -/
def find : Option VfsNode :=
  v.nodes.find? (fun node => eqIgnoreAsciiCase node.path.asStr path)

/-- `find_index`. -/
def findIndex : Option Nat :=
  v.nodes.findIdx? (fun node => eqIgnoreAsciiCase node.path.asStr path)

/-- `list_root`: every node but the root, in order. -/
def listRoot : List VfsNode := v.nodes.filter (fun n => n.path.asStr != rootPath)

/-- `count`. -/
def count : Nat := v.nodes.length

/-- Replace the bytes of the node at `index`. -/
def setData (h : data.length ≤ maxFileBytes) : RamVfs :=
  ⟨v.nodes.modify index (fun n => { n with data := data, fits := h }), by
    rw [List.length_modify]; exact v.fits⟩

/-- Append a node while there is room. -/
def push (node : VfsNode) (h : v.nodes.length < maxNodes) : RamVfs :=
  ⟨v.nodes ++ [node], by rw [List.length_append]; exact h⟩

/-- `self.nodes[index].kind == NodeKind::Directory`. -/
def isDirectoryAt : Bool :=
  (v.nodes[index]?).any (fun n => n.kind == .directory)

/-- `self.nodes[index].data()`. -/
def dataAt : Bytes := ((v.nodes[index]?).map VfsNode.data).getD []

theorem dataAt_length : (v.dataAt index).length ≤ maxFileBytes := by
  unfold dataAt
  cases v.nodes[index]? with
  | none => exact Nat.zero_le _
  | some n => exact n.fits

/-- `old` with `data` stored from `offset` on, grown as far as `data` reaches. -/
def overlay (old : Bytes) (offset : Nat) (data : Bytes) : Bytes :=
  old.take offset ++ data ++ old.drop (offset + data.length)

theorem overlay_length_le {old : Bytes} {offset : Nat} {data : Bytes} {bound : Nat}
    (hold : old.length ≤ bound) (hend : offset + data.length ≤ bound) :
    (overlay old offset data).length ≤ bound := by
  simp only [overlay, List.length_append, List.length_take, List.length_drop]
  omega

/-! ## §2. Operations. -/

/-- `write_data`. -/
def writeData : Outcome Unit :=
  if h : data.length ≤ maxFileBytes then (v.setData index data h, .ok ())
  else (v, .error .noSpace)

/-- The parent test inside `insert`. -/
def checkParent : Except VfsError Unit :=
  if path = rootPath then .ok ()
  else
    match rfind slash path with
    | none => .error .invalidPath
    | some slashIndex =>
      let parent := if slashIndex = 0 then rootPath else path.take slashIndex
      match v.find parent with
      | some node => if node.kind = .directory then .ok () else .error .notDirectory
      | none => .error .notFound

/-- `insert`. -/
def insert (kind : NodeKind) (data : Bytes) : Outcome Unit :=
  if kind = .file ∧ maxFileBytes < data.length then (v, .error .noSpace)
  else if validAbsolutePath path = false then (v, .error .invalidPath)
  else if (v.find path).isSome then (v, .error .alreadyExists)
  else
    match v.checkParent path with
    | .error e => (v, .error e)
    | .ok () =>
      if h : v.nodes.length < maxNodes then
        let v' := v.push ⟨FixedText.fromStr path, kind, [], Nat.zero_le _⟩ h
        match kind with
        | .file => v'.writeData v.nodes.length data
        | .directory => (v', .ok ())
      else (v, .error .noSpace)

/-- `mkdir`. -/
def mkdir : Outcome Unit := v.insert path .directory []

/-- `touch`. -/
def touch : Outcome Unit :=
  if (v.find path).isSome then (v, .ok ()) else v.insert path .file []

/-- `write`. -/
def write : Outcome Unit :=
  if maxFileBytes < data.length then (v, .error .noSpace)
  else
    match v.findIndex path with
    | some index =>
      if v.isDirectoryAt index then (v, .error .isDirectory)
      else (v.setData index [] (Nat.zero_le _)).writeData index data
    | none => v.insert path .file data

/-- The tail of `append`, on the node that exists by then. -/
def appendAt : Outcome Unit :=
  if v.isDirectoryAt index then (v, .error .isDirectory)
  else if h : (v.dataAt index ++ data).length ≤ maxFileBytes then
    (v.setData index (v.dataAt index ++ data) h, .ok ())
  else (v, .error .noSpace)

/-- `append`. -/
def append : Outcome Unit :=
  if maxFileBytes < data.length then (v, .error .noSpace)
  else
    match v.findIndex path with
    | some index => v.appendAt index data
    | none =>
      match v.insert path .file [] with
      | (v', .error e) => (v', .error e)
      | (v', .ok ()) =>
        match v'.findIndex path with
        | some index => v'.appendAt index data
        | none => (v', .error .notFound)

/-- `write_at`. -/
def writeAt (offset : Nat) (data : Bytes) : Outcome Nat :=
  match v.findIndex path with
  | none => (v, .error .notFound)
  | some index =>
    if v.isDirectoryAt index then (v, .error .isDirectory)
    else if (v.dataAt index).length < offset then (v, .error .invalidOffset)
    else
      if h : offset + data.length ≤ maxFileBytes then
        (v.setData index (overlay (v.dataAt index) offset data)
          (overlay_length_le (v.dataAt_length index) h), .ok data.length)
      else (v, .error .noSpace)

/-- `truncate`. -/
def truncate : Outcome Unit :=
  match v.findIndex path with
  | none => (v, .error .notFound)
  | some index =>
    if v.isDirectoryAt index then (v, .error .isDirectory)
    else (v.setData index [] (Nat.zero_le _), .ok ())

/-- `read`. -/
def read : Except VfsError Bytes :=
  match v.find path with
  | none => .error .notFound
  | some node => if node.kind = .directory then .error .isDirectory else .ok node.data

end RamVfs

/-- `direct_child`. -/
def directChild (directory candidate : Bytes) : Bool :=
  let named : Bytes → Bool := fun suffix =>
    match suffix with
    | b :: name => b == slash && !name.isEmpty && !name.contains slash
    | [] => false
  if directory = rootPath then named candidate
  else decide (directory.length ≤ candidate.length)
    && eqIgnoreAsciiCase (candidate.take directory.length) directory
    && named (candidate.drop directory.length)

namespace RamVfs

/-- `remove`: the nodes behind the removed one move down by one. -/
def remove (v : RamVfs) (path : Bytes) : Outcome Unit :=
  match v.findIndex path with
  | none => (v, .error .notFound)
  | some index =>
    if path = rootPath then (v, .error .invalidPath)
    else
      let own := ((v.nodes[index]?).map (fun n => n.path.asStr)).getD []
      if v.isDirectoryAt index && v.nodes.any (fun n => directChild own n.path.asStr) then
        (v, .error .notEmpty)
      else
        (⟨v.nodes.eraseIdx index, Nat.le_trans (List.length_eraseIdx_le ..) v.fits⟩, .ok ())

/-- `init_root` on a new file system. -/
def initialised : RamVfs := (RamVfs.new.mkdir rootPath).1

end RamVfs

/-! ## §3. Runs of operations. -/

/-- One call of a mutating operation, with any arguments. -/
inductive VfsOp where
  | mkdir (path : Bytes)
  | touch (path : Bytes)
  | write (path data : Bytes)
  | append (path data : Bytes)
  | writeAt (path : Bytes) (offset : Nat) (data : Bytes)
  | truncate (path : Bytes)
  | remove (path : Bytes)

/-- The state after one call, whether it succeeds or not. -/
def VfsOp.apply (v : RamVfs) : VfsOp → RamVfs
  | .mkdir path => (v.mkdir path).1
  | .touch path => (v.touch path).1
  | .write path data => (v.write path data).1
  | .append path data => (v.append path data).1
  | .writeAt path offset data => (v.writeAt path offset data).1
  | .truncate path => (v.truncate path).1
  | .remove path => (v.remove path).1

/-- The file systems reached from an initialised root. -/
inductive Reachable : RamVfs → Prop
  | init : Reachable RamVfs.initialised
  | step {v : RamVfs} (op : VfsOp) : Reachable v → Reachable (op.apply v)

end GenOS.Vfs
