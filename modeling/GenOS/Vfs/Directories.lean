/-
  GenOS.Vfs.Directories — what a directory capability reaches.

  A program that holds a directory names a file in it with `join_child_path`, and
  lists it with `read_dir_at`.  The path of a name has the directory as parent, in
  the sense of the listing and in that of `insert`; and the listing goes through
  the nodes with this parent, one cursor after the other.
-/
import GenOS.Vfs.FileMap

namespace GenOS.Vfs

open GenOS.Lib List

/-! ## §1. Names. -/

theorem validName_no_slash {name : Bytes} (h : validName name = true) : slash ∉ name := by
  intro hs
  have hbyte := ((validName_iff name).mp h).2.2.2.2 slash hs
  exact absurd hbyte (by decide)

theorem validName_isAscii {name : Bytes} (h : validName name = true) :
    ∀ b ∈ name, isAscii b = true :=
  fun b hb => nameByte_isAscii b (((validName_iff name).mp h).2.2.2.2 b hb)

/-- A component more. -/
theorem validAbsolutePath_append {parent name : Bytes} (hp : validAbsolutePath parent = true)
    (hroot : parent ≠ rootPath) (hname : validName name = true)
    (hlen : (parent ++ slash :: name).length ≤ userPathMax) :
    validAbsolutePath (parent ++ slash :: name) = true := by
  obtain ⟨-, h | ⟨rest, rfl, hrest⟩⟩ := (validAbsolutePath_iff parent).mp hp
  · exact absurd h hroot
  refine (validAbsolutePath_iff _).mpr ⟨hlen, .inr ⟨rest ++ slash :: name, rfl, ?_⟩⟩
  rw [splitOn_last rest (validName_no_slash hname)]
  intro c hc
  rcases mem_append.mp hc with hc | hc
  · exact hrest c hc
  · rw [mem_singleton.mp hc]
    exact hname

theorem writableDirectory_ne_root {path : Bytes} (h : isUserWritableDirectory path = true) :
    path ≠ rootPath := by
  intro hroot
  rw [hroot] at h
  exact absurd h (by decide)

section Join

variable {parent name child : FixedText}

/-- Below a directory other than the root nothing is cut off. -/
theorem joinChildPath_some (hroot : parent.asStr ≠ rootPath)
    (h : joinChildPath parent name = some child) :
    validAbsolutePath parent.asStr = true ∧ validName name.asStr = true
      ∧ child.asStr = parent.asStr ++ slash :: name.asStr
      ∧ child.asStr.length ≤ userPathMax := by
  unfold joinChildPath at h
  split at h
  · cases h
  rename_i hvalid
  simp only [not_or, Bool.not_eq_false] at hvalid
  obtain ⟨hparent, hname⟩ := hvalid
  simp only [length_singleton] at h
  split at h
  · cases h
  rename_i hfits
  have hmax : userPathMax = 64 := rfl
  have hline : maxLineBytes = 160 := rfl
  split at h
  · cases h
    have hslash : (parent.pushStr [slash]).asStr = parent.asStr ++ [slash] :=
      parent.pushStr_asStr (by rw [length_singleton]; omega)
        (forall_mem_singleton.mpr rfl)
    have hlen : (parent.pushStr [slash]).len = parent.len + 1 := by
      show (parent.pushStr [slash]).asStr.length = _
      rw [hslash, length_append]
      rfl
    have hpath : ((parent.pushStr [slash]).pushStr name.asStr).asStr
        = parent.asStr ++ slash :: name.asStr := by
      have hroom : (parent.pushStr [slash]).len + name.asStr.length ≤ maxLineBytes := by
        show _ + name.len ≤ _
        omega
      rw [FixedText.pushStr_asStr _ hroom (validName_isAscii hname), hslash, append_assoc]
      rfl
    refine ⟨hparent, hname, hpath, ?_⟩
    rw [hpath, length_append, length_cons]
    show parent.len + (name.len + 1) ≤ _
    omega
  · cases h

/-- **Names stay in their directory.**  What a name in a writable directory is joined
to is valid and writable, is the directory with that one component behind it, counts
as its direct child, and is inserted below the directory. -/
theorem join_child_path_confines (hdir : isUserWritableDirectory parent.asStr = true)
    (hjoin : joinChildPath parent name = some child) :
    validAbsolutePath child.asStr = true ∧ isUserWritablePath child.asStr = true
      ∧ (child.asStr = parent.asStr ++ slash :: name.asStr ∧ validName name.asStr = true)
      ∧ directChild parent.asStr child.asStr = true
      ∧ ∀ v : RawVfs, v.checkParent child.asStr =
        match v.find parent.asStr with
        | none => .error .notFound
        | some p => if p.kind = .directory then .ok () else .error .notDirectory := by
  have hroot := writableDirectory_ne_root hdir
  obtain ⟨hparent, hname, hpath, hlen⟩ := joinChildPath_some hroot hjoin
  have hslash := validName_no_slash hname
  rw [hpath] at hlen ⊢
  have hvalid := validAbsolutePath_append hparent hroot hname hlen
  refine ⟨hvalid, isUserWritablePath_of_fold hvalid ?_, ⟨rfl, hname⟩, ?_, fun v => ?_⟩
  · have h5 : userRoot.length = 5 := rfl
    rcases Bool.or_eq_true_iff.mp hdir with hroot | hbelow
    · have hfold := (eqIgnoreAsciiCase_iff _ _).mp hroot
      have hfive : parent.asStr.length = 5 := by simpa [h5] using congrArg List.length hfold
      rw [show (6 : Nat) = parent.asStr.length + 1 by omega, List.take_length_add_append,
        foldCase_append, hfold]
      rfl
    · obtain ⟨-, hsix, hfold⟩ := (isUserWritablePath_iff _).mp hbelow
      rw [List.take_append_of_le_length (Nat.le_of_lt hsix), hfold]
  · refine (directChild_below_iff hroot _).mpr ⟨⟨?_, ?_⟩, name.asStr, List.drop_left,
      ((validName_iff _).mp hname).1, hslash⟩
    · rw [List.length_append]
      omega
    · rw [List.take_left]
  · -- the last slash is the one before the name
    have hlast : rfind slash (parent.asStr ++ slash :: name.asStr) = some parent.asStr.length :=
      (rfind_eq_some_iff slash _ _).mpr ⟨parent.asStr, name.asStr, rfl, rfl, hslash⟩
    have hne : parent.asStr ≠ [] := by
      intro hnil
      rw [hnil] at hparent
      exact absurd hparent (by decide)
    have hnotRoot : parent.asStr ++ slash :: name.asStr ≠ rootPath := by
      intro h
      have hlen := congrArg List.length h
      have hpos := List.length_pos_of_ne_nil hne
      simp only [List.length_append, List.length_cons, rootPath, ascii, List.map_cons,
        List.map_nil, List.length_nil] at hlen
      omega
    unfold RawVfs.checkParent
    rw [if_neg hnotRoot, hlast]
    dsimp only
    rw [if_neg (fun h => hne (List.length_eq_zero_iff.mp h)), List.take_left]
    cases v.find parent.asStr <;> rfl

end Join

/-- `A` in `/user` is `/user/A`. -/
theorem join_child_path_confines_user :
    let parent := FixedText.fromStr (ascii ['/', 'u', 's', 'e', 'r'])
    let child := FixedText.fromStr (ascii ['/', 'u', 's', 'e', 'r', '/', 'A'])
    joinChildPath parent (FixedText.fromStr (ascii ['A'])) = some child
      ∧ isUserWritablePath child.asStr = true := by
  intro parent child
  have hjoin : joinChildPath parent (FixedText.fromStr (ascii ['A'])) = some child := by
    decide +kernel
  exact ⟨hjoin, (join_child_path_confines (by decide +kernel) hjoin).2.1⟩

/-! ## §2. Listings. -/

/-- The case-folded paths in the array. -/
def RawVfs.keys (v : RawVfs) : List Bytes := v.live.map fun n => foldCase n.path.asStr

theorem RawVfs.view_keys (v : RawVfs) : v.view.keys = v.keys := map_map

/-- **A directory is listed completely.**  In every reachable file system the cursors
of a directory, in any spelling, give the nodes with this parent one by one, and then
none.  The array has them in the order of their insertion: in every call the nodes that
stay keep their order, in front of a new one. -/
theorem read_dir_at_complete {v : RawVfs} {m : FileMap} (h : VfsRun v m) {directory : Bytes}
    {d : RawNode} (hd : v.find directory = some d) (hk : d.kind = .directory) :
    (v.children directory).Nodup
      ∧ (∀ cursor (hc : cursor < (v.children directory).length),
        v.readDirAt directory cursor = .ok (some (v.children directory)[cursor]))
      ∧ (∀ cursor, (v.children directory).length ≤ cursor →
        v.readDirAt directory cursor = .ok none)
      ∧ ∀ op, v.keys.filter (· ∈ (v.perform op).1.keys) <+: (v.perform op).1.keys := by
  obtain ⟨hi, -⟩ := h.sound
  refine ⟨.of_map _ (RawVfs.children_nodup hi directory), ?_, ?_, fun op => ?_⟩
  · intro cursor hc
    rw [RawVfs.readDirAt_children hi hd hk, List.getElem?_eq_getElem hc]
  · intro cursor hc
    rw [RawVfs.readDirAt_children hi hd hk, List.getElem?_eq_none hc]
  · have hview : (v.perform op).1.view = op.apply v.view := by
      rw [← RamVfs.perform_fst, v.perform_view op]
    rw [← RawVfs.view_keys, ← RawVfs.view_keys, hview]
    exact hi.survivors op

/-- Two names with a common beginning, one of them in a directory of its own. -/
theorem read_dir_at_complete_prefix :
    let v := (((RawVfs.initialised.perform (.mkdir (ascii ['/', 'A']))).1.perform
      (.touch (ascii ['/', 'A', 'B']))).1.perform (.touch (ascii ['/', 'A', '/', 'C']))).1
    (∃ d, v.find (ascii ['/', 'a']) = some d ∧ d.kind = .directory)
      ∧ (v.children (ascii ['/', 'a'])).length = 1
      ∧ v.readDirAt (ascii ['/', 'a']) 1 = .ok none := by
  intro v
  have hrun := ((VfsRun.init.call (.mkdir (ascii ['/', 'A']))).call
    (.touch (ascii ['/', 'A', 'B']))).call (.touch (ascii ['/', 'A', '/', 'C']))
  have hlen : (v.children (ascii ['/', 'a'])).length = 1 := by decide +kernel
  obtain ⟨d, hd⟩ : ∃ d, v.find (ascii ['/', 'a']) = some d :=
    Option.isSome_iff_exists.mp (by decide +kernel)
  have hkind : ((v.find (ascii ['/', 'a'])).map RawNode.kind) = some .directory := by
    decide +kernel
  have hk : d.kind = .directory := by simpa [hd] using hkind
  exact ⟨⟨d, hd, hk⟩, hlen, (read_dir_at_complete hrun hd hk).2.2.1 1 (Nat.le_of_eq hlen)⟩

end GenOS.Vfs
