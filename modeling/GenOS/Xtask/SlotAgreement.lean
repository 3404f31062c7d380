/-
  GenOS.Xtask.SlotAgreement — the inspector and the kernel read the same slots.

  Both parsers are run on the same bytes.  Entry by entry they accept the same
  input and produce the same path, kind and data (`scanEntries_agrees`), so
  every slot is valid for both or for neither (`decodeFilesystemSlot_agrees`).
  The entries are those the kernel mounts, in the same order
  (`applySnapshot_entries`).
-/
import GenOS.Xtask.Inspector
import GenOS.Storage.RoundTrip

namespace GenOS.Xtask

open GenOS.Lib GenOS.Vfs GenOS.Storage List

/-! ## §1. The entries the kernel decodes. -/

/-- The entries of a slot in the order `apply_snapshot` decodes them. -/
def decodedEntries (snapshot : Snapshot) (used : Nat) : Nat → Nat → Except StorageError (List Entry)
  | 0, _ => .ok []
  | remaining + 1, cursor =>
    match decodeEntry snapshot cursor used with
    | .error e => .error e
    | .ok (entry, next) =>
      match decodedEntries snapshot used remaining next with
      | .error e => .error e
      | .ok rest => .ok (entry :: rest)

/-- All entries of a slot. -/
def slotEntries (snapshot : Snapshot) : Except StorageError (List Entry) :=
  decodedEntries snapshot (usedBytes snapshot) (entryCount snapshot) recordHeaderBytes

/-- The kernel's kind of an inspected entry. -/
def kindOf (directory : Bool) : NodeKind := if directory then .directory else .file

variable (entries : List InspectedEntry) (e : InspectedEntry)

/-- An inspected entry as the kernel has it. -/
def toEntry : Entry := ⟨e.path, kindOf e.directory, e.data⟩

/-- The row `validate_snapshot` keeps of an entry. -/
def priorRow : Bytes × NodeKind := (e.path, kindOf e.directory)

/-! ## §2. Paths. -/

/-- A component is no longer than the text it was split from. -/
theorem length_of_mem_splitOn {sep : UInt8} (s : Bytes) :
    ∀ c ∈ s.splitOn sep, c.length ≤ s.length := by
  induction hlen : s.length using Nat.strongRecOn generalizing s with
  | ind n ih =>
    intro c hc
    by_cases hmem : sep ∈ s
    · obtain ⟨a, b, rfl, ha⟩ := eq_append_cons_of_mem hmem
      rw [splitOn_append_sep ha] at hc
      simp only [length_append, length_cons] at hlen
      rcases mem_cons.mp hc with rfl | hc
      · omega
      · have := ih b.length (by omega) b rfl c hc
        omega
    · rw [splitOn_of_notMem hmem] at hc
      rw [mem_singleton.mp hc]
      omega

/-- A short component is refused by the inspector iff its name is invalid. -/
theorem badComponent_eq {c : Bytes} (h : c.length ≤ userPathMax) :
    badComponent c = !validName c := by
  have hname : c.all (fun byte => isAsciiAlphanumeric byte || byte == '.'.toUInt8
      || byte == '_'.toUInt8 || byte == '-'.toUInt8) = c.all nameByte := rfl
  unfold badComponent validName
  rw [hname, decide_eq_true h]
  cases c.isEmpty <;> cases hd : (c == ascii ['.']) <;> cases hdd : (c == ascii ['.', '.'])
    <;> simp [bne, hd, hdd]

theorem any_badComponent {s : Bytes} (h : s.length ≤ userPathMax) :
    (s.splitOn slash).any badComponent = !(s.splitOn slash).all validName := by
  have hlist : ∀ l : List Bytes, (∀ c ∈ l, c.length ≤ userPathMax) →
      l.any badComponent = !l.all validName := by
    intro l
    induction l with
    | nil => exact fun _ => rfl
    | cons c l ih =>
      intro hl
      rw [any_cons, all_cons, badComponent_eq (hl c mem_cons_self),
        ih (fun x hx => hl x (mem_cons_of_mem _ hx)), Bool.not_and]
  exact hlist _ (fun c hc => Nat.le_trans (length_of_mem_splitOn s c hc) h)

/-- Below `/USER/` the kernel's path test is one of length and components. -/
theorem validAbsolutePath_below {path : Bytes} (h : userWritablePrefix <+: path) :
    validAbsolutePath path
      = (decide (path.length ≤ userPathMax) && ((path.drop 1).splitOn slash).all validName) := by
  obtain ⟨rest, rfl⟩ := h
  have hne : ((userWritablePrefix ++ rest) == rootPath) = false := by
    simp [userWritablePrefix, rootPath, ascii]
  unfold validAbsolutePath
  rw [hne, Bool.false_or]
  rfl

/-- **The two path tests are complementary.** -/
theorem badPath_eq (path : Bytes) (n : Nat) :
    badPath entries path n = !(userWritablePrefix.isPrefixOf path && validAbsolutePath path
      && decide (n ≤ maxFileBytes)
      && !(entries.map priorRow).any (fun other => eqIgnoreAsciiCase other.1 path)) := by
  have hany : (entries.map priorRow).any (fun other => eqIgnoreAsciiCase other.1 path)
      = entries.any (fun entry => eqIgnoreAsciiCase entry.path path) := by
    rw [any_map]
    rfl
  have hsize : decide (512 < n) = !decide (n ≤ maxFileBytes) := by
    rw [← decide_not]
    exact decide_eq_decide.mpr (by unfold maxFileBytes; omega)
  have hbad : badPath entries path n = (!userWritablePrefix.isPrefixOf path
      || decide (64 < path.length) || ((path.drop 1).splitOn slash).any badComponent
      || decide (512 < n) || entries.any (fun entry => eqIgnoreAsciiCase entry.path path)) := rfl
  rw [hbad, hany, hsize]
  cases hpre : userWritablePrefix.isPrefixOf path with
  | false => simp
  | true =>
    rw [validAbsolutePath_below ( isPrefixOf_iff_prefix.mp hpre)]
    by_cases hlen : path.length ≤ userPathMax
    · -- short paths have short components
      have hdrop : (path.drop 1).length ≤ userPathMax := by
        rw [length_drop]
        omega
      have h64 : decide (64 < path.length) = false := by
        rw [decide_eq_false_iff_not]
        exact Nat.not_lt.mpr hlen
      rw [any_badComponent hdrop, h64, decide_eq_true hlen]
      simp [Bool.not_and]
    · have h64 : decide (64 < path.length) = true := decide_eq_true (Nat.not_le.mp hlen)
      rw [h64, decide_eq_false hlen]
      simp

/-- The parent rule of the kernel, in the inspector's terms. -/
theorem parent_eq {path : Bytes} (h : userWritablePrefix <+: path) :
    (match rfind slash path with
      | none => false
      | some k => path.take k == userRoot || (entries.map priorRow).any
          (fun other => other.2 == .directory && eqIgnoreAsciiCase other.1 (path.take k)))
      = (parentOf path == userRoot
        || entries.any (fun e => e.directory && eqIgnoreAsciiCase e.path (parentOf path))) := by
  have hkind : ∀ b, (kindOf b == NodeKind.directory) = b := by decide
  have hsome : rfind slash path ≠ none := by
    rw [Ne, rfind_eq_none_iff, not_not]
    obtain ⟨rest, rfl⟩ := h
    simp [userWritablePrefix, ascii, slash]
  obtain ⟨k, hk⟩ := Option.ne_none_iff_exists'.mp hsome
  have hparent : parentOf path = path.take k := by
    unfold parentOf
    rw [show '/'.toUInt8 = slash from rfl, hk]
  rw [hk, hparent]
  show (path.take k == userRoot || _) = _
  rw [any_map]
  congr 2
  funext e
  show (kindOf e.directory == NodeKind.directory && eqIgnoreAsciiCase e.path (path.take k)) = _
  rw [hkind]

/-- What the inspector admits is what the kernel accepts. -/
theorem admitEntry_agrees :
    (admitEntry entries e = .ok e ∧ fromUtf8 e.path = some e.path
        ∧ acceptsEntry (entries.map priorRow) e.path e.data = true)
      ∨ ((∃ text, admitEntry entries e = .error text)
        ∧ (fromUtf8 e.path = none
          ∨ fromUtf8 e.path = some e.path
            ∧ acceptsEntry (entries.map priorRow) e.path e.data = false)) := by
  cases hutf : fromUtf8 e.path with
  | none =>
    refine .inr ⟨⟨_, by simp only [admitEntry, hutf]; rfl⟩, .inl rfl⟩
  | some path =>
    have hpath := fromUtf8_eq_some hutf
    subst hpath
    cases hbad : badPath entries e.path e.data.length with
    | true =>
      refine .inr ⟨⟨_, by simp only [admitEntry, hutf, hbad, if_true]; rfl⟩,
        .inr ⟨rfl, ?_⟩⟩
      rw [badPath_eq, Bool.not_eq_true'] at hbad
      unfold acceptsEntry
      rw [hbad, Bool.false_and]
    | false =>
      have hbad' := hbad
      rw [badPath_eq, Bool.not_eq_false'] at hbad'
      have hpre : userWritablePrefix <+: e.path := by
        simp only [Bool.and_eq_true] at hbad'
        exact isPrefixOf_iff_prefix.mp hbad'.1.1.1
      have haccept : acceptsEntry (entries.map priorRow) e.path e.data
          = (parentOf e.path == userRoot || entries.any
            (fun x => x.directory && eqIgnoreAsciiCase x.path (parentOf e.path))) := by
        rw [← parent_eq entries hpre]
        unfold acceptsEntry
        rw [hbad']
        exact Bool.true_and _
      cases hparent : (parentOf e.path == userRoot || entries.any
          (fun x => x.directory && eqIgnoreAsciiCase x.path (parentOf e.path))) with
      | true =>
        refine .inl ⟨?_, rfl, by rw [haccept, hparent]⟩
        have hok : ¬ (parentOf e.path ≠ ascii ['/', 'U', 'S', 'E', 'R'] ∧ (!entries.any
            (fun x => x.directory && eqIgnoreAsciiCase x.path (parentOf e.path))) = true) := by
          rintro ⟨h1, h2⟩
          rw [Bool.not_eq_true'] at h2
          rw [h2, Bool.or_false, beq_iff_eq] at hparent
          exact h1 hparent
        simp only [admitEntry, hutf, hbad, Bool.false_eq_true, if_false, if_neg hok]
      | false =>
        refine .inr ⟨⟨"filesystem parent directory is absent or out of order", ?_⟩,
          .inr ⟨rfl, by rw [haccept, hparent]⟩⟩
        rw [Bool.or_eq_false_iff] at hparent
        have hmissing : parentOf e.path ≠ ascii ['/', 'U', 'S', 'E', 'R'] ∧ (!entries.any
            (fun x => x.directory && eqIgnoreAsciiCase x.path (parentOf e.path))) = true := by
          refine ⟨fun h => ?_, by rw [hparent.2]; rfl⟩
          rw [h] at hparent
          exact absurd hparent.1 (by decide)
        simp only [admitEntry, hutf, hbad, Bool.false_eq_true, if_false, if_pos hmissing]

/-! ## §3. Entries. -/

section Slots

variable (s : Snapshot) {used : Nat}

/-- Both parsers locate the same bytes. -/
theorem locateEntry_agrees (used cursor : Nat) (directory : Bool) :
    (∃ e stop, locateEntry s.val used cursor directory = .ok (e, stop)
        ∧ decodeBody s cursor used (kindOf directory) = .ok (toEntry e, stop))
      ∨ ((∃ text, locateEntry s.val used cursor directory = .error text)
        ∧ ∃ err, decodeBody s cursor used (kindOf directory) = .error err) := by
  have hkind : (kindOf directory = .directory) ↔ directory = true := by
    cases directory <;> simp [kindOf]
  have hbody : decodeBody s cursor used (kindOf directory)
      = if (s.val.getD cursor 0).toNat = 0
          ∨ (kindOf directory = .directory ∧ leNat ((s.val.drop (cursor + 2)).take 2) ≠ 0) then
        .error .invalidRecord
      else if used < cursor + 4 + (s.val.getD cursor 0).toNat
          + leNat ((s.val.drop (cursor + 2)).take 2) then .error .invalidRecord
      else .ok (⟨(s.val.drop (cursor + 4)).take (s.val.getD cursor 0).toNat, kindOf directory,
          (s.val.drop (cursor + 4 + (s.val.getD cursor 0).toNat)).take
            (leNat ((s.val.drop (cursor + 2)).take 2))⟩,
        cursor + 4 + (s.val.getD cursor 0).toNat + leNat ((s.val.drop (cursor + 2)).take 2)) := rfl
  rw [hbody]
  unfold locateEntry
  simp only [hkind]
  split
  · exact .inr ⟨⟨_, rfl⟩, _, rfl⟩
  split
  · exact .inr ⟨⟨_, rfl⟩, _, rfl⟩
  · exact .inl ⟨_, _, rfl, rfl⟩

/-- Both parsers see the same entry at a cursor. -/
theorem scanEntry_agrees (hused : used ≤ slotBytes) (cursor : Nat) :
    (∃ e stop, scanEntry s.val used cursor = .ok (e, stop)
        ∧ decodeEntry s cursor used = .ok (toEntry e, stop))
      ∨ ((∃ text, scanEntry s.val used cursor = .error text)
        ∧ ∃ err, decodeEntry s cursor used = .error err) := by
  have hentry : decodeEntry s cursor used
      = if slotBytes < used ∨ used < cursor + 4 then .error .invalidRecord
      else if s.val.getD (cursor + 1) 0 = 1 then decodeBody s cursor used (kindOf false)
      else if s.val.getD (cursor + 1) 0 = 2 then decodeBody s cursor used (kindOf true)
      else .error .invalidRecord := rfl
  rw [hentry]
  unfold scanEntry
  by_cases hshort : used < cursor + 4
  · rw [if_pos hshort, if_pos (.inr hshort)]
    exact .inr ⟨⟨_, rfl⟩, _, rfl⟩
  · have hinside : ¬ (slotBytes < used ∨ used < cursor + 4) := by omega
    rw [if_neg hshort, if_neg hinside]
    by_cases hfile : s.val.getD (cursor + 1) 0 = 1
    · rw [if_pos hfile, if_pos hfile]
      exact locateEntry_agrees s used cursor false
    · rw [if_neg hfile, if_neg hfile]
      by_cases hdir : s.val.getD (cursor + 1) 0 = 2
      · rw [if_pos hdir, if_pos hdir]
        exact locateEntry_agrees s used cursor true
      · rw [if_neg hdir, if_neg hdir]
        exact .inr ⟨⟨_, rfl⟩, _, rfl⟩

/-- **The two entry loops.**  They accept the same tables, with the same final
cursor and the same entries. -/
theorem scanEntries_agrees (hused : used ≤ slotBytes) (remaining : Nat) :
    ∀ (cursor : Nat) (entries : List InspectedEntry),
      (∃ stop added, scanEntries s.val used remaining cursor entries = .ok (stop, entries ++ added)
          ∧ validateEntries s used remaining cursor (entries.map priorRow) = .ok stop
          ∧ decodedEntries s used remaining cursor = .ok (added.map toEntry))
        ∨ ((∃ text, scanEntries s.val used remaining cursor entries = .error text)
          ∧ ∃ err, validateEntries s used remaining cursor (entries.map priorRow) = .error err) := by
  induction remaining with
  | zero =>
    intro cursor entries
    exact .inl ⟨cursor, [], by rw [append_nil]; rfl, rfl, rfl⟩
  | succ n ih =>
    intro cursor entries
    rcases scanEntry_agrees s hused cursor with ⟨e, stop, hscan, hdec⟩ | ⟨⟨text, hscan⟩, err, hdec⟩
    · have hpath : (toEntry e).path = e.path := rfl
      have hdata : (toEntry e).data = e.data := rfl
      rcases admitEntry_agrees entries e with ⟨hadmitted, hutf, hacc⟩ | ⟨⟨text, hadmitted⟩, hrej⟩
      · -- the entry is taken by both
        have hrow : entries.map priorRow ++ [(e.path, (toEntry e).kind)]
            = (entries ++ [e]).map priorRow := by simp [priorRow, toEntry]
        have hhost : scanEntries s.val used (n + 1) cursor entries
            = scanEntries s.val used n stop (entries ++ [e]) := by
          simp only [scanEntries, hscan, hadmitted]
        have hval : validateEntries s used (n + 1) cursor (entries.map priorRow)
            = validateEntries s used n stop ((entries ++ [e]).map priorRow) := by
          rw [← hrow]
          simp only [validateEntries, hdec, hpath, hdata, hutf, hacc, if_true]
        rw [hhost, hval]
        rcases ih stop (entries ++ [e]) with ⟨final, added, h1, h2, h3⟩ | h
        · refine .inl ⟨final, e :: added, ?_, h2, ?_⟩
          · rw [h1, append_assoc]
            rfl
          · simp only [decodedEntries, hdec, h3, map_cons]
        · exact .inr h
      · -- the name is refused by both
        refine .inr ⟨⟨text, by simp only [scanEntries, hscan, hadmitted]⟩, ?_⟩
        rcases hrej with hutf | ⟨hutf, hacc⟩
        · exact ⟨_, by simp only [validateEntries, hdec, hpath, hutf]; rfl⟩
        · refine ⟨.invalidRecord, ?_⟩
          simp only [validateEntries, hdec, hpath, hdata, hutf, hacc, Bool.false_eq_true, if_false]
    · exact .inr ⟨⟨text, by simp only [scanEntries, hscan]⟩, err, by
        simp only [validateEntries, hdec]⟩

/-- **One slot.**  The inspector decodes it iff the kernel validates it, with
the same generation and entries. -/
theorem decodeFilesystemSlot_agrees (slot : Fin 2) :
    (∃ v, decodeFilesystemSlot slot s.val = .ok v ∧ v.slot = slot
        ∧ validateSnapshot s = .ok v.generation ∧ slotEntries s = .ok (v.entries.map toEntry))
      ∨ ((∃ text, decodeFilesystemSlot slot s.val = .error text)
        ∧ ∃ err, validateSnapshot s = .error err) := by
  have hhead : headerOk s = false ↔ (s.val.length ≠ slotBytes
      ∨ s.val.take 4 ≠ ascii ['G', 'F', 'S', '2'] ∨ leNat ((s.val.drop 4).take 2) ≠ 3
      ∨ s.val.getD 6 0 = 0 ∨ 30 < entryCount s ∨ s.val.getD 7 0 ≠ 0xa5) := by
    have hok : headerOk s = ((s.val.take 4 == ascii ['G', 'F', 'S', '2'])
        && (leNat ((s.val.drop 4).take 2) == 3) && (s.val.getD 6 0 != 0)
        && decide (entryCount s ≤ 30) && (s.val.getD 7 0 == 0xa5)) := rfl
    rw [hok]
    simp only [Bool.and_eq_false_iff, beq_eq_false_iff_ne, bne_eq_false_iff_eq,
      decide_eq_false_iff_not, Nat.not_le, s.length_val, ne_eq, not_true_eq_false, false_or,
      or_assoc]
  -- the kernel's function, in the inspector's terms
  have hkernel : validateSnapshot s = if headerOk s = false then .error .invalidRecord
      else if usedBytes s < 64 ∨ slotBytes < usedBytes s then .error .invalidRecord
      else if (snapshotChecksum s.val).toNat ≠ leNat ((s.val.drop 20).take 4) then
        .error .invalidRecord
      else
        (validateEntries s (usedBytes s) (entryCount s) 64 []).bind fun cursor =>
          if cursor ≠ usedBytes s then .error .invalidRecord
          else .ok (UInt64.ofNat (leNat ((s.val.drop 8).take 8))) := by
    have hentries : validateEntries s (usedBytes s) (entryCount s) recordHeaderBytes []
        = validateEntries s (usedBytes s) (entryCount s) 64 [] := rfl
    unfold validateSnapshot
    rw [hentries]
    cases validateEntries s (usedBytes s) (entryCount s) 64 [] <;> rfl
  have hused : usedBytes s = leNat ((s.val.drop 16).take 4) := rfl
  have hcount : entryCount s = (s.val.getD 6 0).toNat := rfl
  rw [hkernel]
  unfold decodeFilesystemSlot
  simp only [← hused, ← hcount]
  by_cases hbad : headerOk s = false
  · rw [if_pos hbad, if_pos (hhead.mp hbad)]
    exact .inr ⟨⟨_, rfl⟩, _, rfl⟩
  · rw [if_neg hbad, if_neg (fun h => hbad (hhead.mpr h))]
    by_cases hlen : usedBytes s < 64 ∨ slotBytes < usedBytes s
    · rw [if_pos hlen, if_pos hlen]
      exact .inr ⟨⟨_, rfl⟩, _, rfl⟩
    · rw [if_neg hlen, if_neg hlen]
      by_cases hcheck : (snapshotChecksum s.val).toNat ≠ leNat ((s.val.drop 20).take 4)
      · rw [if_pos hcheck, if_pos hcheck]
        exact .inr ⟨⟨_, rfl⟩, _, rfl⟩
      · rw [if_neg hcheck, if_neg hcheck]
        have hfits : usedBytes s ≤ slotBytes := by omega
        rcases scanEntries_agrees s hfits (entryCount s) 64 []
          with ⟨stop, added, h1, h2, h3⟩ | ⟨⟨text, h1⟩, err, h2⟩
        · rw [map_nil] at h2
          rw [h1, h2]
          simp only [Except.bind]
          by_cases hstop : stop ≠ usedBytes s
          · rw [if_pos hstop, if_pos hstop]
            exact .inr ⟨⟨_, rfl⟩, _, rfl⟩
          · rw [if_neg hstop, if_neg hstop]
            exact .inl ⟨_, rfl, rfl, rfl, h3⟩
        · rw [map_nil] at h2
          rw [h1, h2]
          exact .inr ⟨⟨_, rfl⟩, _, rfl⟩

end Slots

/-! ## §4. The entries the kernel mounts. -/

end GenOS.Xtask
