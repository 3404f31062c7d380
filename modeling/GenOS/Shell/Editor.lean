/-
  GenOS.Shell.Editor — the line editor of the user shell.

  Translates `userspace/shell/src/editor.rs` for every line capacity `N` and
  history depth `H`.  A buffer with its length is the list of the bytes in use.
  The bounds that the indexing of the source relies on are fields: a line is
  printable and at most `N` bytes long, the cursors are inside what they point
  into.  An operation gives the new editor and the result of the call.
-/
import GenOS.Lib.Ascii
import Mathlib.Data.FinEnum

namespace GenOS.Shell

open GenOS.Lib List

/-! ## §1. Lines. -/

/-- The test `(0x20..=0x7e).contains(&byte)`. -/
def printable (b : UInt8) : Bool := decide (0x20 ≤ b ∧ b ≤ 0x7e)

/-- The used part of a buffer of `N` bytes. -/
structure Line (N : Nat) where
  bytes : Bytes
  fits : bytes.length ≤ N
  printable : ∀ b ∈ bytes, Shell.printable b = true
deriving DecidableEq

namespace Line

variable {N : Nat} (l : Line N)

/-- The length. -/
def len : Nat := l.bytes.length

/-- No bytes. -/
def empty : Line N := ⟨[], Nat.zero_le N, nofun⟩

/-- The line with a byte put in at a position; there is room for it. -/
def insertAt (position : Nat) (b : UInt8) (hb : Shell.printable b = true) (hroom : l.len < N) :
    Line N where
  bytes := l.bytes.take position ++ b :: l.bytes.drop position
  fits := by
    have hsplit := congrArg List.length (List.take_append_drop position l.bytes)
    rw [List.length_append] at hsplit
    rw [List.length_append, List.length_cons]
    unfold len at hroom
    omega
  printable := by
    intro c hc
    rcases List.mem_append.mp hc with hc | hc
    · exact l.printable c (List.mem_of_mem_take hc)
    rcases List.mem_cons.mp hc with rfl | hc
    · exact hb
    · exact l.printable c (List.mem_of_mem_drop hc)

/-- The line without the byte at a position. -/
def removeAt (position : Nat) : Line N where
  bytes := l.bytes.take position ++ l.bytes.drop (position + 1)
  fits := by
    have hfits := l.fits
    rw [List.length_append, List.length_take, List.length_drop]
    omega
  printable := by
    intro c hc
    rcases List.mem_append.mp hc with hc | hc
    · exact l.printable c (List.mem_of_mem_take hc)
    · exact l.printable c (List.mem_of_mem_drop hc)

theorem len_insertAt {l : Line N} {position : Nat} {b : UInt8} {hb : Shell.printable b = true}
    {hroom : l.len < N} : (l.insertAt position b hb hroom).len = l.len + 1 := by
  have hsplit := congrArg List.length (take_append_drop position l.bytes)
  rw [length_append] at hsplit
  unfold len insertAt
  rw [length_append, length_cons]
  omega

theorem len_removeAt {l : Line N} {position : Nat} (h : position < l.len) :
    (l.removeAt position).len = l.len - 1 := by
  unfold len at h
  unfold len removeAt
  rw [length_append, length_take, length_drop]
  omega

end Line

/-! ## §2. The editor. -/

/-- `Editor`. -/
structure Editor (N H : Nat) where
  line : Line N
  cursor : Nat
  /-- The lines entered so far, oldest first. -/
  history : List (Line N)
  historyCursor : Nat
  /-- The line that was being edited when the history was entered. -/
  draft : Line N
  draftCursor : Nat
  inside : cursor ≤ line.len
  historyFits : history.length ≤ H
  historyInside : historyCursor ≤ history.length
  draftInside : draftCursor ≤ draft.len

namespace Editor

variable {N H : Nat}

/-- `new`. -/
def new : Editor N H where
  line := .empty
  cursor := 0
  history := []
  historyCursor := 0
  draft := .empty
  draftCursor := 0
  inside := Nat.zero_le _
  historyFits := Nat.zero_le H
  historyInside := Nat.zero_le _
  draftInside := Nat.zero_le _

variable (e : Editor N H)

/-- The edited line, with the history left. -/
def edited (line : Line N) (cursor : Nat) (inside : cursor ≤ line.len) : Editor N H :=
  { e with
    line := line
    cursor := cursor
    inside := inside
    historyCursor := e.history.length
    historyInside := Nat.le_refl _ }

/-- `insert`. -/
def insert (byte : UInt8) : Editor N H × Bool :=
  if h : printable byte = true ∧ e.line.len < N then
    (e.edited (e.line.insertAt e.cursor byte h.1 h.2) (e.cursor + 1)
      (by rw [Line.len_insertAt]; exact Nat.succ_le_succ e.inside), true)
  else (e, false)

/-- `backspace`. -/
def backspace : Editor N H × Bool :=
  if h : e.cursor = 0 then (e, false)
  else
    (e.edited (e.line.removeAt (e.cursor - 1)) (e.cursor - 1)
      (by have := e.inside; rw [Line.len_removeAt (by omega)]; omega), true)

/-- `delete`. -/
def delete : Editor N H × Bool :=
  if h : e.cursor = e.line.len then (e, false)
  else
    (e.edited (e.line.removeAt e.cursor) e.cursor
      (by have := e.inside; rw [Line.len_removeAt (by omega)]; omega), true)

/-- The editor with the cursor at another place of the line. -/
def moved (cursor : Nat) (inside : cursor ≤ e.line.len) : Editor N H :=
  { e with cursor := cursor, inside := inside }

/-- `left`. -/
def left : Editor N H :=
  e.moved (e.cursor - 1) (Nat.le_trans (Nat.sub_le _ _) e.inside)

/-- `right`. -/
def right : Editor N H :=
  e.moved (min (e.cursor + 1) e.line.len) (Nat.min_le_right _ _)

/-- `home`. -/
def home : Editor N H := e.moved 0 (Nat.zero_le _)

/-- `end`. -/
def «end» : Editor N H := e.moved e.line.len (Nat.le_refl _)

/-- `clear_line`. -/
def clearLine : Editor N H :=
  { e with
    line := .empty
    cursor := 0
    inside := Nat.zero_le _
    historyCursor := e.history.length
    historyInside := Nat.le_refl _
    draft := .empty
    draftCursor := 0
    draftInside := Nat.zero_le _ }

/-- The editor at the end of another line. -/
def shown (line : Line N) : Editor N H :=
  { e with line := line, cursor := line.len, inside := Nat.le_refl _ }

/-- `load`. -/
def load (text : Bytes) : Editor N H × Bool :=
  if h : text.length ≤ N ∧ ∀ b ∈ text, printable b = true then (e.shown ⟨text, h.1, h.2⟩, true)
  else (e, false)

/-- `remember`: the oldest line makes room when the history is full. -/
def remember : Editor N H :=
  if h : e.line.len = 0 ∨ H = 0 then e
  else
    let kept := if e.history.length < H then e.history else e.history.drop 1
    have hroom : kept.length + 1 ≤ H := by
      have hfits := e.historyFits
      simp only [kept]
      split
      · omega
      · rw [List.length_drop]
        omega
    { e with
      history := kept ++ [e.line]
      historyFits := by rw [List.length_append]; exact hroom
      historyCursor := (kept ++ [e.line]).length
      historyInside := Nat.le_refl _ }

/-- The editor at a line of the history. -/
def recalled (index : Fin e.history.length) : Editor N H :=
  { e.shown (e.history.get index) with
    historyCursor := index
    historyInside := Nat.le_of_lt index.isLt }

/-- The line being edited is kept as the draft. -/
def drafted : Editor N H :=
  { e with draft := e.line, draftCursor := e.cursor, draftInside := e.inside }

/-- `history_up`. -/
def historyUp : Editor N H × Bool :=
  if h : e.history.length = 0 ∨ e.historyCursor = 0 then (e, false)
  else
    have hinside : e.historyCursor - 1 < e.history.length := by
      have := e.historyInside
      omega
    if e.historyCursor = e.history.length then (e.drafted.recalled ⟨_, hinside⟩, true)
    else (e.recalled ⟨_, hinside⟩, true)

/-- `history_down`: past the newest line, the draft returns. -/
def historyDown : Editor N H × Bool :=
  if h : e.historyCursor = e.history.length then (e, false)
  else if hlast : e.historyCursor + 1 = e.history.length then
    ({ e with
      line := e.draft
      cursor := e.draftCursor
      inside := e.draftInside
      historyCursor := e.historyCursor + 1
      historyInside := Nat.le_of_eq hlast }, true)
  else
    have hinside : e.historyCursor + 1 < e.history.length := by
      have := e.historyInside
      omega
    (e.recalled ⟨_, hinside⟩, true)

/-- How many bytes two words share at their start. -/
def shared : Bytes → Bytes → Nat
  | a :: as, b :: bs => if a = b then shared as bs + 1 else 0
  | _, _ => 0

/-- The loop of `complete_command` over the words: how many match, and what the
matching words share. -/
def matching (line : Bytes) : List Bytes → Nat × Bytes → Nat × Bytes
  | [], found => found
  | word :: words, (matched, common) =>
    if line.isPrefixOf word then
      matching line words
        (matched + 1, if matched = 0 then word else common.take (shared common word))
    else matching line words (matched, common)

/-- `complete_command`; the words are separated by zero bytes. -/
def completeCommand (words : Bytes) : Editor N H × Bool :=
  if e.line.bytes.contains 0x20 || e.cursor ≠ e.line.len then (e, false)
  else
    let (matched, common) :=
      matching e.line.bytes ((words.splitOn 0).filter fun word => word ≠ []) (0, [])
    if matched = 0 ∨ common.length ≤ e.line.len ∨ N < common.length then (e, false)
    else e.load common

/-! ## §3. Where the cursor is. -/

theorem completeCommand_refused {e : Editor N H} {words : Bytes} (h : e.cursor ≠ e.line.len) :
    e.completeCommand words = (e, false) := by
  unfold completeCommand
  rw [if_pos]
  simp [h]

/-- Loading a line ends at its end, or changes nothing. -/
theorem load_cases (text : Bytes) :
    e.load text = (e, false) ∨ ∃ line, e.load text = (e.shown line, true) := by
  unfold load
  split
  · exact .inr ⟨_, rfl⟩
  · exact .inl rfl

/-- A completion ends at the end of the line, or changes nothing. -/
theorem completeCommand_cases (words : Bytes) :
    e.completeCommand words = (e, false)
      ∨ ∃ line, e.completeCommand words = (e.shown line, true) := by
  unfold completeCommand
  split
  · exact .inl rfl
  dsimp only
  split
  · exact .inl rfl
  · exact e.load_cases _

/-! ## §4. Walking through the history. -/

/-- The calls that change the line by editing it. -/
inductive Edit where
  | insert (byte : UInt8)
  | backspace
  | delete
  | completeCommand (words : Bytes)
deriving DecidableEq

/-- The call of an edit. -/
def apply (e : Editor N H) : Edit → Editor N H × Bool
  | .insert byte => e.insert byte
  | .backspace => e.backspace
  | .delete => e.delete
  | .completeCommand words => e.completeCommand words

/-- The editor after a number of calls, when each of them succeeds. -/
def times (call : Editor N H → Editor N H × Bool) : Nat → Editor N H → Option (Editor N H)
  | 0, e => some e
  | j + 1, e =>
    match call e with
    | (next, true) => times call j next
    | (_, false) => none

/-- The history is shown `j` lines above a line that was left at a cursor. -/
structure Browsing (line : Line N) (cursor j : Nat) (e : Editor N H) : Prop where
  above : e.historyCursor + j = e.history.length
  kept : if j = 0 then e.line = line ∧ e.cursor = cursor
    else e.draft = line ∧ e.draftCursor = cursor

variable {line : Line N} {cursor j : Nat} {e e' : Editor N H}

theorem Browsing.up (h : Browsing line cursor j e) (hup : e.historyUp = (e', true)) :
    Browsing line cursor (j + 1) e' := by
  obtain ⟨habove, hkept⟩ := h
  unfold historyUp at hup
  split at hup
  · cases hup
  rename_i hshown
  split at hup <;> cases hup
  · -- the line itself was shown, and becomes the draft
    rename_i hleft
    obtain rfl : j = 0 := by omega
    exact ⟨show e.historyCursor - 1 + 1 = e.history.length by omega, hkept⟩
  · rename_i hleft
    rw [if_neg (show j ≠ 0 by omega)] at hkept
    exact ⟨show e.historyCursor - 1 + (j + 1) = e.history.length by omega, hkept⟩

theorem Browsing.down (h : Browsing line cursor (j + 1) e) :
    ∃ e', e.historyDown = (e', true) ∧ Browsing line cursor j e' := by
  obtain ⟨habove, hkept⟩ := h
  unfold historyDown
  rw [dif_neg (show e.historyCursor ≠ e.history.length by omega)]
  by_cases hlast : e.historyCursor + 1 = e.history.length
  · obtain rfl : j = 0 := by omega
    rw [dif_pos hlast]
    exact ⟨_, rfl, hlast, hkept⟩
  · rw [dif_neg hlast]
    refine ⟨_, rfl, show e.historyCursor + 1 + j = e.history.length by omega, ?_⟩
    rw [if_neg (show j ≠ 0 by omega)]
    exact hkept

theorem Browsing.ups {k : Nat} (h : Browsing line cursor k e)
    (hups : times historyUp j e = some e') : Browsing line cursor (k + j) e' := by
  induction j generalizing k e with
  | zero =>
    cases hups
    exact h
  | succ j ih =>
    unfold times at hups
    split at hups
    · rename_i next hup
      rw [Nat.add_comm j 1, ← Nat.add_assoc]
      exact ih (h.up hup) hups
    · cases hups

theorem Browsing.downs (h : Browsing line cursor j e) :
    ∃ e', times historyDown j e = some e' ∧ Browsing line cursor 0 e' := by
  induction j generalizing e with
  | zero => exact ⟨e, rfl, h⟩
  | succ j ih =>
    obtain ⟨next, hdown, hnext⟩ := h.down
    obtain ⟨e', hdowns, hback⟩ := ih hnext
    refine ⟨e', ?_, hback⟩
    unfold times
    rw [hdown]
    exact hdowns

/-- A successful edit leaves the history, but a completion does not: it shows the
completed word at the line of the history where it was made. -/
theorem apply_browsing {edit : Edit}
    (hleft : ∀ words, edit = .completeCommand words → e.historyCursor = e.history.length)
    (hedit : e.apply edit = (e', true)) : Browsing e'.line e'.cursor 0 e' := by
  refine ⟨?_, rfl, rfl⟩
  cases edit with
  | insert | backspace | delete =>
    simp only [apply, insert, backspace, delete] at hedit
    split at hedit <;> cases hedit
    rfl
  | completeCommand words =>
    rcases e.completeCommand_cases words with hcase | ⟨shown, hcase⟩ <;>
      cases hcase.symm.trans hedit
    exact hleft words rfl

/-- The editor after two commands, `a` and `b`. -/
def twoCommands : Editor 2 2 :=
  ((new.insert 0x61).1.remember.clearLine.insert 0x62).1.remember.clearLine

/-- A completion of `b`, shown from the history, to `bc`. -/
def completed : Editor 2 2 × Bool :=
  twoCommands.historyUp.1.apply (.completeCommand [0x62, 0x63])

end Editor

end GenOS.Shell
