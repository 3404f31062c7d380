/-
  GenOS.Shell.PromptAgreement — the prompt's cursor against the editor's.

  Translates what `run_terminal` and the loop of the shell do with a key: the
  prompt notes it, the editor applies it, and the line is published.  The text
  of the prompt is always the line.  The cursor is the editor's exactly as long
  as every key for which the prompt expects the end of the line takes the editor
  there (`Editor.landsAtEnd`): a refused `history_up` or `complete_command`
  leaves the editor where it was, and a draft returns with its own cursor.
-/
import GenOS.Shell.SerialPrompt

namespace GenOS.Shell

open GenOS.Lib GenOS.Vfs SerialPrompt

/-! ## §1. A terminal session. -/

/-- The editor of the shell: `LINE_CAPACITY` and `HISTORY_CAPACITY`. -/
abbrev ShellEditor := Editor userConsoleTextMax 8

/-- `COMMAND_WORDS`. -/
def commandWords : Bytes :=
  (["help", "clear", "uname", "net", "mem", "echo", "ls", "cat", "stat", "touch", "write",
    "append", "mkdir", "rm", "run", "ps", "kill", "wait"].map
      fun word => ascii word.toList ++ [0]).flatten

/-- What `execute` does to the editor. -/
def ShellEditor.execute (e : ShellEditor) : ShellEditor :=
  if e.line.len ≠ 0 then e.remember.clearLine else e.clearLine

/-- The key handling of the shell; `none` when it waits for the next event
without publishing the line. -/
def shellKey (e : ShellEditor) : KeyEvent → Option ShellEditor
  | .enter => some (ShellEditor.execute e)
  | .char byte => if printable byte then some (e.insert byte).1 else none
  | .backspace => some e.backspace.1
  | .delete => some e.delete.1
  | .arrowLeft => some e.left
  | .arrowRight => some e.right
  | .home => some e.home
  | .end => some e.end
  | .arrowUp => some e.historyUp.1
  | .arrowDown => some e.historyDown.1
  | .tab => some (e.completeCommand commandWords).1
  | .cancel => some e.clearLine
  | .escape => none

/-- The two sides of the serial terminal. -/
structure Terminal where
  prompt : SerialPrompt
  editor : ShellEditor

namespace Terminal

/-- After the boot: the prompt is active and nothing was typed. -/
def boot : Terminal := ⟨SerialPrompt.new.activate, .new⟩

/-- Does the key end the line? -/
def ends : KeyEvent → Bool
  | .enter | .cancel => true
  | _ => false

/-- The line is published: the prompt takes the text if the kernel does. -/
def publish (p : SerialPrompt) (e : ShellEditor) : SerialPrompt :=
  match consoleText e.line.bytes with
  | some text => (p.setInput text).1
  | none => p

variable (t : Terminal)

/-- One key.  A key that ends the line finishes the prompt, which is active again
when the shell waits for input. -/
def press (key : KeyEvent) : Terminal :=
  let prompt := if ends key then t.prompt.finishCommand else (t.prompt.noteKey key).1
  match shellKey t.editor key with
  | none => { t with prompt := prompt }
  | some editor =>
    let prompt := publish prompt editor
    ⟨if ends key then prompt.activate else prompt, editor⟩

/-- A sequence of keys. -/
def type (keys : List KeyEvent) : Terminal := keys.foldl press t

/-- A new line, after any session: the last line was entered or cancelled. -/
def newLine (earlier : List KeyEvent) (cancelled : Bool) : Terminal :=
  (boot.type earlier).press (if cancelled then .cancel else .enter)

/-- The prompt shows the line. -/
def SameText : Prop := t.prompt.input.bytes = t.editor.line.bytes

/-- The prompt shows the cursor where the editor has it. -/
def SameCursor : Prop := t.prompt.cursor = t.editor.cursor

/-- The prompt is a true picture of the editor. -/
def Agrees : Prop := t.SameText ∧ t.SameCursor

instance (t : Terminal) : Decidable t.Agrees := by
  unfold Agrees SameText SameCursor
  infer_instance

end Terminal

/-- A key that edits the line: a printable character or one of the editing keys. -/
def KeyEvent.edits : KeyEvent → Bool
  | .char byte => printable byte
  | .enter | .escape | .cancel => false
  | _ => true

/-- Where the prompt expects the end of the line, the editor goes there: `Tab`
moves only from the end; `history_up` always ends there unless it is refused;
`history_down` does not when it is refused or returns to a draft. -/
def Editor.landsAtEnd {N H : Nat} (e : Editor N H) : KeyEvent → Prop
  | .tab => e.cursor = e.line.len
  | .arrowUp => e.history.length = 0 ∨ e.historyCursor = 0 → e.cursor = e.line.len
  | .arrowDown =>
    (e.historyCursor = e.history.length → e.cursor = e.line.len)
      ∧ (e.historyCursor + 1 = e.history.length → e.draftCursor = e.draft.len)
  | _ => True

instance {N H : Nat} (e : Editor N H) (key : KeyEvent) : Decidable (e.landsAtEnd key) := by
  unfold Editor.landsAtEnd
  cases key <;> infer_instance

/-! ## §2. One key. -/

namespace Editor

variable {N H : Nat} (e : Editor N H)

/-- The cursor after `insert` is where the prompt expects it. -/
theorem insert_cursor {byte : UInt8} (hprintable : printable byte = true) :
    min (if e.line.len < N then e.cursor + 1 else e.cursor) (e.insert byte).1.line.len
      = (e.insert byte).1.cursor := by
  have hinside := e.inside
  unfold insert
  by_cases hroom : e.line.len < N
  · rw [if_pos hroom, dif_pos ⟨hprintable, hroom⟩]
    show min (e.cursor + 1) (e.line.insertAt e.cursor byte hprintable hroom).len = e.cursor + 1
    rw [Line.len_insertAt]
    omega
  · rw [if_neg hroom, dif_neg fun h => hroom h.2]
    exact Nat.min_eq_left hinside

theorem backspace_cursor : min (e.cursor - 1) e.backspace.1.line.len = e.backspace.1.cursor := by
  have hinside := e.inside
  unfold backspace
  by_cases h : e.cursor = 0
  · rw [dif_pos h, h]
    exact Nat.zero_min _
  · rw [dif_neg h]
    show min (e.cursor - 1) (e.line.removeAt (e.cursor - 1)).len = e.cursor - 1
    rw [Line.len_removeAt (by omega)]
    omega

theorem delete_cursor : min e.cursor e.delete.1.line.len = e.delete.1.cursor := by
  have hinside := e.inside
  unfold delete
  by_cases h : e.cursor = e.line.len
  · rw [dif_pos h]
    exact Nat.min_eq_left hinside
  · rw [dif_neg h]
    show min e.cursor (e.line.removeAt e.cursor).len = e.cursor
    rw [Line.len_removeAt (by omega)]
    omega

theorem historyUp_lands :
    e.historyUp.1.cursor = e.historyUp.1.line.len ↔ e.landsAtEnd .arrowUp := by
  unfold historyUp landsAtEnd
  by_cases h : e.history.length = 0 ∨ e.historyCursor = 0
  · rw [dif_pos h]
    exact ⟨fun hend _ => hend, fun hlands => hlands h⟩
  · rw [dif_neg h]
    refine ⟨fun _ hrefused => absurd hrefused h, fun _ => ?_⟩
    dsimp only
    split
    · rfl
    · rfl

theorem historyDown_lands :
    e.historyDown.1.cursor = e.historyDown.1.line.len ↔ e.landsAtEnd .arrowDown := by
  unfold historyDown landsAtEnd
  by_cases h : e.historyCursor = e.history.length
  · rw [dif_pos h]
    exact ⟨fun hend => ⟨fun _ => hend, fun hlast => by omega⟩, fun hlands => hlands.1 h⟩
  rw [dif_neg h]
  by_cases hlast : e.historyCursor + 1 = e.history.length
  · rw [dif_pos hlast]
    exact ⟨fun hend => ⟨fun hnow => absurd hnow h, fun _ => hend⟩, fun hlands => hlands.2 hlast⟩
  · rw [dif_neg hlast]
    exact ⟨fun _ => ⟨fun hnow => absurd hnow h, fun hnow => absurd hnow hlast⟩, fun _ => rfl⟩

theorem completeCommand_lands (words : Bytes) :
    (e.completeCommand words).1.cursor = (e.completeCommand words).1.line.len
      ↔ e.landsAtEnd .tab := by
  by_cases hend : e.cursor = e.line.len
  · refine ⟨fun _ => hend, fun _ => ?_⟩
    rcases e.completeCommand_cases words with hsame | ⟨line, hshown⟩
    · rw [hsame]
      exact hend
    · rw [hshown]
      rfl
  · rw [completeCommand_refused hend]
    exact Iff.rfl

end Editor

variable {key : KeyEvent}

namespace Terminal

/-- Between keys, as long as the cursors agree. -/
structure Ready (t : Terminal) : Prop where
  active : t.prompt.active = true
  seekEnd : t.prompt.seekEnd = false
  text : t.SameText

variable {t : Terminal}

theorem Ready.input_len (h : t.Ready) : t.prompt.input.len = t.editor.line.len :=
  congrArg List.length h.text

variable (p : SerialPrompt) (e : ShellEditor)

/-- The prompt after a line was published. -/
theorem publish_eq :
    ∃ text : FixedText, text.bytes = e.line.bytes ∧ publish p e = (p.setInput text).1 := by
  obtain ⟨text, htext, hbytes⟩ := consoleText_line e.line
  refine ⟨text, hbytes, ?_⟩
  unfold publish
  rw [htext]

theorem publish_cursor :
    (publish p e).cursor = if p.seekEnd then e.line.len else min p.cursor e.line.len := by
  obtain ⟨text, hbytes, heq⟩ := publish_eq p e
  have hlen : text.len = e.line.len := congrArg List.length hbytes
  rw [heq, ← hlen]
  rfl

theorem publish_ready (h : p.active = true) : Ready ⟨publish p e, e⟩ := by
  obtain ⟨text, hbytes, heq⟩ := publish_eq p e
  rw [heq]
  exact ⟨h, rfl, hbytes⟩

/-- An editing key is noted, applied and published. -/
theorem press_edit (t : Terminal) (hkey : key.edits = true) {editor : ShellEditor}
    (heditor : shellKey t.editor key = some editor) :
    t.press key = ⟨publish (t.prompt.noteKey key).1 editor, editor⟩ := by
  have hends : ends key = false := by
    cases key with
    | enter => cases hkey
    | cancel => cases hkey
    | _ => rfl
  unfold press
  rw [heditor, hends]
  rfl

theorem shellKey_edit (hkey : key.edits = true) : ∃ editor, shellKey e key = some editor := by
  cases key with
  | char byte => exact ⟨_, if_pos hkey⟩
  | escape => cases hkey
  | _ => exact ⟨_, rfl⟩

/-- The text agrees after every key, whatever the cursors do. -/
theorem Ready.press (h : t.Ready) (hkey : key.edits = true) :
    (t.press key).Ready := by
  obtain ⟨editor, heditor⟩ := shellKey_edit t.editor hkey
  rw [t.press_edit hkey heditor]
  exact publish_ready _ _ ((noteKey_active _ _).trans h.active)

/-- The prompt's cursor after a key and the line that follows it. -/
theorem Ready.cursor (h : t.Ready) (key : KeyEvent) (editor : ShellEditor) :
    (publish (t.prompt.noteKey key).1 editor).cursor
      = if seeks key then editor.line.len
        else min (t.prompt.predicted key) editor.line.len := by
  rw [publish_cursor, noteKey_seekEnd h.active h.seekEnd,
    noteKey_cursor h.active]

/-- **One key.**  The cursors agree after it exactly when the editor lands where
the prompt expects it. -/
theorem Ready.sameCursor_iff (h : t.Ready) (hcursor : t.SameCursor) (hkey : key.edits = true) : (t.press key).SameCursor ↔ t.editor.landsAtEnd key := by
  obtain ⟨editor, heditor⟩ := shellKey_edit t.editor hkey
  have hlen := h.input_len
  have hinside := t.editor.inside
  unfold SameCursor at hcursor ⊢
  rw [t.press_edit hkey heditor]
  show (publish (t.prompt.noteKey key).1 editor).cursor = editor.cursor ↔ _
  rw [h.cursor]
  cases key with
  | enter => cases hkey
  | escape => cases hkey
  | cancel => cases hkey
  | arrowUp =>
    cases heditor
    exact eq_comm.trans t.editor.historyUp_lands
  | arrowDown =>
    cases heditor
    exact eq_comm.trans t.editor.historyDown_lands
  | tab =>
    cases heditor
    exact eq_comm.trans (t.editor.completeCommand_lands commandWords)
  | «end» =>
    cases heditor
    exact iff_of_true rfl trivial
  | home =>
    cases heditor
    refine iff_of_true ?_ trivial
    show min 0 t.editor.line.len = 0
    exact Nat.zero_min _
  | char byte =>
    have heditor := (if_pos hkey).symm.trans heditor
    cases heditor
    refine iff_of_true ?_ trivial
    show min (if t.prompt.input.len < userConsoleTextMax then t.prompt.cursor + 1
      else t.prompt.cursor) _ = _
    rw [hlen, hcursor]
    exact t.editor.insert_cursor hkey
  | backspace =>
    cases heditor
    refine iff_of_true ?_ trivial
    show min (t.prompt.cursor - 1) _ = _
    rw [hcursor]
    exact t.editor.backspace_cursor
  | delete =>
    cases heditor
    refine iff_of_true ?_ trivial
    show min t.prompt.cursor _ = _
    rw [hcursor]
    exact t.editor.delete_cursor
  | arrowLeft =>
    cases heditor
    refine iff_of_true ?_ trivial
    show min (t.prompt.cursor - 1) t.editor.line.len = t.editor.cursor - 1
    omega
  | arrowRight =>
    cases heditor
    refine iff_of_true ?_ trivial
    show min (if t.prompt.cursor < t.prompt.input.len then t.prompt.cursor + 1
      else t.prompt.cursor) t.editor.line.len = min (t.editor.cursor + 1) t.editor.line.len
    split
    · omega
    · omega

/-! ## §3. Every sequence of keys. -/

theorem type_snoc (t : Terminal) (keys : List KeyEvent) (key : KeyEvent) :
    t.type (keys ++ [key]) = (t.type keys).press key :=
  List.foldl_concat press t key keys

/-- A new line starts with both sides empty. -/
theorem newLine_ready (earlier : List KeyEvent) (cancelled : Bool) :
    (newLine earlier cancelled).Ready ∧ (newLine earlier cancelled).SameCursor := by
  obtain ⟨editor, hline, hcursor, hpress⟩ : ∃ editor : ShellEditor, editor.line = .empty
      ∧ editor.cursor = 0
      ∧ newLine earlier cancelled = ⟨(publish new editor).activate, editor⟩ := by
    cases cancelled with
    | true => exact ⟨(boot.type earlier).editor.clearLine, rfl, rfl, rfl⟩
    | false =>
      refine ⟨.execute (boot.type earlier).editor, ?_, ?_, rfl⟩
      all_goals
        unfold ShellEditor.execute
        split
        · rfl
        · rfl
  obtain ⟨text, hbytes, hpublish⟩ := publish_eq new editor
  rw [hpress, hpublish]
  refine ⟨⟨rfl, rfl, hbytes⟩, ?_⟩
  show min 0 text.len = editor.cursor
  rw [hcursor]
  exact Nat.zero_min _

/-- Typing the next key of a sequence. -/
theorem type_take_succ (t : Terminal) {keys : List KeyEvent} {n : Nat} (hn : n < keys.length) :
    t.type (keys.take (n + 1)) = (t.type (keys.take n)).press keys[n] := by
  rw [List.take_succ_eq_append_getElem hn]
  exact type_snoc t _ _

/-- The text agrees after every key of a line. -/
theorem Ready.type (h : t.Ready) {keys : List KeyEvent} (hkeys : ∀ key ∈ keys, key.edits = true) :
    ∀ n, n ≤ keys.length → (t.type (keys.take n)).Ready := by
  intro n
  induction n with
  | zero => exact fun _ => h
  | succ n ih =>
    intro hn
    rw [t.type_take_succ hn]
    exact (ih (Nat.le_of_succ_le hn)).press (hkeys _ (List.getElem_mem hn))

/-- For every session and every line typed in it, the prompt agrees with the
editor after every key exactly when each `Tab`, `ArrowUp` and `ArrowDown` takes
the editor to the end of its line. -/
theorem prompt_agrees_iff (earlier : List KeyEvent) (cancelled : Bool) (keys : List KeyEvent)
    (hkeys : ∀ key ∈ keys, key.edits = true) :
    (∀ n, n ≤ keys.length → ((newLine earlier cancelled).type (keys.take n)).Agrees)
      ↔ ∀ n (hn : n < keys.length),
          ((newLine earlier cancelled).type (keys.take n)).editor.landsAtEnd keys[n] := by
  obtain ⟨hready, hcursor⟩ := newLine_ready earlier cancelled
  have hrun := hready.type hkeys
  constructor
  · intro hagrees n hn
    have hnext := (hagrees (n + 1) hn).2
    rw [type_take_succ _ hn] at hnext
    exact ((hrun n (Nat.le_of_lt hn)).sameCursor_iff (hagrees n (Nat.le_of_lt hn)).2
      (hkeys _ (List.getElem_mem hn))).mp hnext
  · intro hlands n hn
    refine ⟨(hrun n hn).text, ?_⟩
    induction n with
    | zero => exact hcursor
    | succ n ih =>
      have hbefore := Nat.le_of_succ_le hn
      rw [type_take_succ _ hn]
      exact ((hrun n hbefore).sameCursor_iff (ih hbefore) (hkeys _ (List.getElem_mem hn))).mpr
        (hlands n hn)

/-- Typing `ls`, entering it, and recalling it: the keys `m`, `ArrowUp`, `Home`. -/
theorem prompt_agrees_recall :
    ((newLine [.char 0x6c, .char 0x73] false).type [.char 0x6d, .arrowUp]).prompt.cursor = 2
    ∧ ∀ n, n ≤ 3 → ((newLine [.char 0x6c, .char 0x73] false).type
      ([.char 0x6d, .arrowUp, .home].take n)).Agrees := by
  refine ⟨by decide +kernel, (prompt_agrees_iff [.char 0x6c, .char 0x73] false
    [.char 0x6d, .arrowUp, .home] (by decide)).mpr ?_⟩
  decide +kernel

/-- With an empty history, `a`, `ArrowLeft`, `ArrowUp`: the prompt shows the cursor
behind the character, the editor has it before. -/
theorem prompt_differs :
    ((newLine [] false).type [.char 0x61, .arrowLeft, .arrowUp]).prompt.cursor = 1
    ∧ ((newLine [] false).type [.char 0x61, .arrowLeft, .arrowUp]).editor.cursor = 0
    ∧ ¬ ∀ n, n ≤ 3 →
        ((newLine [] false).type ([.char 0x61, .arrowLeft, .arrowUp].take n)).Agrees := by
  decide +kernel

end Terminal

end GenOS.Shell
