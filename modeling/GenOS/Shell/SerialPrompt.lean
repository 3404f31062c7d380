/-
  GenOS.Shell.SerialPrompt — the kernel's picture of the input line.

  Translates `serial_prompt.rs` and the way a line reaches it: the text that
  `copy_user_text` makes of it in the console call behind `console_set_input`.  The prompt predicts the cursor from the keys alone; the
  text is whatever the shell publishes.
-/
import GenOS.Shell.Editor
import GenOS.Vfs.PathPolicy

namespace GenOS.Shell

open GenOS.Lib GenOS.Vfs

/-! ## §1. Text. -/

/-- `USER_CONSOLE_TEXT_MAX`. -/
def userConsoleTextMax : Nat := 80

/-- `terminal_data_byte`. -/
def terminalDataByte (b : UInt8) : UInt8 := if 0x20 ≤ b ∧ b ≤ 0x7e then b else 0x3f

/-- The text that the kernel takes from a console call: `copy_user_text`, or no
text for an empty line. -/
def consoleText (bytes : Bytes) : Option FixedText :=
  if bytes = [] then some .empty
  else if userConsoleTextMax < bytes.length then none
  else some (.fromStr (bytes.map terminalDataByte))

theorem isAscii_of_printable {b : UInt8} (h : printable b = true) : isAscii b = true := by
  unfold printable at h
  unfold isAscii
  rw [decide_eq_true_eq] at h ⊢
  exact UInt8.lt_of_le_of_lt h.2 (by decide)

theorem terminalDataByte_of_printable {b : UInt8} (h : printable b = true) :
    terminalDataByte b = b :=
  if_pos (of_decide_eq_true h)

/-- A line of the editor reaches the kernel as it is. -/
theorem consoleText_line (l : Line userConsoleTextMax) :
    ∃ text, consoleText l.bytes = some text ∧ text.bytes = l.bytes := by
  unfold consoleText
  by_cases hempty : l.bytes = []
  · rw [if_pos hempty, hempty]
    exact ⟨.empty, rfl, rfl⟩
  · have hlong : ¬ userConsoleTextMax < l.bytes.length := Nat.not_lt.mpr l.fits
    rw [if_neg hempty, if_neg hlong]
    refine ⟨_, rfl, ?_⟩
    have hsame : l.bytes.map terminalDataByte = l.bytes := by
      rw [List.map_congr_left fun b hb => terminalDataByte_of_printable (l.printable b hb)]
      exact List.map_id' l.bytes
    rw [hsame]
    exact FixedText.fromStr_asStr (Nat.le_trans l.fits (by decide)) fun b hb =>
      isAscii_of_printable (l.printable b hb)

/-! ## §2. The prompt. -/

/-- `KeyEvent`. -/
inductive KeyEvent where
  | char (byte : UInt8)
  | enter
  | backspace
  | escape
  | tab
  | arrowUp
  | arrowDown
  | arrowLeft
  | arrowRight
  | home
  | «end»
  | delete
  | cancel
deriving DecidableEq

/-- `InputEcho`. -/
inductive InputEcho where
  | none
  | char (byte : UInt8)
  | eraseLast
  | redraw
deriving DecidableEq

/-- `SerialPrompt`. -/
structure SerialPrompt where
  active : Bool
  input : FixedText
  cursor : Nat
  redraw : Bool
  seekEnd : Bool

namespace SerialPrompt

/-- `new`. -/
def new : SerialPrompt := ⟨false, .empty, 0, false, false⟩

section

variable (p : SerialPrompt)

/-- `activate`. -/
def activate : SerialPrompt := { p with active := true }

/-- `finish_command`. -/
def finishCommand (_ : SerialPrompt) : SerialPrompt := ⟨false, .empty, 0, false, false⟩

/-- The echo of a key that edits at the end of the line as `atEnd` says. -/
def echoAt (atEnd : InputEcho) : InputEcho :=
  if p.cursor = p.input.len then atEnd else .redraw

/-- `note_key`. -/
def noteKey (key : KeyEvent) : SerialPrompt × InputEcho :=
  if p.active = false then (p, .none)
  else
    match key with
    | .char byte =>
      if p.input.len < userConsoleTextMax then
        let echo := p.echoAt (.char byte)
        ({ p with cursor := p.cursor + 1, redraw := decide (echo = .redraw) }, echo)
      else (p, .none)
    | .backspace =>
      if 0 < p.cursor then
        let echo := p.echoAt .eraseLast
        ({ p with cursor := p.cursor - 1, redraw := decide (echo = .redraw) }, echo)
      else (p, .none)
    | .delete => if p.cursor < p.input.len then ({ p with redraw := true }, .redraw) else (p, .none)
    | .arrowLeft =>
      if 0 < p.cursor then ({ p with cursor := p.cursor - 1, redraw := true }, .redraw)
      else (p, .none)
    | .arrowRight =>
      if p.cursor < p.input.len then ({ p with cursor := p.cursor + 1, redraw := true }, .redraw)
      else (p, .none)
    | .home => ({ p with cursor := 0, seekEnd := false, redraw := true }, .redraw)
    | .end | .arrowUp | .arrowDown | .tab =>
      ({ p with cursor := p.input.len, seekEnd := true, redraw := true }, .redraw)
    | .enter | .escape | .cancel => (p, .none)

/-- `set_input`: the new prompt, and whether to redraw. -/
def setInput (input : FixedText) : SerialPrompt × Bool :=
  ({ p with
      input := input
      cursor := if p.seekEnd then input.len else min p.cursor input.len
      seekEnd := false
      redraw := false },
    p.active && p.redraw)

theorem noteKey_active (key : KeyEvent) : (p.noteKey key).1.active = p.active := by
  unfold noteKey
  split
  · rfl
  · cases key <;> dsimp only <;> split <;> rfl

/-- The keys after which the cursor is expected at the end of the line. -/
def seeks : KeyEvent → Bool
  | .end | .arrowUp | .arrowDown | .tab => true
  | _ => false

/-- The cursor that an active prompt predicts from a key. -/
def predicted : KeyEvent → Nat
  | .char _ => if p.input.len < userConsoleTextMax then p.cursor + 1 else p.cursor
  | .backspace | .arrowLeft => p.cursor - 1
  | .arrowRight => if p.cursor < p.input.len then p.cursor + 1 else p.cursor
  | .home => 0
  | .end | .arrowUp | .arrowDown | .tab => p.input.len
  | .delete | .enter | .escape | .cancel => p.cursor

end

section Active

variable {p : SerialPrompt} (hactive : p.active = true)

include hactive

theorem noteKey_seekEnd (hseek : p.seekEnd = false) (key : KeyEvent) :
    (p.noteKey key).1.seekEnd = seeks key := by
  have hrun : ¬ p.active = false := by rw [hactive]; nofun
  unfold noteKey
  rw [if_neg hrun]
  cases key <;> dsimp only <;> (try split) <;> first | rfl | exact hseek

theorem noteKey_cursor (key : KeyEvent) : (p.noteKey key).1.cursor = p.predicted key := by
  have hrun : ¬ p.active = false := by rw [hactive]; nofun
  unfold noteKey predicted
  rw [if_neg hrun]
  cases key with
  | backspace =>
    -- at the start of the line the key is ignored, and `0 - 1 = 0`
    dsimp only
    split
    · rfl
    · show p.cursor = p.cursor - 1
      omega
  | arrowLeft =>
    dsimp only
    split
    · rfl
    · show p.cursor = p.cursor - 1
      omega
  | char byte | arrowRight | delete =>
    dsimp only
    split
    · rfl
    · rfl
  | _ => rfl

end Active

end SerialPrompt

end GenOS.Shell
