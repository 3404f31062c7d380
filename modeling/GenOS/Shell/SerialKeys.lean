/-
  GenOS.Shell.SerialKeys — the byte-to-key decoder of the serial terminal.

  Translates `feed` and `paste_byte` of `serial_keys.rs`; the parameter bytes in
  use are a list.  `last_tick` is read by `expire` alone and left out.  While the
  decoder is inside a bracketed paste, its mode says how the pasted text read so
  far ends (`Ending`), so that only the end marker takes it out again.
-/
import GenOS.Shell.SerialPrompt

namespace GenOS.Shell

open GenOS.Lib List

/-! ## §1. The decoder. -/

/-- `Mode`. -/
inductive Mode where
  | idle
  | escape
  | csi
  | ss3
  | paste
  | pasteEscape
  | pasteCsi
deriving DecidableEq

/-- `PASTE_LIMIT`. -/
def pasteLimit : Nat := 512

/-- `SerialKeys`. -/
structure SerialKeys where
  mode : Mode
  /-- `parameters[..len]`. -/
  parameters : Bytes
  pasteBytes : Nat
  dropPaste : Bool
deriving DecidableEq

namespace SerialKeys

/-- `new`. -/
def new : SerialKeys := ⟨.idle, [], 0, false⟩

/-- The test `(0x30..=0x3f).contains(&byte)`. -/
def parameter (byte : UInt8) : Bool := decide (0x30 ≤ byte ∧ byte ≤ 0x3f)

/-- The key of a byte outside of any sequence. -/
def idleKey (byte : UInt8) : Option KeyEvent :=
  if byte = 0x0d ∨ byte = 0x0a then some .enter
  else if byte = 8 ∨ byte = 0x7f then some .backspace
  else if byte = 9 then some .tab
  else if byte = 1 then some .home
  else if byte = 5 then some .end
  else if byte = 4 then some .delete
  else if printable byte then some (.char byte)
  else none

/-- The key of a control sequence other than the start of a paste. -/
def csiKey (parameters : Bytes) (byte : UInt8) : Option KeyEvent :=
  if parameters = [] ∧ byte = 0x41 then some .arrowUp
  else if parameters = [] ∧ byte = 0x42 then some .arrowDown
  else if parameters = [] ∧ byte = 0x43 then some .arrowRight
  else if parameters = [] ∧ byte = 0x44 then some .arrowLeft
  else if parameters ∈ [[], [0x31], [0x37]] ∧ byte = 0x48 then some .home
  else if parameters ∈ [[], [0x34], [0x38]] ∧ byte = 0x46 then some .end
  else if parameters ∈ [[0x31], [0x37]] ∧ byte = 0x7e then some .home
  else if parameters ∈ [[0x34], [0x38]] ∧ byte = 0x7e then some .end
  else if parameters = [0x33] ∧ byte = 0x7e then some .delete
  else none

variable (s : SerialKeys)

/-- `paste_byte`. -/
def pasteByte (byte : UInt8) : SerialKeys × Option KeyEvent :=
  if s.dropPaste then (s, none)
  else if pasteLimit < s.pasteBytes + 1 then
    ({ s with pasteBytes := s.pasteBytes + 1, dropPaste := true }, some .cancel)
  else
    ({ s with pasteBytes := s.pasteBytes + 1 },
      if byte = 0x0d ∨ byte = 0x0a ∨ byte = 9 then some (.char 0x20)
      else if printable byte then some (.char byte)
      else none)

/-- `feed`. -/
def feed (byte : UInt8) : SerialKeys × Option KeyEvent :=
  if byte = 3 then ({ s with mode := .idle, parameters := [], dropPaste := false }, some .cancel)
  else
    match s.mode with
    | .idle => if byte = 0x1b then ({ s with mode := .escape }, none) else (s, idleKey byte)
    | .escape =>
      ({ s with
        parameters := []
        mode := if byte = 0x5b then .csi else if byte = 0x4f then .ss3 else .idle }, none)
    | .ss3 =>
      ({ s with mode := .idle },
        if byte = 0x48 then some .home else if byte = 0x46 then some .end else none)
    | .csi =>
      if parameter byte then
        ({ s with
          parameters :=
            if s.parameters.length < 8 then s.parameters ++ [byte] else .replicate 8 0 }, none)
      else if s.parameters = [0x32, 0x30, 0x30] ∧ byte = 0x7e then (⟨.paste, [], 0, false⟩, none)
      else ({ s with mode := .idle, parameters := [] }, csiKey s.parameters byte)
    | .paste => if byte = 0x1b then ({ s with mode := .pasteEscape }, none) else s.pasteByte byte
    | .pasteEscape =>
      (if byte = 0x5b then { s with mode := .pasteCsi, parameters := [] }
        else { s with mode := .paste }, none)
    | .pasteCsi =>
      if parameter byte then
        ({ s with
          parameters :=
            if s.parameters.length < 8 then s.parameters ++ [byte] else s.parameters }, none)
      else if s.parameters = [0x32, 0x30, 0x31] ∧ byte = 0x7e then
        ({ s with mode := .idle, dropPaste := false, parameters := [] }, none)
      else ({ s with mode := .paste, parameters := [] }, none)

/-- The decoder fed byte after byte, with the keys it gives. -/
def run (s : SerialKeys) : Bytes → SerialKeys × List KeyEvent
  | [] => (s, [])
  | byte :: bytes =>
    let (next, key) := s.feed byte
    let (last, keys) := next.run bytes
    (last, key.toList ++ keys)

theorem run_cons (byte : UInt8) (bytes : Bytes) :
    s.run (byte :: bytes) = (((s.feed byte).1.run bytes).1,
      (s.feed byte).2.toList ++ ((s.feed byte).1.run bytes).2) := rfl

theorem run_append (bytes more : Bytes) :
    s.run (bytes ++ more)
      = (((s.run bytes).1.run more).1, (s.run bytes).2 ++ ((s.run bytes).1.run more).2) := by
  induction bytes generalizing s with
  | nil => rfl
  | cons byte bytes ih =>
    rw [cons_append, run_cons, run_cons, ih, append_assoc]

/-! ## §2. A decoder that is not in a paste. -/

/-- The decoder as far as it decides the keys: the counters of a paste matter
inside of one only. -/
def forget : SerialKeys :=
  if s.mode ∈ [.paste, .pasteEscape, .pasteCsi] then s
  else { s with pasteBytes := 0, dropPaste := false }

theorem feed_forget (byte : UInt8) :
    (s.feed byte).2 = (s.forget.feed byte).2
      ∧ (s.feed byte).1.forget = (s.forget.feed byte).1.forget := by
  obtain ⟨mode, parameters, pasteBytes, dropPaste⟩ := s
  by_cases hcancel : byte = 3
  · cases mode <;> simp [feed, forget, hcancel]
  cases mode with
  | paste | pasteEscape | pasteCsi => exact ⟨rfl, rfl⟩
  | ss3 => simp [feed, forget, hcancel]
  | idle => by_cases hesc : byte = 0x1b <;> simp [feed, forget, hcancel, hesc]
  | escape =>
    by_cases hcsi : byte = 0x5b <;> by_cases hss3 : byte = 0x4f <;>
      simp [feed, forget, hcancel, hcsi, hss3]
  | csi =>
    by_cases hpar : parameter byte = true
    · simp [feed, forget, hcancel, hpar]
    · by_cases hbegin : parameters = [0x32, 0x30, 0x30] ∧ byte = 0x7e
      · obtain ⟨rfl, rfl⟩ := hbegin
        exact ⟨rfl, rfl⟩
      · simp [feed, forget, hcancel, hpar, hbegin]

theorem run_forget {s t : SerialKeys} (h : s.forget = t.forget) (bytes : Bytes) :
    (s.run bytes).2 = (t.run bytes).2 := by
  induction bytes generalizing s t with
  | nil => rfl
  | cons byte bytes ih =>
    have hs := s.feed_forget byte
    have ht := t.feed_forget byte
    rw [h] at hs
    rw [run_cons, run_cons, hs.1, ← ht.1]
    exact congrArg ((t.feed byte).2.toList ++ ·) (ih (hs.2.trans ht.2.symm))

/-! ## §3. Inside a paste. -/

/-- `ESC [ 2 0 0 ~`. -/
def pasteBegin : Bytes := [0x1b, 0x5b, 0x32, 0x30, 0x30, 0x7e]

/-- `ESC [ 2 0 1 ~`. -/
def pasteEnd : Bytes := [0x1b, 0x5b, 0x32, 0x30, 0x31, 0x7e]

/-- The pasted text ends in a control sequence of these parameters, so far. -/
def Unfinished (text parameters : Bytes) : Prop :=
  0x1b :: 0x5b :: parameters <:+ text ∧ ∀ b ∈ parameters, parameter b = true

/-- What the mode says about the end of the pasted text. -/
def Ending (text : Bytes) : Prop :=
  match s.mode with
  | .paste => True
  | .pasteEscape => [0x1b] <:+ text
  | .pasteCsi => ∃ parameters, Unfinished text parameters ∧ s.parameters = parameters.take 8
  | _ => False

/-- Is the key a character? -/
def isChar : KeyEvent → Bool
  | .char _ => true
  | _ => false

/-- The keys that a paste gave so far. -/
structure Counted (keys : List KeyEvent) : Prop where
  noEnter : .enter ∉ keys
  chars : keys.countP isChar ≤ min s.pasteBytes pasteLimit
  cancels : keys.count .cancel = if s.dropPaste then 1 else 0
  counted : s.dropPaste = false → s.pasteBytes ≤ pasteLimit

variable {s} {text : Bytes} {byte : UInt8} {keys : List KeyEvent}

theorem Counted.none (h : s.Counted keys) {t : SerialKeys} (hbytes : t.pasteBytes = s.pasteBytes)
    (hdrop : t.dropPaste = s.dropPaste) : t.Counted (keys ++ []) := by
  rw [append_nil]
  obtain ⟨hnoEnter, hchars, hcancels, hcounted⟩ := h
  rw [← hbytes] at hchars hcounted
  rw [← hdrop] at hcancels hcounted
  exact ⟨hnoEnter, hchars, hcancels, hcounted⟩

theorem Counted.pasteByte (h : s.Counted keys) (byte : UInt8) :
    (s.pasteByte byte).1.Counted (keys ++ (s.pasteByte byte).2.toList) := by
  obtain ⟨hnoEnter, hchars, hcancels, hcounted⟩ := h
  unfold SerialKeys.pasteByte
  split
  · exact Counted.none ⟨hnoEnter, hchars, hcancels, hcounted⟩ rfl rfl
  rename_i hdrop
  rw [if_neg hdrop] at hcancels
  split
  · refine ⟨by simp [hnoEnter], ?_, by simp [hcancels], nofun⟩
    rw [countP_append]
    exact Nat.le_trans hchars (by show min _ _ ≤ min (s.pasteBytes + 1) _; omega)
  · rename_i hlimit
    have hroom : s.pasteBytes + 1 ≤ pasteLimit := Nat.not_lt.mp hlimit
    have hone : min s.pasteBytes pasteLimit + 1 ≤ min (s.pasteBytes + 1) pasteLimit := by omega
    have hchar (b : UInt8) :
        Counted { s with pasteBytes := s.pasteBytes + 1 } (keys ++ [.char b]) := by
      refine ⟨by simp [hnoEnter], ?_, by simp [hcancels, hdrop], fun _ => hroom⟩
      rw [countP_append]
      exact Nat.le_trans (Nat.add_le_add_right hchars 1) hone
    split_ifs
    · exact hchar 0x20
    · exact hchar byte
    · refine ⟨by simp [hnoEnter], ?_, by simp [hcancels, hdrop], fun _ => hroom⟩
      rw [Option.toList_none, append_nil]
      exact Nat.le_trans hchars (Nat.le_trans (Nat.le_succ _) hone)

theorem pasteByte_mode (byte : UInt8) : (s.pasteByte byte).1.mode = s.mode := by
  unfold pasteByte
  split_ifs <;> rfl

/-- A byte of the pasted text, other than the last one of an end marker. -/
theorem feed_paste (hend : s.Ending text) (hcounted : s.Counted keys) (hcancel : byte ≠ 3)
    (hmarker : ¬ pasteEnd <:+ text ++ [byte]) :
    (s.feed byte).1.Ending (text ++ [byte])
      ∧ (s.feed byte).1.Counted (keys ++ (s.feed byte).2.toList) := by
  unfold Ending at hend
  unfold feed
  rw [if_neg hcancel]
  split at hend
  · rename_i hmode
    rw [hmode]
    dsimp only
    split
    · rename_i hesc
      exact ⟨⟨text, by rw [hesc]⟩, hcounted.none rfl rfl⟩
    · refine ⟨?_, hcounted.pasteByte byte⟩
      unfold Ending
      rw [pasteByte_mode, hmode]
      trivial
  · rename_i hmode
    rw [hmode]
    dsimp only
    obtain ⟨before, rfl⟩ := hend
    split
    · rename_i hbracket
      refine ⟨⟨[], ⟨⟨before, ?_⟩, by simp⟩, rfl⟩, hcounted.none rfl rfl⟩
      rw [hbracket, append_assoc]
      rfl
    · exact ⟨trivial, hcounted.none rfl rfl⟩
  · rename_i hmode
    rw [hmode]
    dsimp only
    obtain ⟨parameters, ⟨⟨before, rfl⟩, hall⟩, hpar⟩ := hend
    split
    · rename_i hparameter
      refine ⟨⟨parameters ++ [byte], ⟨⟨before, by simp⟩, ?_⟩, ?_⟩, hcounted.none rfl rfl⟩
      · exact forall_mem_append.mpr ⟨hall, forall_mem_singleton.mpr hparameter⟩
      · dsimp only
        rw [hpar, length_take, take_append]
        split
        · rw [take_of_length_le (l := [byte])]
          simp; omega
        · rw [show 8 - parameters.length = 0 by omega, take_zero, append_nil]
    · split
      · rename_i hlast
        -- fewer than eight parameters were read, so these are all of them
        refine absurd ⟨before, ?_⟩ hmarker
        have hlen := congrArg List.length (hpar.symm.trans hlast.1)
        rw [length_take] at hlen
        have hshort : parameters.length ≤ 8 := by simp at hlen; omega
        rw [hpar, take_of_length_le hshort] at hlast
        rw [hlast.1, hlast.2]
        simp [pasteEnd]
      · exact ⟨trivial, hcounted.none rfl rfl⟩
  · exact hend.elim

theorem run_paste {p : Bytes} (hend : s.Ending text) (hcounted : s.Counted keys)
    (hcancel : 3 ∉ p) (hmarker : ¬ pasteEnd <:+: text ++ p) :
    (s.run p).1.Ending (text ++ p) ∧ (s.run p).1.Counted (keys ++ (s.run p).2) := by
  induction p generalizing s text keys with
  | nil => rw [append_nil]; exact ⟨hend, hcounted.none rfl rfl⟩
  | cons byte p ih =>
    rw [append_cons] at hmarker ⊢
    rw [mem_cons, not_or] at hcancel
    obtain ⟨hend, hcounted⟩ := feed_paste hend hcounted (Ne.symm hcancel.1)
      fun h => hmarker (h.isInfix.trans ⟨[], p, rfl⟩)
    rw [run_cons, ← append_assoc]
    exact ih hend hcounted hcancel.2 hmarker

/-! ## §4. A whole paste. -/

theorem run_pasteBegin (hidle : s.mode = .idle) :
    s.run pasteBegin = (⟨.paste, [], 0, false⟩, []) := by
  simp [run, feed, pasteBegin, hidle, parameter]

theorem run_pasteEnd (hpaste : s.mode = .paste) :
    s.run pasteEnd = ({ s with mode := .idle, parameters := [], dropPaste := false }, []) := by
  simp [run, feed, pasteEnd, hpaste, parameter]

section

variable (s : SerialKeys) (p : Bytes) (hidle : s.mode = .idle) (hcancel : 3 ∉ p)

include hidle hcancel

theorem run_opened (hmarker : ¬ pasteEnd <:+: p) :
    (s.run (pasteBegin ++ p)).1.Ending p
      ∧ (s.run (pasteBegin ++ p)).1.Counted (s.run (pasteBegin ++ p)).2 := by
  rw [run_append, run_pasteBegin hidle]
  have hopened : Counted ⟨.paste, [], 0, false⟩ [] :=
    ⟨nofun, Nat.zero_le _, rfl, fun _ => Nat.zero_le _⟩
  have hend : Ending ⟨.paste, [], 0, false⟩ [] := trivial
  exact run_paste hend hopened hcancel hmarker

/-- **Pasted text submits no command**, as long as it does not hold the byte that
cancels. -/
theorem paste_never_submits (hmarker : ¬ pasteEnd <:+: p) :
    .enter ∉ (s.run (pasteBegin ++ p)).2 :=
  (run_opened s p hidle hcancel hmarker).2.noEnter

omit hidle hcancel in
/-- The text `a`, with a line end. -/
theorem paste_never_submits_line : .enter ∉ (new.run (pasteBegin ++ [0x61, 0x0d])).2 :=
  paste_never_submits new [0x61, 0x0d] rfl (by decide) (by decide)

omit hidle hcancel in
/-- After the byte that cancels, the rest of a pasted text is taken as typed. -/
theorem paste_submits_after_cancel :
    ¬ pasteEnd <:+: [3, 0x0d] ∧ (new.run (pasteBegin ++ [3, 0x0d])).2 = [.cancel, .enter] := by
  decide

end

theorem pasteEnd_once {p : Bytes} (h : ¬ pasteEnd <:+: (p ++ pasteEnd).dropLast)
    (before after : Bytes) (heq : p ++ pasteEnd = before ++ pasteEnd ++ after) : after = [] := by
  by_contra hne
  rw [heq, dropLast_append_of_ne_nil hne] at h
  exact h ⟨before, after.dropLast, rfl⟩

end SerialKeys

end GenOS.Shell
