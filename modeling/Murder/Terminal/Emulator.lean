import Murder.Terminal.Buffer
import Murder.Terminal.Decoder

/-! The VT emulator: raw bytes through its parser, control sequences on the active buffer,
and the snapshot a keyframe carries.
-/

namespace Murder.Terminal

inductive ParserPhase
  | text
  | esc
  | csi
  | string
deriving DecidableEq

/-- The partial sequence and the partial character the emulator retains between bytes. -/
structure VtParser where
  phase : ParserPhase := .text
  csi : List UInt8 := []
  stringEsc : Bool := false
  pending : List UInt8 := []
deriving DecidableEq

structure VtCursor where
  x : Nat
  y : Nat
  visible : Bool
  shape : CursorShape
deriving DecidableEq

structure VtBufferSnapshot where
  cells : VtScreen
  cursor : VtCursor
  savedCursor : VtCursor
  savedRendition : VtRendition
  rendition : VtRendition
  scrollTop : Nat
  scrollBottom : Nat
  wrapPending : Bool
deriving DecidableEq

inductive ActiveBuffer
  | primary
  | alternate
deriving DecidableEq

structure VtSnapshot where
  columns : Nat
  rows : Nat
  primary : VtBufferSnapshot
  alternate : VtBufferSnapshot
  activeBuffer : ActiveBuffer
  modes : VtModes
deriving DecidableEq

structure VtEmulator where
  size : VtSize
  buffer : VtBuffer
  modes : VtModes := {}
  usingAlternate : Bool := false
  primaryState : VtBufferSnapshot
  alternateState : VtBufferSnapshot
  parser : VtParser := {}
deriving DecidableEq

/-- `_current_buffer_state` of the live attributes. -/
def VtBuffer.state (buffer : VtBuffer) : VtBufferSnapshot where
  cells := buffer.cells
  cursor := ⟨buffer.x, buffer.y, buffer.cursorVisible, buffer.cursorShape⟩
  savedCursor := ⟨buffer.savedX, buffer.savedY, buffer.cursorVisible, buffer.cursorShape⟩
  savedRendition := buffer.savedRendition
  rendition := buffer.rendition
  scrollTop := buffer.scrollTop
  scrollBottom := buffer.scrollBottom
  wrapPending := buffer.pendingWrap

/-- `_restore_buffer_state`: the live attributes a state stands for. -/
def VtBufferSnapshot.restore (state : VtBufferSnapshot) : VtBuffer where
  cells := state.cells
  x := state.cursor.x
  y := state.cursor.y
  savedX := state.savedCursor.x
  savedY := state.savedCursor.y
  savedRendition := state.savedRendition
  rendition := state.rendition
  scrollTop := state.scrollTop
  scrollBottom := state.scrollBottom
  cursorVisible := state.cursor.visible
  cursorShape := state.cursor.shape
  pendingWrap := state.wrapPending

def blankBuffer (size : VtSize) : VtBuffer where
  cells := blankScreen size.columns size.rows
  scrollBottom := size.rows - 1

namespace VtEmulator

/-- The emulator of a blank terminal; its dimensions must be positive. -/
def init (columns rows : Int) : Except VtError VtEmulator :=
  if columns < 1 ∨ rows < 1 then
    .error .valueError
  else
    let size : VtSize := ⟨columns.toNat, rows.toNat⟩
    .ok {
      size := size
      buffer := blankBuffer size
      primaryState := (blankBuffer size).state
      alternateState := (blankBuffer size).state
    }

def storeActiveState (emulator : VtEmulator) : VtEmulator :=
  if emulator.usingAlternate then
    { emulator with alternateState := emulator.buffer.state }
  else
    { emulator with primaryState := emulator.buffer.state }

/-- The value of a snapshot; taking it also stores the active state. -/
def snapshot (emulator : VtEmulator) : VtSnapshot :=
  let emulator := emulator.storeActiveState
  {
    columns := emulator.size.columns
    rows := emulator.size.rows
    primary := emulator.primaryState
    alternate := emulator.alternateState
    activeBuffer := if emulator.usingAlternate then .alternate else .primary
    modes := emulator.modes
  }

def enterAlternate (emulator : VtEmulator) : VtEmulator :=
  if emulator.usingAlternate then
    emulator
  else
    let emulator := emulator.storeActiveState
    { emulator with
      buffer := emulator.alternateState.restore
      usingAlternate := true }

def leaveAlternate (emulator : VtEmulator) : VtEmulator :=
  if emulator.usingAlternate then
    let emulator := emulator.storeActiveState
    { emulator with
      buffer := emulator.primaryState.restore
      usingAlternate := false }
  else
    emulator

def onBuffer (operation : VtBuffer → VtBuffer) (emulator : VtEmulator) : VtEmulator :=
  { emulator with buffer := operation emulator.buffer }

def tryBuffer (operation : VtBuffer → Except VtError VtBuffer) (emulator : VtEmulator)
    : Except VtError VtEmulator := do
  let buffer ← operation emulator.buffer
  pure { emulator with buffer := buffer }

def setPrivateMode (param : Nat) (enabled : Bool) (emulator : VtEmulator) : VtEmulator :=
  let modes := emulator.modes
  match param with
  | 1 => { emulator with modes := { modes with applicationCursor := enabled } }
  | 6 =>
    let modes := { modes with origin := enabled }
    { emulator with
      modes := modes
      buffer := { emulator.buffer with x := 0, y := emulator.buffer.homeTop modes } }
  | 7 => { emulator with modes := { modes with wraparound := enabled } }
  | 25 => { emulator with buffer := { emulator.buffer with cursorVisible := enabled } }
  | 47 | 1047 => if enabled then emulator.enterAlternate else emulator.leaveAlternate
  | 1049 =>
    if enabled then
      (emulator.onBuffer VtBuffer.saveCursor).enterAlternate
    else
      emulator.leaveAlternate.onBuffer (VtBuffer.restoreCursor emulator.size)
  | 2004 => { emulator with modes := { modes with bracketedPaste := enabled } }
  | 2026 => { emulator with modes := { modes with synchronizedUpdates := enabled } }
  | _ => emulator

def setModes (params : List Nat) (isPrivate enabled : Bool) (emulator : VtEmulator)
    : VtEmulator :=
  params.foldl (fun emulator param =>
    if isPrivate then
      emulator.setPrivateMode param enabled
    else if param = 4 then
      { emulator with modes := { emulator.modes with insert := enabled } }
    else
      emulator) emulator

end VtEmulator

def sgrParam (p : Nat) (value : VtRendition) : VtRendition :=
  match p with
  | 0 => defaultRendition
  | 1 => { value with bold := true }
  | 2 => { value with faint := true }
  | 3 => { value with italic := true }
  | 4 => { value with underline := true }
  | 5 => { value with blink := true }
  | 7 => { value with inverse := true }
  | 8 => { value with invisible := true }
  | 9 => { value with strike := true }
  | 22 => { value with bold := false, faint := false }
  | 23 => { value with italic := false }
  | 24 => { value with underline := false }
  | 25 => { value with blink := false }
  | 27 => { value with inverse := false }
  | 28 => { value with invisible := false }
  | 29 => { value with strike := false }
  | 39 => { value with foreground := none }
  | 49 => { value with background := none }
  | p =>
    if (30 ≤ p ∧ p ≤ 37) ∨ (90 ≤ p ∧ p ≤ 97) then
      { value with foreground := some (.palette (if p < 90 then p - 30 else p - 82)) }
    else if (40 ≤ p ∧ p ≤ 47) ∨ (100 ≤ p ∧ p ≤ 107) then
      { value with background := some (.palette (if p < 100 then p - 40 else p - 92)) }
    else
      value

def selectColor (p : Nat) (color : VtColor) (value : VtRendition) : VtRendition :=
  if p = 38 then { value with foreground := some color }
  else { value with background := some color }

def sgr : List Nat → VtRendition → VtRendition
  | [], value => value
  | p :: 5 :: index :: rest, value =>
    if p = 38 ∨ p = 48 then sgr rest (selectColor p (.palette index) value)
    else sgr (5 :: index :: rest) (sgrParam p value)
  | p :: 2 :: red :: green :: blue :: rest, value =>
    if p = 38 ∨ p = 48 then
      sgr rest (selectColor p (.rgb (min 255 red) (min 255 green) (min 255 blue)) value)
    else sgr (2 :: red :: green :: blue :: rest) (sgrParam p value)
  | p :: rest, value => sgr rest (sgrParam p value)

def isDigits (part : List Char) : Bool := part ≠ [] && part.all Char.isDigit

/-- `int` of decimal digits, which refuses more than 4300 of them. -/
def parseInt (part : List Char) : Except VtError Nat :=
  if 4300 < part.length then .error .valueError
  else .ok (part.foldl (fun value digit => value * 10 + (digit.toNat - 48)) 0)

/-- `decode("ascii", "ignore")`. -/
def decodeAscii (bytes : List UInt8) : List Char :=
  (bytes.filter (· < 0x80)).map (fun byte => Char.ofNat byte.toNat)

/-- The parameters between semicolons; what is no number counts as zero. -/
def csiParams (body : List Char) : Except VtError (List Nat) :=
  if body = [] then .ok []
  else (body.splitOn ';').mapM (fun part => if isDigits part then parseInt part else .ok 0)

/-- The parameter at a place, when it is there and not zero. -/
def paramAt (params : List Nat) (place default_ : Nat) : Nat :=
  match params[place]? with
  | some 0 => default_
  | some value => value
  | none => default_

def cursorShapeOf : Nat → CursorShape
  | 3 | 4 => .underline
  | 5 | 6 => .bar
  | _ => .block

namespace VtEmulator

def csiBuffer (size : VtSize) (modes : VtModes) (final : Char) (params : List Nat)
    (buffer : VtBuffer) : Except VtError VtBuffer :=
  let one := paramAt params 0 1
  let top := buffer.homeTop modes
  let bottom := buffer.homeBottom size modes
  match final with
  | 'A' => .ok { buffer with y := max top (buffer.y - one) }
  | 'B' => .ok { buffer with y := min bottom (buffer.y + one) }
  | 'C' => .ok { buffer with x := min (size.columns - 1) (buffer.x + one) }
  | 'D' => .ok { buffer with x := buffer.x - one }
  | 'E' => .ok { buffer with y := min bottom (buffer.y + one), x := 0 }
  | 'F' => .ok { buffer with y := max top (buffer.y - one), x := 0 }
  | 'G' | '\x60' => .ok { buffer with x := min (size.columns - 1) (one - 1) }
  | 'H' | 'f' =>
    let buffer := buffer.moveToRow size modes (one - 1)
    .ok { buffer with x := min (size.columns - 1) (paramAt params 1 1 - 1) }
  | 'd' => .ok (buffer.moveToRow size modes (one - 1))
  | 'J' => buffer.eraseDisplay size (params.headD 0)
  | 'K' => buffer.eraseLine size (params.headD 0)
  | 'X' => buffer.eraseChars size one
  | '@' => buffer.insertChars size one
  | 'P' => buffer.deleteChars size one
  | 'L' => .ok (buffer.insertLines size one)
  | 'M' => .ok (buffer.deleteLines size one)
  | 'S' => .ok (buffer.scrollUp size one)
  | 'T' => .ok (buffer.scrollDown size one)
  | 'r' =>
    let top := one - 1
    let bottom := paramAt params 1 size.rows - 1
    let buffer :=
      if top < bottom ∧ bottom < size.rows then
        { buffer with scrollTop := top, scrollBottom := bottom }
      else
        buffer
    .ok { buffer with x := 0, y := buffer.homeTop modes }
  | 'm' =>
    .ok { buffer with rendition := sgr (if params = [] then [0] else params) buffer.rendition }
  | 's' => .ok buffer.saveCursor
  | 'u' => .ok (buffer.restoreCursor size)
  | _ => .ok buffer

def csiDispatch (body : List UInt8) (final : UInt8) (emulator : VtEmulator)
    : Except VtError VtEmulator := do
  let final := Char.ofNat final.toNat
  let body := decodeAscii body
  let cursorStyle := final == 'q' && body.getLast? == some ' '
  let body := if cursorStyle then body.dropLast else body
  let isPrivate := body.head? == some '?'
  let body := if isPrivate then body.tail else body
  let params ← csiParams body
  let emulator := emulator.onBuffer (fun buffer => { buffer with pendingWrap := false })
  if final = 'h' then
    pure (emulator.setModes params isPrivate true)
  else if final = 'l' then
    pure (emulator.setModes params isPrivate false)
  else if cursorStyle then
    pure (emulator.onBuffer (fun buffer =>
      { buffer with cursorShape := cursorShapeOf (paramAt params 0 1) }))
  else
    emulator.tryBuffer (csiBuffer emulator.size emulator.modes final params)

/-- RIS; the cells of the active buffer stay as they are. -/
def reset (emulator : VtEmulator) : VtEmulator :=
  leaveAlternate { emulator with
    buffer := { emulator.buffer with
      rendition := defaultRendition
      scrollTop := 0
      scrollBottom := emulator.size.rows - 1
      x := 0
      y := 0
      cursorVisible := true
      pendingWrap := false }
    modes := {} }

def setPhase (phase : ParserPhase) (emulator : VtEmulator) : VtEmulator :=
  { emulator with parser := { emulator.parser with phase := phase } }

def escape (byte : UInt8) (emulator : VtEmulator) : VtEmulator :=
  let emulator := emulator.setPhase .text
  match Char.ofNat byte.toNat with
  | '[' => emulator.setPhase .csi
  | ']' | 'P' | '^' | '_' =>
    { emulator with parser := { emulator.parser with phase := .string, stringEsc := false } }
  | '7' => emulator.onBuffer VtBuffer.saveCursor
  | '8' => emulator.onBuffer (VtBuffer.restoreCursor emulator.size)
  | 'D' => emulator.onBuffer (VtBuffer.index emulator.size)
  | 'M' => emulator.onBuffer (VtBuffer.reverseIndex emulator.size)
  | 'E' => emulator.onBuffer (fun buffer => { buffer.index emulator.size with x := 0 })
  | '=' => { emulator with modes := { emulator.modes with applicationKeypad := true } }
  | '>' => { emulator with modes := { emulator.modes with applicationKeypad := false } }
  | 'c' => emulator.reset
  | _ => emulator

def control (size : VtSize) (byte : UInt8) (buffer : VtBuffer) : VtBuffer :=
  if byte = 0x08 then
    { buffer with x := buffer.x - 1, pendingWrap := false }
  else if byte = 0x09 then
    { buffer with
      x := min (size.columns - 1) ((buffer.x / 8 + 1) * 8)
      pendingWrap := false }
  else if byte = 0x0A ∨ byte = 0x0B ∨ byte = 0x0C then
    buffer.index size
  else if byte = 0x0D then
    { buffer with x := 0, pendingWrap := false }
  else
    buffer

section Feed

variable [UnicodeData]

/-- Print characters in order. -/
def putChars (text : List Char) (emulator : VtEmulator) : Except VtError VtEmulator :=
  text.foldlM (fun emulator char =>
    emulator.tryBuffer (VtBuffer.putChar emulator.size emulator.modes char)) emulator

def decodeText (data : List UInt8) (emulator : VtEmulator) : Except VtError VtEmulator :=
  let (text, pending) := decode emulator.parser.pending data
  putChars text { emulator with parser := { emulator.parser with pending := pending } }

def flushText (emulator : VtEmulator) : Except VtError VtEmulator := emulator.decodeText []

def feedString (byte : UInt8) (emulator : VtEmulator) : VtEmulator :=
  let parser := emulator.parser
  if byte = 0x07 ∨ (parser.stringEsc ∧ byte = 0x5C) then
    { emulator with parser := { parser with phase := .text, stringEsc := false } }
  else
    { emulator with parser := { parser with stringEsc := byte == 0x1B } }

/-- A byte of a control sequence, which holds 4096 of them at most. -/
def feedCsi (byte : UInt8) (emulator : VtEmulator) : Except VtError VtEmulator :=
  let parser := emulator.parser
  if 0x40 ≤ byte ∧ byte ≤ 0x7E then do
    let emulator ← emulator.csiDispatch parser.csi byte
    pure { emulator with parser := { parser with csi := [], phase := .text } }
  else if parser.csi.length < 4096 then
    .ok { emulator with parser := { parser with csi := parser.csi ++ [byte] } }
  else
    .ok { emulator with parser := { parser with csi := [], phase := .text } }

def feedByte (emulator : VtEmulator) (byte : UInt8) : Except VtError VtEmulator :=
  match emulator.parser.phase with
  | .string => .ok (emulator.feedString byte)
  | .esc => .ok (emulator.escape byte)
  | .csi => emulator.feedCsi byte
  | .text =>
    if byte = 0x1B then do
      let emulator ← emulator.flushText
      pure (emulator.setPhase .esc)
    else if byte < 0x20 ∨ byte = 0x7F then do
      let emulator ← emulator.flushText
      pure (emulator.onBuffer (control emulator.size byte))
    else
      emulator.decodeText [byte]

/-- Feed raw bytes; partial characters and sequences are retained. -/
def feed (data : List UInt8) (emulator : VtEmulator) : Except VtError VtEmulator :=
  data.foldlM feedByte emulator

end Feed

end VtEmulator

end Murder.Terminal
