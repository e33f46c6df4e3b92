import Murder.Terminal.Cells

/-! The live attributes of one screen buffer, and the operations that move its cursor, shift
its cells and print.
-/

namespace Murder.Terminal

inductive CursorShape
  | block
  | underline
  | bar
deriving DecidableEq

structure VtSize where
  columns : Nat
  rows : Nat
deriving DecidableEq

structure VtModes where
  applicationCursor : Bool := false
  applicationKeypad : Bool := false
  bracketedPaste : Bool := false
  insert : Bool := false
  origin : Bool := false
  wraparound : Bool := true
  synchronizedUpdates : Bool := false
deriving DecidableEq

/-- What the emulator holds of the active buffer; a buffer snapshot has the same content. -/
structure VtBuffer where
  cells : VtScreen
  x : Nat := 0
  y : Nat := 0
  savedX : Nat := 0
  savedY : Nat := 0
  savedRendition : VtRendition := defaultRendition
  rendition : VtRendition := defaultRendition
  scrollTop : Nat := 0
  scrollBottom : Nat
  cursorVisible : Bool := true
  cursorShape : CursorShape := .block
  pendingWrap : Bool := false
deriving DecidableEq

inductive EastAsianWidth
  | fullwidth
  | halfwidth
  | wide
  | narrow
  | ambiguous
  | neutral
deriving DecidableEq

/-- The character tables of `unicodedata`. -/
class UnicodeData where
  combining : Char → Nat
  eastAsianWidth : Char → EastAsianWidth

variable (char : Char) (buffer : VtBuffer) (size : VtSize) (modes : VtModes)

def isWide [UnicodeData] : Bool :=
  UnicodeData.eastAsianWidth char == .wide || UnicodeData.eastAsianWidth char == .fullwidth
    || 0x1F300 ≤ char.toNat

namespace VtBuffer

def scrollUp (count : Nat) (buffer : VtBuffer) : VtBuffer :=
  let count := min (max 1 count) (buffer.scrollBottom + 1 - buffer.scrollTop)
  let region := slice buffer.cells buffer.scrollTop (buffer.scrollBottom + 1)
  { buffer with
    cells := setSlice buffer.cells buffer.scrollTop (buffer.scrollBottom + 1)
      (region.drop count ++ List.replicate count (blankLine size.columns)) }

def scrollDown (count : Nat) (buffer : VtBuffer) : VtBuffer :=
  let count := min (max 1 count) (buffer.scrollBottom + 1 - buffer.scrollTop)
  let region := slice buffer.cells buffer.scrollTop (buffer.scrollBottom + 1)
  { buffer with
    cells := setSlice buffer.cells buffer.scrollTop (buffer.scrollBottom + 1)
      (List.replicate count (blankLine size.columns) ++ sliceTo region count) }

def index (buffer : VtBuffer) : VtBuffer :=
  let buffer :=
    if buffer.y = buffer.scrollBottom then
      buffer.scrollUp size 1
    else
      { buffer with y := min (size.rows - 1) (buffer.y + 1) }
  { buffer with pendingWrap := false }

def reverseIndex (buffer : VtBuffer) : VtBuffer :=
  if buffer.y = buffer.scrollTop then
    buffer.scrollDown size 1
  else
    { buffer with y := buffer.y - 1 }

def insertLines (count : Nat) (buffer : VtBuffer) : VtBuffer :=
  if ¬ (buffer.scrollTop ≤ buffer.y ∧ buffer.y ≤ buffer.scrollBottom) then
    buffer
  else
    let count := min count (buffer.scrollBottom + 1 - buffer.y)
    let region := slice buffer.cells buffer.y (buffer.scrollBottom + 1)
    { buffer with
      cells := setSlice buffer.cells buffer.y (buffer.scrollBottom + 1)
        (List.replicate count (blankLine size.columns) ++ sliceTo region count) }

def deleteLines (count : Nat) (buffer : VtBuffer) : VtBuffer :=
  if ¬ (buffer.scrollTop ≤ buffer.y ∧ buffer.y ≤ buffer.scrollBottom) then
    buffer
  else
    let count := min count (buffer.scrollBottom + 1 - buffer.y)
    let region := slice buffer.cells buffer.y (buffer.scrollBottom + 1)
    { buffer with
      cells := setSlice buffer.cells buffer.y (buffer.scrollBottom + 1)
        (region.drop count ++ List.replicate count (blankLine size.columns)) }

def rewriteRow (change : VtRow → VtRow) (buffer : VtBuffer) (screen : VtScreen)
    : Except VtError VtScreen :=
  updateRow screen buffer.y (fun row => repairWideCells size.columns (change row))

def blankRows (size : VtSize) (rows : List Nat) (screen : VtScreen)
    : Except VtError VtScreen :=
  rows.foldlM (fun screen row => setItem screen row (blankLine size.columns)) screen

def eraseDisplay (mode : Nat) (buffer : VtBuffer) : Except VtError VtBuffer := do
  let x := buffer.x
  let y := buffer.y
  if mode = 2 ∨ mode = 3 then
    let cells ← blankRows size (List.range size.rows) buffer.cells
    pure { buffer with cells := cells }
  else if mode = 1 then
    let cells ← blankRows size (List.range y) buffer.cells
    let cells ← clearOverlap size.columns y x cells
    let cells ← buffer.rewriteRow size (fun row =>
      setSlice row 0 (x + 1) (blankCells (x + 1))) cells
    pure { buffer with cells := cells }
  else
    let cells ← clearOverlap size.columns y x buffer.cells
    let cells ← buffer.rewriteRow size (fun row =>
      setSlice row x row.length (blankCells (size.columns - x))) cells
    let cells ← blankRows size (List.range' (y + 1) (size.rows - (y + 1))) cells
    pure { buffer with cells := cells }

/-- Blank the places from `start` to `stop` of the cursor's row. -/
def eraseSpan (start stop : Nat) (buffer : VtBuffer) : Except VtError VtBuffer := do
  let cells ← clearOverlap size.columns buffer.y start buffer.cells
  let cells ← clearOverlap size.columns buffer.y (stop - 1) cells
  let cells ← buffer.rewriteRow size (fun row =>
    setSlice row start stop (blankCells (stop - start))) cells
  pure { buffer with cells := cells }

def eraseLine (mode : Nat) (buffer : VtBuffer) : Except VtError VtBuffer :=
  if mode = 1 then
    buffer.eraseSpan size 0 (buffer.x + 1)
  else if mode = 2 then
    buffer.eraseSpan size 0 size.columns
  else
    buffer.eraseSpan size buffer.x size.columns

def eraseChars (count : Nat) (buffer : VtBuffer) : Except VtError VtBuffer :=
  buffer.eraseSpan size buffer.x (min size.columns (buffer.x + count))

def insertChars (count : Nat) (buffer : VtBuffer) : Except VtError VtBuffer := do
  let x := buffer.x
  let count := min count (size.columns - x)
  let cells ← clearOverlap size.columns buffer.y x buffer.cells
  let cells ← buffer.rewriteRow size (fun row =>
    setSlice row x row.length (blankCells count ++ slice row x (size.columns - count))) cells
  pure { buffer with cells := cells }

def deleteChars (count : Nat) (buffer : VtBuffer) : Except VtError VtBuffer := do
  let x := buffer.x
  let count := min count (size.columns - x)
  let cells ← clearOverlap size.columns buffer.y x buffer.cells
  let cells ← clearOverlap size.columns buffer.y (x + count) cells
  let cells ← buffer.rewriteRow size (fun row =>
    setSlice row x row.length (row.drop (x + count) ++ blankCells count)) cells
  pure { buffer with cells := cells }

/-- Attach a combining character to the cell before the cursor. -/
def combine : Except VtError VtBuffer :=
  if 0 < buffer.x then do
    let row ← itemAt buffer.cells buffer.y
    let idx := buffer.x - 1
    let cell ← itemAt row idx
    let idx := if cell.width = 0 ∧ 0 < idx then idx - 1 else idx
    let cell ← itemAt row idx
    let cells ← updateRow buffer.cells buffer.y (fun row =>
      setItem row idx { cell with text := cell.text.push char })
    pure { buffer with cells := cells }
  else
    pure buffer

/-- Make room for a character in insert mode. -/
def shiftFor (width : Nat) (buffer : VtBuffer) : Except VtError VtBuffer :=
  if modes.insert then buffer.insertChars size width else .ok buffer

def clearFor (width : Nat) (buffer : VtBuffer) : Except VtError VtScreen := do
  let cells ← clearOverlap size.columns buffer.y buffer.x buffer.cells
  if width = 2 then clearOverlap size.columns buffer.y (buffer.x + 1) cells else .ok cells

/-- Write a character, and the continuation of a wide one, at the cursor. -/
def writeCell (width : Nat) (buffer : VtBuffer) (cells : VtScreen) : Except VtError VtScreen := do
  let cells ← updateRow cells buffer.y (fun row =>
    setItem row buffer.x {
      text := String.singleton char
      width := width
      rendition := buffer.rendition
    })
  if width = 2 then
    updateRow cells buffer.y (fun row =>
      setItem row (buffer.x + 1) (continuationCell buffer.rendition))
  else
    .ok cells

/-- Move the cursor behind what was printed. -/
def advance (size : VtSize) (modes : VtModes) (width : Nat) (buffer : VtBuffer) : VtBuffer :=
  if size.columns ≤ buffer.x + width then
    { buffer with x := size.columns - 1, pendingWrap := modes.wraparound }
  else
    { buffer with x := buffer.x + width }

def printCell (char : Char) (width : Nat) (buffer : VtBuffer) : Except VtError VtBuffer := do
  let buffer ← buffer.shiftFor size modes width
  let cells ← buffer.clearFor size width
  let cells ← buffer.writeCell char width cells
  pure ({ buffer with cells := cells }.advance size modes width)

/-- To the start of the next line. -/
def wrap (buffer : VtBuffer) : VtBuffer :=
  index size { buffer with x := 0 }

def putChar [UnicodeData] (char : Char) (buffer : VtBuffer) : Except VtError VtBuffer :=
  if UnicodeData.combining char ≠ 0 then
    buffer.combine char
  else
    let width := if isWide char then 2 else 1
    let buffer := if buffer.pendingWrap then buffer.wrap size else buffer
    if width = 2 ∧ buffer.x + 1 = size.columns then
      if modes.wraparound then
        (buffer.wrap size).printCell size modes char width
      else
        pure buffer
    else
      buffer.printCell size modes char width

def homeTop (buffer : VtBuffer) : Nat :=
  if modes.origin then buffer.scrollTop else 0

def homeBottom (buffer : VtBuffer) : Nat :=
  if modes.origin then buffer.scrollBottom else size.rows - 1

def saveCursor : VtBuffer :=
  { buffer with
    savedX := buffer.x
    savedY := buffer.y
    savedRendition := buffer.rendition }

def restoreCursor (buffer : VtBuffer) : VtBuffer :=
  { buffer with
    x := min buffer.savedX (size.columns - 1)
    y := min buffer.savedY (size.rows - 1)
    rendition := buffer.savedRendition }

def moveToRow (row : Nat) (buffer : VtBuffer) : VtBuffer :=
  let top := buffer.homeTop modes
  { buffer with
    y := min (buffer.homeBottom size modes) (max top (if modes.origin then top + row else row)) }

end VtBuffer

end Murder.Terminal
