/-! The cells of a terminal screen, and the reads, writes and repairs of its rows. -/

namespace Murder.Terminal

inductive VtError
  | indexError
  | valueError
deriving DecidableEq

inductive VtColor
  | palette (index : Nat)
  | rgb (red green blue : Nat)
deriving DecidableEq

/-- The portable subset of SGR state needed to reproduce a cell. -/
structure VtRendition where
  bold : Bool := false
  faint : Bool := false
  italic : Bool := false
  underline : Bool := false
  blink : Bool := false
  inverse : Bool := false
  invisible : Bool := false
  strike : Bool := false
  foreground : Option VtColor := none
  background : Option VtColor := none
deriving DecidableEq

def defaultRendition : VtRendition := {}

structure VtCell where
  text : String := " "
  width : Nat := 1
  rendition : VtRendition := defaultRendition
deriving DecidableEq

abbrev VtRow := List VtCell

abbrev VtScreen := List VtRow

def blankCells (count : Nat) : VtRow := List.replicate count {}

variable (columns : Nat)

def blankLine : VtRow := blankCells columns

def blankScreen (rows : Nat) : VtScreen := List.replicate rows (blankLine columns)

def continuationCell (rendition : VtRendition) : VtCell :=
  { text := "", width := 0, rendition := rendition }

variable {α : Type}

/-- `items[index]`. -/
def itemAt (items : List α) (index : Nat) : Except VtError α :=
  match items[index]? with
  | some item => .ok item
  | none => .error .indexError

/-- `items[index] = item`. -/
def setItem (items : List α) (index : Nat) (item : α) : Except VtError (List α) :=
  if index < items.length then .ok (items.set index item) else .error .indexError

/-- `items[start:stop]`. -/
def slice (items : List α) (start stop : Nat) : List α := (items.take stop).drop start

/-- `items[start:stop] = other`. -/
def setSlice (items : List α) (start stop : Nat) (other : List α) : List α :=
  items.take start ++ other ++ items.drop (max start stop)

/-- `items[:-count]`. -/
def sliceTo (items : List α) (count : Nat) : List α :=
  if count = 0 then [] else items.take (items.length - count)

/-- Change the row `screen[y]` in place. -/
def updateRow (screen : VtScreen) (y : Nat) (change : VtRow → Except VtError VtRow)
    : Except VtError VtScreen := do
  let row ← itemAt screen y
  let row ← change row
  setItem screen y row

/-- Blank the wide cell whose continuation stands at a place. -/
def clearBefore (x : Nat) (row : VtRow) : Except VtError VtRow := do
  let cell ← itemAt row x
  if cell.width = 0 ∧ 0 < x then setItem row (x - 1) {} else .ok row

/-- Blank the continuation of the wide cell at a place. -/
def clearBehind (x : Nat) (row : VtRow) : Except VtError VtRow := do
  let cell ← itemAt row x
  if cell.width = 2 ∧ x + 1 < columns then setItem row (x + 1) {} else .ok row

def clearHalf (x : Nat) (row : VtRow) : Except VtError VtRow := do
  let row ← clearBefore x row
  clearBehind columns x row

/-- Blank the other half of a wide character that reaches into a place about to be written. -/
def clearOverlap (y x : Nat) (screen : VtScreen) : Except VtError VtScreen :=
  if columns ≤ x then .ok screen else updateRow screen y (clearHalf columns x)

/-- The loop of `_repair_wide_cells` with its remaining columns, behind the width of the cell
it passed last.
-/
def repairFrom : Option Nat → Nat → VtRow → Except VtError VtRow
  | _, 0, row => .ok row
  | _, _ + 1, [] => .error .indexError
  | previous, columns + 1, cell :: rest =>
    if cell.width = 0 then do
      let cell := if previous ≠ some 2 then {} else cell
      let rest ← repairFrom (some cell.width) columns rest
      pure (cell :: rest)
    else if cell.width = 2 then
      match columns, rest with
      | 0, rest => .ok ({} :: rest)
      | _ + 1, [] => .error .indexError
      | columns + 1, _ :: rest => do
          let rest ← repairFrom (some 0) columns rest
          pure (cell :: continuationCell cell.rendition :: rest)
    else do
      let rest ← repairFrom (some cell.width) columns rest
      pure (cell :: rest)

def repairWideCells (row : VtRow) : Except VtError VtRow :=
  repairFrom none columns row

end Murder.Terminal
