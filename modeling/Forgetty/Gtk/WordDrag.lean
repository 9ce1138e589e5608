import Forgetty.Gtk.MouseReports
import Forgetty.Gtk.ScrollLock
import Forgetty.Lib.Spread

/-! Selecting with the mouse: one click begins a selection, two take a word, and moving the pointer
drags the end of it, by cells or by words. The rows are numbered from the oldest of the terminal
on, while the screen scrolls under the pointer. -/

namespace Forgetty.WordDrag

open Lib Vt
open String (utf8Len)
open MouseReports (MousePane Press)
open ScrollLock (DragEdge)

/-! ### Words and cells -/

def wordDelimiters : List Char := [' ', '\t', '"', '\'', '\x60', '(', ')', '[', ']', '\x7b',
  '\x7d', '<', '>', ',', ';', '|', ':']

/-- A cell with one character of one byte that delimits words. -/
def isDelimiter (grapheme : Text) : Bool :=
  utf8Len grapheme = 1 && grapheme.headD ' ' ∈ wordDelimiters

/-- The cells a word does not go over. -/
def stopsWord (cells : List Cell) (col : ℕ) : Bool :=
  let grapheme := (cells[col]?.map (·.grapheme)).getD []
  grapheme.isEmpty || isDelimiter grapheme

/-- An empty cell that is clicked is not looked at, so that the word goes to both sides of it. -/
def wordOn (cells : List Cell) (numCols col : ℕ) : ℕ × ℕ :=
  if isDelimiter ((cells[col]?.map (·.grapheme)).getD []) then (col, col)
  else (spreadLeft (stopsWord cells) col,
    spreadRight (stopsWord cells) (min numCols cells.length) numCols col)

def findWordBoundaries (screen : Screen) (row col : ℕ) : ℕ × ℕ :=
  if screen.rows ≤ row ∨ screen.cols ≤ col then (col, col)
  else wordOn (screen.row row) screen.cols col

def lastNonWhitespaceCol (screen : Screen) (row : ℕ) : ℕ :=
  if screen.rows ≤ row then 0
  else (screen.row row).zipIdx.foldl (fun last (cell, i) =>
    if cell.grapheme ≠ [] ∧ cell.grapheme ≠ [' '] then i else last) 0

/-- The pointer in cells, kept on the grid. -/
def clampToGrid (row col rows cols : ℕ) : ℕ × ℕ := (min row (rows - 1), min col (cols - 1))

/-! ### The handlers -/

/-- A terminal under the mouse. -/
structure SelectingPane where
  terminal : Scrollback
  mouse : MousePane

/-- Where the pointer has moved to: past an edge of the viewport or not, and the cell. -/
structure Motion where
  edge : DragEdge
  row : ℕ
  col : ℕ

namespace SelectingPane

/-- The cell under the pointer, on the screen. -/
def cellAt (row col : ℕ) (s : SelectingPane) : ℕ × ℕ :=
  clampToGrid row col s.terminal.len s.terminal.cols

def absRowUnder (row col : ℕ) (s : SelectingPane) : ℕ := (s.cellAt row col).1 + s.terminal.offset

def wordUnder (row col : ℕ) (s : SelectingPane) : ℕ × ℕ :=
  findWordBoundaries s.terminal.screen (s.cellAt row col).1 (s.cellAt row col).2

/-- The press of the left button at a cell, without Ctrl. -/
def press (nPress : ℤ) (shift : Bool) (row col : ℕ) (s : SelectingPane) : SelectingPane :=
  { s with
    mouse := s.mouse.pressed
      { button := 1
        nPress := nPress
        ctrl := false
        shift := shift
        absRow := s.absRowUnder row col
        col := (s.cellAt row col).2
        onUrl := false
        onCopyButton := false
        word := s.wordUnder row col
        lastCol := lastNonWhitespaceCol s.terminal.screen (s.cellAt row col).1 } }

/-- The pointer is dragged past an edge of the viewport. -/
def autoScroll (edge : DragEdge) (s : SelectingPane) : SelectingPane :=
  match edge with
  | .above => { s with terminal := s.terminal.scrollViewportDelta (-3) }
  | .inside => s
  | .below => { s with terminal := s.terminal.scrollViewportDelta 3 }

/-- The end of a selection by words. Dragged back behind the word it began with, the selection is
from the end of that word on. -/
def dragWord (absRow : ℕ) (dragged : ℕ × ℕ) (wordAnchor : Option (ℕ × ℕ)) (sel : Selection) :
    Selection :=
  match wordAnchor with
  | some anchor =>
    let row := sel.start.1
    if absRow < row ∨ (absRow = row ∧ dragged.1 < anchor.1) then
      { sel with start := (row, anchor.2), stop := (absRow, dragged.1) }
    else { sel with start := (row, anchor.1), stop := (absRow, dragged.2) }
  | none => { sel with stop := (absRow, dragged.2) }

/-- A drag from where the button was pressed begins a selection. -/
def beginDrag (mouse : MousePane) : MousePane :=
  match mouse.selection, mouse.dragOrigin with
  | none, some origin =>
    { mouse with
      selection := some { start := origin, stop := origin, mode := .normal }
      dragOrigin := none }
  | _, _ => mouse

/-- The handler of a motion, while a selection is dragged. -/
def motion (m : Motion) (s : SelectingPane) : SelectingPane :=
  if s.mouse.selecting then
    let s := s.autoScroll m.edge
    let mouse := beginDrag s.mouse
    { s with
      mouse := { mouse with
        selection := mouse.selection.map fun sel => if sel.mode = .word then
            dragWord (s.absRowUnder m.row m.col) (s.wordUnder m.row m.col) mouse.wordAnchor sel
          else { sel with stop := (s.absRowUnder m.row m.col, (s.cellAt m.row m.col).2) } } }
  else s

/-- The handler of a release. -/
def release (s : SelectingPane) : SelectingPane := { s with mouse := s.mouse.released 1 }

end SelectingPane

/-- What happens while the button is held. The library says how the terminal looks after it was fed,
and the wheel scrolls it. -/
inductive Event where
  | motion (m : Motion)
  | terminal (t : Scrollback)

def step (s : SelectingPane) : Event → SelectingPane
  | .motion m => s.motion m
  | .terminal t => { s with terminal := t }

/-! ### Reading order -/

/-- The first cell is the second one or is read before it. -/
def Reads (p q : ℕ × ℕ) : Prop := p.1 < q.1 ∨ (p.1 = q.1 ∧ p.2 ≤ q.2)

def rowCells (t : Scrollback) (absRow : ℕ) : List Cell := (t.rows[absRow]?.map (·.cells)).getD []

variable {cells : List Cell} {numCols col col' : ℕ}

namespace SelectingPane

variable {s : SelectingPane}

end SelectingPane

namespace SelectingPane

variable {s : SelectingPane}

end SelectingPane

end Forgetty.WordDrag
