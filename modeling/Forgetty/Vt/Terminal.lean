import Forgetty.Lib.Run
import Forgetty.Vt.Screen
import Mathlib.Data.Int.Notation

/-! The terminal and the cache of its screen. The library under it has a grid of cells, which
every call to it may change. `screen` converts the grid cell by cell into the cached screen,
unless nothing says that the grid changed. -/

namespace Forgetty.Vt

open Lib

/-! ### What the library has -/

inductive StyleColor where
  | none
  | palette (index : UInt8)
  | rgb (c : Rgb)
  deriving DecidableEq, Repr

structure Style where
  fgColor : StyleColor
  bgColor : StyleColor
  bold : Bool
  italic : Bool
  faint : Bool
  inverse : Bool
  strikethrough : Bool
  underline : ℤ
  deriving DecidableEq, Repr

/-- A cell of the library. The last field is its answer to the query for the background. -/
structure RenderCell where
  codepoints : List Char
  style : Style
  background : Option Rgb
  deriving DecidableEq, Repr

/-- A row may have fewer cells than the grid has columns. -/
structure RenderRow where
  cells : List RenderCell
  wrap : Bool
  deriving DecidableEq, Repr

structure RenderGrid where
  rows : List RenderRow
  cols : ℕ
  foreground : Rgb
  background : Rgb
  deriving DecidableEq, Repr

/-- The sixteen colors of a theme. -/
abbrev Palette := Fin 16 → Rgb

structure Terminal where
  grid : RenderGrid
  dirty : Bool
  cache : Screen
  screenDirty : Bool
  ansiPalette : Palette
  /-- The palette of the last conversion, for the statements. -/
  converted : Palette

/-! ### The conversion of a cell -/

def cubeComponent (v : ℕ) : UInt8 := if v = 0 then 0 else (55 + v * 40).toUInt8

def resolveStyleColor (palette : Palette) (color : StyleColor) (default : Rgb) : Rgb :=
  match color with
  | .none => default
  | .rgb c => c
  | .palette index =>
    let index := index.toNat
    if h : index < 16 then palette ⟨index, h⟩
    else if index < 232 then
      let i := index - 16
      { r := cubeComponent (i / 36 % 6), g := cubeComponent (i / 6 % 6), b := cubeComponent (i % 6) }
    else
      let v := (8 + (index - 232) * 10).toUInt8
      { r := v, g := v, b := v }

section Conversion

variable (palette : Palette) (grid : RenderGrid)

/-- A cell without code points only has a background. -/
def emptyCellAttrs (cell : RenderCell) : CellAttributes :=
  let style := cell.style
  let bg : Color :=
    if style.inverse then .rgb (resolveStyleColor palette style.fgColor grid.foreground)
    else if style.bgColor ≠ .none then
      .rgb (resolveStyleColor palette style.bgColor grid.background)
    else
      match cell.background with
      | some c => .rgb c
      | none => .default
  { bg := bg }

/-- Inverse video exchanges the colors, and gives the default background a color. -/
def filledCellAttrs (cell : RenderCell) : CellAttributes :=
  let style := cell.style
  let fg := resolveStyleColor palette style.fgColor grid.foreground
  let (bg, hasBg) :=
    if style.bgColor = .none then (grid.background, false)
    else (resolveStyleColor palette style.bgColor grid.background, true)
  let (fg, bg, hasBg) := if style.inverse then (bg, fg, true) else (fg, bg, hasBg)
  { fg := .rgb fg
    bg := if hasBg then .rgb bg else .default
    bold := style.bold
    italic := style.italic
    underline := style.underline != 0
    strikethrough := style.strikethrough
    inverse := false
    dim := style.faint }

def cellAttrs (cell : RenderCell) : CellAttributes :=
  if cell.codepoints.isEmpty then emptyCellAttrs palette grid cell
  else filledCellAttrs palette grid cell

/-- The text of a cell; a blank where there is none. -/
def graphemeStr (codepoints : List Char) : Text := if codepoints.isEmpty then [' '] else codepoints

theorem graphemeStr_ne_nil (codepoints : List Char) : graphemeStr codepoints ≠ [] := by
  rw [graphemeStr]
  split_ifs with h
  · simp
  · simpa using h

/-- The size of the buffer for the code points of a cell. -/
def maxCodepoints : ℕ := 16

def convertCell (cell : RenderCell) : Cell :=
  { grapheme := graphemeStr (cell.codepoints.take maxCodepoints)
    attrs := cellAttrs palette grid cell }

end Conversion

/-! ### The cache -/

/-- Cells are written into a row from a column on. -/
def writeCells (i : ℕ) : ℕ → List Cell → Screen → Screen
  | _, [], s => s
  | j, cell :: cells, s =>
    writeCells i (j + 1) cells (s.updateCellInPlace i j cell.grapheme cell.attrs)

/-- A row is converted up to the last column, and filled up with blanks. -/
def syncRow (palette : Palette) (grid : RenderGrid) (i : ℕ) (row : RenderRow) (s : Screen) : Screen :=
  let cells := (row.cells.take grid.cols).map (convertCell palette grid)
  let s := writeCells i 0 cells s
  let s := writeCells i cells.length (List.replicate (grid.cols - cells.length) .blank) s
  s.setRowWrap i row.wrap

def syncRows (palette : Palette) (grid : RenderGrid) : ℕ → List RenderRow → Screen → Screen
  | _, [], s => s
  | i, row :: rows, s => syncRows palette grid (i + 1) rows (syncRow palette grid i row s)

namespace Terminal

def new (rows cols : ℕ) (ansiPalette : Palette) (grid : RenderGrid) : Terminal :=
  { grid := grid, dirty := true, cache := .new rows cols, screenDirty := true,
    ansiPalette := ansiPalette, converted := ansiPalette }

/-- Whether something says that the grid has to be converted. -/
def needsSync (t : Terminal) : Bool := t.dirty || t.cache.generation == 0 || t.screenDirty

def syncScreen (t : Terminal) : Terminal :=
  if t.needsSync then
    let screen := t.cache.ensureCapacity t.grid.rows.length t.grid.cols
    { t with
      cache := syncRows t.ansiPalette t.grid 0 t.grid.rows screen
      dirty := false
      converted := t.ansiPalette }
  else t

/-- What is returned is the cache afterwards. -/
def screen (t : Terminal) : Terminal := { t.syncScreen with screenDirty := false }

/-- A call of the library leaves any grid, and may mark it as changed. -/
def called (grid : RenderGrid) (dirty : Bool) (t : Terminal) : Terminal :=
  { t with grid := grid, dirty := t.dirty || dirty }

def feed (bytes : List UInt8) (grid : RenderGrid) (dirty : Bool) (t : Terminal) : Terminal :=
  if bytes.isEmpty then t else { t.called grid dirty with screenDirty := true }

def resize (rows cols : ℕ) (grid : RenderGrid) (dirty : Bool) (t : Terminal) : Terminal :=
  let t := t.called grid dirty
  { t with cache := t.cache.resize rows cols, screenDirty := true }

/-- `scroll_viewport_delta` and `scroll_viewport_bottom`. -/
def scrollViewport (grid : RenderGrid) (dirty : Bool) (t : Terminal) : Terminal :=
  { t.called grid dirty with screenDirty := true }

def reset (grid : RenderGrid) (dirty : Bool) (t : Terminal) : Terminal :=
  { t.called grid dirty with screenDirty := true }

def setAnsiPalette (palette : Palette) (t : Terminal) : Terminal := { t with ansiPalette := palette }

/-- The calls, with what the library makes of its grid in them. -/
inductive Step where
  | feed (bytes : List UInt8) (grid : RenderGrid) (dirty : Bool)
  | resize (rows cols : ℕ) (grid : RenderGrid) (dirty : Bool)
  | scrollViewport (grid : RenderGrid) (dirty : Bool)
  | reset (grid : RenderGrid) (dirty : Bool)
  | setAnsiPalette (palette : Palette)
  | screen

def step (t : Terminal) : Step → Terminal
  | .feed bytes grid dirty => t.feed bytes grid dirty
  | .resize rows cols grid dirty => t.resize rows cols grid dirty
  | .scrollViewport grid dirty => t.scrollViewport grid dirty
  | .reset grid dirty => t.reset grid dirty
  | .setAnsiPalette palette => t.setAnsiPalette palette
  | .screen => t.screen

end Terminal

/-! ### What is to hold -/

/-- A cell of the library with all its code points. -/
def directCell (palette : Palette) (grid : RenderGrid) (cell : RenderCell) : Cell :=
  { grapheme := graphemeStr cell.codepoints, attrs := cellAttrs palette grid cell }

/-- The cell without inverse video. -/
def RenderCell.upright (cell : RenderCell) : RenderCell :=
  { cell with style := { cell.style with inverse := false } }

/-- The color of the background, where the default one is that of the grid. -/
def RenderGrid.shownBackground (grid : RenderGrid) : Color → Color
  | .default => .rgb grid.background
  | .rgb c => .rgb c

/-- Inverse video exchanges the colors of a cell with a text. -/
theorem directCell_inverse (palette : Palette) (grid : RenderGrid) {cell : RenderCell}
    (htext : cell.codepoints ≠ []) (hinverse : cell.style.inverse = true) :
    (directCell palette grid cell).attrs.bg = (directCell palette grid cell.upright).attrs.fg ∧
      (directCell palette grid cell).attrs.fg =
        grid.shownBackground (directCell palette grid cell.upright).attrs.bg := by
  have hfilled : cell.codepoints.isEmpty = false := by simpa using htext
  simp only [directCell, RenderCell.upright, cellAttrs, hfilled, Bool.false_eq_true, if_false,
    filledCellAttrs, hinverse, if_true]
  refine ⟨trivial, ?_⟩
  by_cases hbg : cell.style.bgColor = .none <;> simp [hbg, RenderGrid.shownBackground]

/-- The screen has the grid's dimensions and wrap flags, and its cells as they are converted. -/
structure Shows (convert : RenderCell → Cell) (grid : RenderGrid) (s : Screen) : Prop where
  rows : s.rows = grid.rows.length
  cols : s.cols = grid.cols
  cells : s.cells = grid.rows.map fun row => resizeList grid.cols .blank (row.cells.map convert)
  rowWraps : s.rowWraps = grid.rows.map (·.wrap)

namespace Terminal

/-- The screen returned is the grid as it is. -/
def Exact (t : Terminal) (i : Step) : Prop :=
  i = .screen → Shows (directCell t.ansiPalette t.grid) t.grid t.screen.cache

/-- No cell has more code points than the buffer holds, and without a conversion now no cell
has another color than with the palette of the last one. -/
def Convertible (t : Terminal) (i : Step) : Prop :=
  i = .screen → ∀ row ∈ t.grid.rows, ∀ cell ∈ row.cells.take t.grid.cols,
    cell.codepoints.length ≤ maxCodepoints ∧
      (t.needsSync = false → cellAttrs t.converted t.grid cell = cellAttrs t.ansiPalette t.grid cell)

end Terminal

end Forgetty.Vt
