import Forgetty.Gtk.Client
import Mathlib.Algebra.Order.Ring.Rat
import Mathlib.Tactic.NormNum

/-! The size of a terminal pane: the grid its widget shows and the size the daemon
recorded for its pseudoterminal. The first draw and a resize of the widget report a
new grid to the daemon when it differs from the one before. A change of the font
sets the grid and reports nothing. -/

namespace Forgetty

open Lib SessionManager

/-! ### Fonts -/

/-- What the surroundings answer: the pixel size of a cell for a font family and a
whole number of points, and the rounding of `f32` arithmetic. -/
structure Display where
  measureCell : String → ℤ → ℤ × ℤ
  round : ℚ → F32

/-- The font settings. -/
structure Config where
  fontFamily : String
  fontSize : F32

namespace F32

def epsilon : F32 := 1 / 8388608

/-- The cast to `i32`: cut off towards zero and saturated. -/
def toI32 (x : F32) : ℤ := max (-2147483648) (min 2147483647 (if 0 ≤ x then x.floor else x.ceil))

end F32

def fontSizeMin : F32 := 6

def fontSizeMax : F32 := 72

inductive ZoomDirection where
  | zoomIn
  | zoomOut
  | reset
  deriving DecidableEq, Repr

/-! ### The widget -/

/-- The grid of the local terminal. -/
structure VtTerminal where
  rows : ℕ
  cols : ℕ
  deriving DecidableEq, Repr

def VtTerminal.resize (rows cols : ℕ) (_ : VtTerminal) : VtTerminal := { rows := rows, cols := cols }

structure TerminalState where
  terminal : VtTerminal
  config : Config
  cellWidth : ℤ
  cellHeight : ℤ
  cols : ℕ
  rows : ℕ
  fontSize : F32
  defaultFontSize : F32

/-- How many cells fit. Pixel sizes are whole numbers below `2 ^ 31`, and the `f64`
quotient of two of them, cut off, is the quotient of the whole numbers. -/
def gridCells (extent cell : ℤ) : ℕ := (max (extent / cell) 1).toNat

namespace TerminalState

/-- The grid starts larger than any screen. -/
def create (config : Config) : TerminalState where
  terminal := { rows := 80, cols := 240 }
  config := config
  cellWidth := 8
  cellHeight := 16
  cols := 240
  rows := 80
  fontSize := config.fontSize
  defaultFontSize := config.fontSize

def resizeGrid (rows cols : ℕ) (s : TerminalState) : TerminalState :=
  { s with rows := rows, cols := cols, terminal := s.terminal.resize rows cols }

def measure (d : Display) (s : TerminalState) : ℤ × ℤ :=
  d.measureCell s.config.fontFamily s.fontSize.toI32

/-- Take over the cell size of a new font. The daemon is not told. -/
def applyFontZoom (d : Display) (width height : ℤ) (s : TerminalState) : TerminalState :=
  let cell := s.measure d
  if cell.1 < 1 ∨ cell.2 < 1 then s
  else
    { s with cellWidth := cell.1, cellHeight := cell.2 }.resizeGrid
      (gridCells height cell.2) (gridCells width cell.1)

def newFontSize (d : Display) (s : TerminalState) : ZoomDirection → F32
  | .zoomIn => min (d.round (s.fontSize + 1)) fontSizeMax
  | .zoomOut => max (d.round (s.fontSize - 1)) fontSizeMin
  | .reset => s.defaultFontSize

def zoomFocusedPane (d : Display) (width height : ℤ) (direction : ZoomDirection)
    (s : TerminalState) : TerminalState :=
  let newSize := s.newFontSize d direction
  if |d.round (newSize - s.fontSize)| < F32.epsilon then s
  else { s with fontSize := newSize }.applyFontZoom d width height

def applyConfigChange (d : Display) (width height : ℤ) (newConfig : Config) (s : TerminalState) :
    TerminalState :=
  let fontChanged := s.config.fontFamily ≠ newConfig.fontFamily ∨
    F32.epsilon < |d.round (s.config.fontSize - newConfig.fontSize)|
  let s := { s with config.fontFamily := newConfig.fontFamily }
  if fontChanged then
    { s with
      config.fontSize := newConfig.fontSize
      fontSize := newConfig.fontSize
      defaultFontSize := newConfig.fontSize }.applyFontZoom d width height
  else s

end TerminalState

namespace DaemonClient

/-- Every call succeeds on a pane that is live. -/
def resizePane (p : PaneId) (rows cols : ℕ) (sm : SessionManager) : SessionManager :=
  let size : PtySize :=
    { rows := rows.toUInt16, cols := cols.toUInt16, pixelWidth := 0, pixelHeight := 0 }
  if (sm.paneInfo p).isSome then (sm.resizePane (.ok ()) p size).1 else sm

end DaemonClient

/-- The daemon and the widget of one of its panes. `drawn` tells whether the widget
was drawn once, `cellMeasured` whether that draw got a cell size. -/
structure PaneView where
  sm : SessionManager
  state : TerminalState
  width : ℤ
  height : ℤ
  cellMeasured : Bool
  drawn : Bool

namespace PaneView

inductive Step where
  | draw
  | resize (width height : ℤ)
  | zoom (direction : ZoomDirection)
  | configChange (newConfig : Config)

/-- Set the grid and tell the daemon, if it is another grid than before. -/
def syncGrid (p : PaneId) (rows cols : ℕ) (v : PaneView) : PaneView :=
  if cols ≠ v.state.cols ∨ rows ≠ v.state.rows then
    { v with
      state := v.state.resizeGrid rows cols
      sm := DaemonClient.resizePane p rows cols v.sm }
  else v

def drawTerminal (d : Display) (p : PaneId) (v : PaneView) : PaneView :=
  let v := { v with drawn := true }
  if v.cellMeasured then v
  else
    let cell := v.state.measure d
    if 0 < cell.1 ∧ 0 < cell.2 then
      { v with
        state := { v.state with cellWidth := cell.1, cellHeight := cell.2 }
        cellMeasured := true }.syncGrid p
          (gridCells v.height cell.2) (gridCells v.width cell.1)
    else v

def connectResize (p : PaneId) (width height : ℤ) (v : PaneView) : PaneView :=
  let v := { v with width := width, height := height }
  if !v.cellMeasured then v
  else if v.state.cellWidth < 1 ∨ v.state.cellHeight < 1 then v
  else v.syncGrid p (gridCells height v.state.cellHeight) (gridCells width v.state.cellWidth)

def step (d : Display) (p : PaneId) (v : PaneView) : Step → PaneView
  | .draw => v.drawTerminal d p
  | .resize width height => v.connectResize p width height
  | .zoom direction => { v with state := v.state.zoomFocusedPane d v.width v.height direction }
  | .configChange newConfig =>
    { v with state := v.state.applyConfigChange d v.width v.height newConfig }

/-- A new widget, without a size. -/
def create (config : Config) (sm : SessionManager) : PaneView where
  sm := sm
  state := .create config
  width := 0
  height := 0
  cellMeasured := false
  drawn := false

/-! ### The size of the pseudoterminal -/

/-- The daemon recorded the grid for the pane. -/
def Recorded (p : PaneId) (sm : SessionManager) (grid : VtTerminal) : Prop :=
  ∃ pane, sm.panes.get p = some pane ∧ pane.rows.toNat = grid.rows ∧ pane.cols.toNat = grid.cols

/-- Behind the first draw the pseudoterminal has the size of the grid. -/
def Agrees (p : PaneId) (v : PaneView) : Prop := v.drawn = true → Recorded p v.sm v.state.terminal

/-- The step leaves a grid the daemon can be told. -/
def Fits (d : Display) (p : PaneId) (v : PaneView) (i : Step) : Prop :=
  (v.step d p i).state.rows < 65536 ∧ (v.step d p i).state.cols < 65536

/-- The cell of a font, with which the widget has as many rows and columns as it has. -/
def SameGrid (d : Display) (v : PaneView) (family : String) (size : F32) : Prop :=
  let cell := d.measureCell family size.toI32
  1 ≤ cell.1 → 1 ≤ cell.2 →
    gridCells v.height cell.2 = v.state.rows ∧ gridCells v.width cell.1 = v.state.cols

/-- The first draw measures another grid than the widget started with, or one the
daemon knows; a new font behind it leaves the grid as it is. -/
def TellsDaemon (d : Display) (p : PaneId) (v : PaneView) : Step → Prop
  | .draw =>
    v.drawn = false →
      ¬v.SameGrid d v.state.config.fontFamily v.state.fontSize ∨ Recorded p v.sm v.state.terminal
  | .resize .. => True
  | .zoom direction =>
    v.drawn = true →
      F32.epsilon ≤ |d.round (v.state.newFontSize d direction - v.state.fontSize)| →
        v.SameGrid d v.state.config.fontFamily (v.state.newFontSize d direction)
  | .configChange newConfig =>
    v.drawn = true → (v.state.config.fontFamily ≠ newConfig.fontFamily ∨
      F32.epsilon < |d.round (v.state.config.fontSize - newConfig.fontSize)|) →
        v.SameGrid d newConfig.fontFamily newConfig.fontSize

/-! ### Runs -/

structure Inv (p : PaneId) (v : PaneView) : Prop where
  live : p ∈ v.sm.panes
  grid : v.state.terminal = { rows := v.state.rows, cols := v.state.cols }
  cell : v.cellMeasured = true → 1 ≤ v.state.cellWidth ∧ 1 ≤ v.state.cellHeight
  drawn : v.cellMeasured = true → v.drawn = true

section Steps

variable {d : Display} {p : PaneId} {v : PaneView} {rows cols : ℕ}

theorem recorded_resizePane {sm : SessionManager} (hp : p ∈ sm.panes) (hr : rows < 65536)
    (hc : cols < 65536) :
    p ∈ (DaemonClient.resizePane p rows cols sm).panes ∧
      Recorded p (DaemonClient.resizePane p rows cols sm) { rows := rows, cols := cols } := by
  obtain ⟨pane, hpane⟩ := PMap.exists_get hp
  have hinfo : (sm.paneInfo p).isSome := by simp [paneInfo, hpane]
  have hget : (DaemonClient.resizePane p rows cols sm).panes.get p =
      some { pane with rows := rows.toUInt16, cols := cols.toUInt16 } := by
    simp [DaemonClient.resizePane, hinfo, resizePane, hpane, setPane]
  refine ⟨PMap.mem_of_get hget, _, hget, ?_, ?_⟩
  · exact UInt16.toNat_ofNat_of_lt' hr
  · exact UInt16.toNat_ofNat_of_lt' hc

/-- What `syncGrid` leaves alone, and the grid it sets. -/
theorem syncGrid_same (h : v.state.terminal = { rows := v.state.rows, cols := v.state.cols }) :
    (v.syncGrid p rows cols).state.terminal = { rows := rows, cols := cols } ∧
      (v.syncGrid p rows cols).state.rows = rows ∧ (v.syncGrid p rows cols).state.cols = cols ∧
      (v.syncGrid p rows cols).state.cellWidth = v.state.cellWidth ∧
      (v.syncGrid p rows cols).state.cellHeight = v.state.cellHeight ∧
      (v.syncGrid p rows cols).cellMeasured = v.cellMeasured ∧
      (v.syncGrid p rows cols).drawn = v.drawn := by
  unfold syncGrid
  split_ifs with hnew
  · exact ⟨rfl, rfl, rfl, rfl, rfl, rfl, rfl⟩
  · push Not at hnew
    exact ⟨by rw [h, hnew.1, hnew.2], hnew.2.symm, hnew.1.symm, rfl, rfl, rfl, rfl⟩

/-- The daemon knows the grid behind `syncGrid` if that is another one, or if the daemon
knew it before. -/
theorem syncGrid_recorded (hp : p ∈ v.sm.panes)
    (h : v.state.terminal = { rows := v.state.rows, cols := v.state.cols }) (hr : rows < 65536)
    (hc : cols < 65536) :
    p ∈ (v.syncGrid p rows cols).sm.panes ∧
      (Recorded p (v.syncGrid p rows cols).sm (v.syncGrid p rows cols).state.terminal ↔
        (cols ≠ v.state.cols ∨ rows ≠ v.state.rows) ∨ Recorded p v.sm v.state.terminal) := by
  rw [(syncGrid_same h).1]
  unfold syncGrid
  split_ifs with hnew
  · obtain ⟨h1, h2⟩ := recorded_resizePane hp hr hc
    exact ⟨h1, iff_of_true h2 (Or.inl hnew)⟩
  · push Not at hnew
    rw [h, hnew.1, hnew.2]
    exact ⟨hp, by simp⟩

/-- A font change sets the grid, and does nothing else the daemon could notice. -/
theorem applyFontZoom_grid (width height : ℤ) {s : TerminalState}
    (h : s.terminal = { rows := s.rows, cols := s.cols }) :
    let cell := s.measure d
    let t := s.applyFontZoom d width height
    t.terminal = { rows := t.rows, cols := t.cols } ∧
      (1 ≤ s.cellWidth ∧ 1 ≤ s.cellHeight → 1 ≤ t.cellWidth ∧ 1 ≤ t.cellHeight) ∧
      (t.terminal = s.terminal ↔ (1 ≤ cell.1 → 1 ≤ cell.2 →
        gridCells height cell.2 = s.rows ∧ gridCells width cell.1 = s.cols)) := by
  dsimp only
  unfold TerminalState.applyFontZoom
  dsimp only
  split_ifs with hsmall
  · refine ⟨h, id, iff_of_true rfl fun h1 h2 => ?_⟩
    omega
  · push Not at hsmall
    refine ⟨rfl, fun _ => hsmall, ?_⟩
    rw [h, imp_iff_right hsmall.1, imp_iff_right hsmall.2]
    simp [TerminalState.resizeGrid, VtTerminal.resize]

theorem sameGrid_iff {family : String} {size : F32} (h1 : 1 ≤ (d.measureCell family size.toI32).1)
    (h2 : 1 ≤ (d.measureCell family size.toI32).2) :
    v.SameGrid d family size ↔
      gridCells v.height (d.measureCell family size.toI32).2 = v.state.rows ∧
        gridCells v.width (d.measureCell family size.toI32).1 = v.state.cols := by
  unfold SameGrid
  rw [imp_iff_right h1, imp_iff_right h2]

/-- The first draw. -/
theorem Inv.draw (h : Inv p v) (ha : v.Agrees p) (hfits : v.Fits d p .draw) :
    Inv p (v.drawTerminal d p) ∧ ((v.drawTerminal d p).Agrees p ↔ v.TellsDaemon d p .draw) := by
  unfold Fits step at hfits
  unfold drawTerminal at hfits ⊢
  dsimp only at hfits ⊢
  split_ifs at hfits ⊢ with hm hcell
  · have hdrawn := h.drawn hm
    refine ⟨⟨h.live, h.grid, h.cell, fun _ => rfl⟩, iff_of_true (fun _ => ha hdrawn) fun hd => ?_⟩
    exact absurd (hd.symm.trans hdrawn) (by decide)
  · set v' : PaneView := { v with
      drawn := true
      state := { v.state with
        cellWidth := (v.state.measure d).1, cellHeight := (v.state.measure d).2 }
      cellMeasured := true }
    have hgrid : v'.state.terminal = { rows := v'.state.rows, cols := v'.state.cols } := h.grid
    obtain ⟨s1, s2, s3, s4, s5, s6, s7⟩ := @syncGrid_same p v'
      (gridCells v.height (v.state.measure d).2) (gridCells v.width (v.state.measure d).1) hgrid
    rw [s2, s3] at hfits
    obtain ⟨hlive, hrec⟩ := @syncGrid_recorded p v' _ _ h.live hgrid hfits.1 hfits.2
    refine ⟨⟨hlive, by rw [s1, s2, s3], fun _ => ?_, fun _ => s7⟩, ?_⟩
    · rw [s4, s5]
      exact hcell
    · have hsame := @sameGrid_iff d v v.state.config.fontFamily v.state.fontSize hcell.1 hcell.2
      unfold Agrees TellsDaemon
      rw [s7, imp_iff_right rfl, hrec]
      dsimp only
      rw [hsame, not_and_or, or_comm (a := ¬gridCells v.height _ = _)]
      by_cases hd : v.drawn = true
      · refine iff_of_true (Or.inr (ha hd)) fun hd' => ?_
        exact absurd (hd'.symm.trans hd) (by decide)
      · rw [imp_iff_right (Bool.eq_false_iff.mpr hd)]
        exact Iff.rfl
  · refine ⟨⟨h.live, h.grid, h.cell, fun hm' => absurd hm' hm⟩, ?_⟩
    have hsame : v.SameGrid d v.state.config.fontFamily v.state.fontSize :=
      fun h1 h2 => absurd ⟨h1, h2⟩ hcell
    unfold Agrees TellsDaemon
    dsimp only
    rw [imp_iff_right rfl, or_iff_right (not_not.mpr hsame)]
    refine ⟨fun hrec _ => hrec, fun hrec => ?_⟩
    by_cases hd : v.drawn = true
    · exact ha hd
    · exact hrec (Bool.eq_false_iff.mpr hd)

/-- A resize of the widget. -/
theorem Inv.resize (h : Inv p v) (ha : v.Agrees p) {width height : ℤ}
    (hfits : v.Fits d p (.resize width height)) :
    Inv p (v.connectResize p width height) ∧ (v.connectResize p width height).Agrees p := by
  unfold Fits step at hfits
  unfold connectResize at hfits ⊢
  dsimp only at hfits ⊢
  split_ifs at hfits ⊢ with hm hsmall
  · exact ⟨⟨h.live, h.grid, h.cell, h.drawn⟩, ha⟩
  · exact ⟨⟨h.live, h.grid, h.cell, h.drawn⟩, ha⟩
  · set v' : PaneView := { v with width := width, height := height }
    have hgrid : v'.state.terminal = { rows := v'.state.rows, cols := v'.state.cols } := h.grid
    obtain ⟨s1, s2, s3, s4, s5, s6, s7⟩ := @syncGrid_same p v'
      (gridCells height v.state.cellHeight) (gridCells width v.state.cellWidth) hgrid
    rw [s2, s3] at hfits
    obtain ⟨hlive, hrec⟩ := @syncGrid_recorded p v' _ _ h.live hgrid hfits.1 hfits.2
    refine ⟨⟨hlive, by rw [s1, s2, s3], ?_, ?_⟩, fun hd => hrec.mpr (Or.inr (ha (s7 ▸ hd)))⟩
    · rw [s4, s5, s6]
      exact h.cell
    · rw [s6, s7]
      exact h.drawn

/-- A change of the state that the daemon is not told of. -/
theorem Inv.font (h : Inv p v) (ha : v.Agrees p) {t : TerminalState} {same : Prop}
    (hgrid : t.terminal = { rows := t.rows, cols := t.cols })
    (hcell : 1 ≤ v.state.cellWidth ∧ 1 ≤ v.state.cellHeight → 1 ≤ t.cellWidth ∧ 1 ≤ t.cellHeight)
    (hsame : t.terminal = v.state.terminal ↔ same) :
    Inv p { v with state := t } ∧ (Agrees p { v with state := t } ↔ (v.drawn = true → same)) := by
  refine ⟨⟨h.live, hgrid, fun hm => hcell (h.cell hm), h.drawn⟩, ?_⟩
  rw [← hsame]
  refine forall_congr' fun hd => ⟨fun hrec => ?_, fun heq => ?_⟩
  · obtain ⟨pane, hpane, hr, hc⟩ := ha hd
    obtain ⟨pane', hpane', hr', hc'⟩ := hrec
    obtain rfl := Option.some.inj (hpane.symm.trans hpane')
    show t.terminal = v.state.terminal
    rw [hgrid] at hr' hc' ⊢
    rw [h.grid] at hr hc ⊢
    simp only at hr hc hr' hc'
    rw [← hr', ← hc', hr, hc]
  · show Recorded p v.sm t.terminal
    rw [heq]
    exact ha hd

theorem Inv.step (h : Inv p v) (ha : v.Agrees p) (i : Step) (hfits : v.Fits d p i) :
    Inv p (v.step d p i) ∧ ((v.step d p i).Agrees p ↔ v.TellsDaemon d p i) := by
  cases i with
  | draw => exact h.draw ha hfits
  | resize width height =>
    obtain ⟨h1, h2⟩ := h.resize ha hfits
    exact ⟨h1, iff_of_true h2 trivial⟩
  | zoom direction =>
    unfold PaneView.step TellsDaemon
    dsimp only
    unfold TerminalState.zoomFocusedPane
    dsimp only
    split_ifs with hsame
    · refine ⟨h, iff_of_true ha fun _ hne => absurd hsame (not_lt.mpr hne)⟩
    · rw [imp_iff_right (not_lt.mp hsame)]
      obtain ⟨h1, h2, h3⟩ := @applyFontZoom_grid d v.width v.height
        { v.state with fontSize := v.state.newFontSize d direction } h.grid
      exact h.font ha h1 h2 h3
  | configChange newConfig =>
    unfold PaneView.step TellsDaemon
    dsimp only
    unfold TerminalState.applyConfigChange
    dsimp only
    split_ifs with hchanged
    · rw [imp_iff_right hchanged]
      obtain ⟨h1, h2, h3⟩ := @applyFontZoom_grid d v.width v.height
        { v.state with
          config.fontFamily := newConfig.fontFamily
          config.fontSize := newConfig.fontSize
          fontSize := newConfig.fontSize
          defaultFontSize := newConfig.fontSize } h.grid
      exact h.font ha h1 h2 h3
    · exact ⟨⟨h.live, h.grid, h.cell, h.drawn⟩, iff_of_true ha fun _ hc => absurd hc hchanged⟩

end Steps

/-- In every run of a pane's widget in which the grid stays below 65536 rows and
columns, the pseudoterminal has the size of the grid behind the first draw exactly if
the first draw finds a new grid, or the one the daemon knows, and no new font behind it
changes the grid. -/
theorem agrees_along_iff (d : Display) (config : Config) (sm : SessionManager) (p : PaneId)
    (hp : p ∈ sm.panes) (steps : List Step)
    (hfits : Meets (step d p) (Fits d p) (create config sm) steps) :
    Along (step d p) (Agrees p) (create config sm) steps ↔
      Meets (step d p) (TellsDaemon d p) (create config sm) steps := by
  refine along_iff_meets_of (I := Inv p) ?_ ?_ ?_ ?_ hfits
  · exact fun v i h ha hfits _ => (h.step ha i hfits).1
  · exact fun v i h ha hfits => (h.step ha i hfits).2
  · exact ⟨hp, rfl, fun hm => (nomatch hm), fun hm => (nomatch hm)⟩
  · exact fun hd => (nomatch hd)

/-- A font whose cells are two thirds of its points wide and four thirds high. -/
def twoThirds : Display where
  measureCell _ points := (2 * points / 3, 4 * points / 3)
  round x := x

def monospace : Config := { fontFamily := "monospace", fontSize := 12 }

/-- A daemon with one pane. -/
def onePane : SessionManager :=
  ((new .counting .empty).createPane .counting .default none none none true).1

theorem agrees_along_firstResize :
    Along (step twoThirds ⟨⟨1⟩⟩) (Agrees ⟨⟨1⟩⟩) (create monospace onePane)
      [.resize 800 640, .draw, .resize 1000 640, .zoom .reset] := by
  refine (agrees_along_iff twoThirds monospace onePane ⟨⟨1⟩⟩ (by decide) _ ?_).mpr ?_
  · refine ⟨?_, ?_, ?_, ?_, trivial⟩ <;> (unfold Fits; decide +kernel)
  · refine ⟨trivial, fun _ => Or.inl ?_, trivial, fun _ hne => ?_, trivial⟩
    · unfold SameGrid
      decide +kernel
    · exact absurd hne (by decide +kernel)

/-- A larger font in a widget of the same size has fewer rows. -/
theorem not_agrees_zoomIn :
    ¬Along (step twoThirds ⟨⟨1⟩⟩) (Agrees ⟨⟨1⟩⟩) (create monospace onePane)
      [.resize 800 640, .draw, .zoom .zoomIn] := by
  intro h
  obtain ⟨pane, hpane, hr, -⟩ := h.last rfl
  have hrows := congrArg (Option.map fun pane => pane.rows.toNat) hpane
  rw [Option.map_some, hr] at hrows
  revert hrows
  decide +kernel

end PaneView

end Forgetty
