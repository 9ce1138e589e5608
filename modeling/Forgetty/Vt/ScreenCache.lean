import Forgetty.Vt.Terminal

/-! The cached screen is the grid, converted cell by cell. Updating the cells in place comes
to writing every row anew, whatever was there before. The cache is left alone only while the
grid is the one last converted; the palette may be another one by then. -/

namespace Forgetty.Vt

open Lib

/-! ### Writing a row -/

section Rows

variable {i : ℕ}

@[simp] theorem rows_writeCells (cells : List Cell) (j : ℕ) (s : Screen) :
    (writeCells i j cells s).rows = s.rows := by
  induction cells generalizing j s with
  | nil => rfl
  | cons c cells ih => rw [writeCells, ih, Screen.rows_updateCellInPlace]

@[simp] theorem cols_writeCells (cells : List Cell) (j : ℕ) (s : Screen) :
    (writeCells i j cells s).cols = s.cols := by
  induction cells generalizing j s with
  | nil => rfl
  | cons c cells ih => rw [writeCells, ih, Screen.cols_updateCellInPlace]

@[simp] theorem rowWraps_writeCells (cells : List Cell) (j : ℕ) (s : Screen) :
    (writeCells i j cells s).rowWraps = s.rowWraps := by
  induction cells generalizing j s with
  | nil => rfl
  | cons c cells ih => rw [writeCells, ih, Screen.rowWraps_updateCellInPlace]

/-- The cells written replace those that were there. -/
theorem cells_writeCells {pre old cells : List Cell} {s : Screen}
    (h : s.cells[i]? = some (pre ++ old)) (hlen : cells.length ≤ old.length) :
    (writeCells i pre.length cells s).cells =
      s.cells.set i (pre ++ cells ++ old.drop cells.length) := by
  induction cells generalizing pre old s with
  | nil =>
    obtain ⟨hi, hrow⟩ := List.getElem?_eq_some_iff.mp h
    simp [writeCells, ← hrow]
  | cons c cells ih =>
    cases old with
    | nil => simp at hlen
    | cons o old =>
      obtain ⟨hi, hrow⟩ := List.getElem?_eq_some_iff.mp h
      have hcells : (s.updateCellInPlace i pre.length c.grapheme c.attrs).cells =
          s.cells.set i (pre ++ [c] ++ old) := by
        rw [Screen.cells_updateCellInPlace, List.modify_eq_set_get _ hi, List.get_eq_getElem, hrow]
        simp
      have hnew : (s.updateCellInPlace i pre.length c.grapheme c.attrs).cells[i]? =
          some (pre ++ [c] ++ old) := by
        rw [hcells, List.getElem?_set_self hi]
      have hrest := ih hnew (Nat.le_of_succ_le_succ hlen)
      rw [List.length_append, List.length_singleton] at hrest
      rw [writeCells, hrest, hcells, List.set_set]
      simp

end Rows

section Sync

variable (palette : Palette) (grid : RenderGrid)

/-- A row of the library, converted and filled up. -/
def convertRow (row : RenderRow) : List Cell :=
  resizeList grid.cols .blank (row.cells.map (convertCell palette grid))

variable {palette grid}

theorem grapheme_ne_nil_of_mem_convertRow {row : RenderRow} {cell : Cell}
    (h : cell ∈ convertRow palette grid row) : cell.grapheme ≠ [] := by
  rcases List.mem_append.mp h with h | h
  · obtain ⟨c, -, rfl⟩ := List.mem_map.mp (List.mem_of_mem_take h)
    exact graphemeStr_ne_nil _
  · rw [List.eq_of_mem_replicate h]
    exact List.cons_ne_nil _ _

@[simp] theorem rows_syncRow (i : ℕ) (row : RenderRow) (s : Screen) :
    (syncRow palette grid i row s).rows = s.rows := by
  simp [syncRow, Screen.setRowWrap]

@[simp] theorem cols_syncRow (i : ℕ) (row : RenderRow) (s : Screen) :
    (syncRow palette grid i row s).cols = s.cols := by
  simp [syncRow, Screen.setRowWrap]

theorem rowWraps_syncRow (i : ℕ) (row : RenderRow) (s : Screen) :
    (syncRow palette grid i row s).rowWraps = s.rowWraps.set i row.wrap := by
  simp [syncRow, Screen.setRowWrap]

theorem cells_syncRow {i : ℕ} (row : RenderRow) {s : Screen} {old : List Cell}
    (h : s.cells[i]? = some old) (hold : old.length = grid.cols) :
    (syncRow palette grid i row s).cells = s.cells.set i (convertRow palette grid row) := by
  set cells := (row.cells.take grid.cols).map (convertCell palette grid) with hcells
  have hlen : cells.length ≤ old.length := by
    rw [hcells, List.length_map, List.length_take, hold]
    exact Nat.min_le_left _ _
  obtain ⟨hi, -⟩ := List.getElem?_eq_some_iff.mp h
  have hempty : s.cells[i]? = some ([] ++ old) := h
  have hfirst := cells_writeCells hempty hlen
  rw [List.nil_append, List.length_nil] at hfirst
  have hmid : (writeCells i 0 cells s).cells[i]? = some (cells ++ old.drop cells.length) := by
    rw [hfirst, List.getElem?_set_self hi]
  have hpad : (List.replicate (grid.cols - cells.length) Cell.blank).length ≤
      (old.drop cells.length).length :=
    Nat.le_of_eq (by rw [List.length_replicate, List.length_drop, hold])
  have hsecond := cells_writeCells hmid hpad
  rw [List.drop_drop, List.length_replicate, List.drop_eq_nil_of_le (by omega), List.append_nil,
    hfirst, List.set_set] at hsecond
  have hrow : cells ++ List.replicate (grid.cols - cells.length) Cell.blank =
      convertRow palette grid row := by
    rw [convertRow, resizeList, ← List.map_take, ← hcells]
    congr 2
    rw [hcells, List.length_map, List.length_take, List.length_map]
    omega
  rw [← hrow, ← hsecond]
  rfl

/-- After the rows, the grid is the converted one behind what was done before. -/
theorem syncRows_spec {rows : List RenderRow} {s : Screen} {done todo : List (List Cell)}
    (h : s.cells = done ++ todo) (hlen : todo.length = rows.length)
    (hcols : ∀ row ∈ todo, row.length = grid.cols) :
    (syncRows palette grid done.length rows s).cells =
      done ++ rows.map (convertRow palette grid) := by
  induction rows generalizing s done todo with
  | nil =>
    obtain rfl := List.length_eq_zero_iff.mp hlen
    simpa [syncRows] using h
  | cons row rows ih =>
    cases todo with
    | nil => simp at hlen
    | cons old todo =>
      have hold : s.cells[done.length]? = some old := by simp [h]
      have hnext : (syncRow palette grid done.length row s).cells =
          (done ++ [convertRow palette grid row]) ++ todo := by
        rw [cells_syncRow row hold (hcols old List.mem_cons_self), h]
        simp
      have hrest := ih hnext (Nat.succ.inj hlen) fun r hr => hcols r (List.mem_cons_of_mem old hr)
      rw [List.length_append, List.length_singleton] at hrest
      rw [syncRows, hrest]
      simp

theorem rowWraps_syncRows {rows : List RenderRow} {s : Screen} {done todo : List Bool}
    (h : s.rowWraps = done ++ todo) (hlen : todo.length = rows.length) :
    (syncRows palette grid done.length rows s).rowWraps = done ++ rows.map (·.wrap) := by
  induction rows generalizing s done todo with
  | nil =>
    obtain rfl := List.length_eq_zero_iff.mp hlen
    simpa [syncRows] using h
  | cons row rows ih =>
    cases todo with
    | nil => simp at hlen
    | cons old todo =>
      have hnext : (syncRow palette grid done.length row s).rowWraps =
          (done ++ [row.wrap]) ++ todo := by
        rw [rowWraps_syncRow, h]
        simp
      have hrest := ih hnext (Nat.succ.inj hlen)
      rw [List.length_append, List.length_singleton] at hrest
      rw [syncRows, hrest]
      simp

theorem rows_syncRows (rows : List RenderRow) (i : ℕ) (s : Screen) :
    (syncRows palette grid i rows s).rows = s.rows := by
  induction rows generalizing i s with
  | nil => rfl
  | cons row rows ih => rw [syncRows, ih, rows_syncRow]

theorem cols_syncRows (rows : List RenderRow) (i : ℕ) (s : Screen) :
    (syncRows palette grid i rows s).cols = s.cols := by
  induction rows generalizing i s with
  | nil => rfl
  | cons row rows ih => rw [syncRows, ih, cols_syncRow]

/-- Whatever the cache was, a conversion makes it the grid. -/
theorem shows_syncRows (s : Screen) : Shows (convertCell palette grid) grid
    (syncRows palette grid 0 grid.rows (s.ensureCapacity grid.rows.length grid.cols)) := by
  set t := s.ensureCapacity grid.rows.length grid.cols with ht
  refine ⟨rows_syncRows .., cols_syncRows .., ?_, ?_⟩
  · exact syncRows_spec (List.nil_append t.cells).symm (Screen.length_cells_ensureCapacity s _ _)
      (Screen.length_row_ensureCapacity s _ _)
  · exact rowWraps_syncRows (List.nil_append t.rowWraps).symm
      (Screen.length_rowWraps_ensureCapacity s _ _)

end Sync

/-! ### When two conversions agree -/

theorem resizeList_map_inj {n : ℕ} {f g : RenderCell → Cell} {cells : List RenderCell} :
    resizeList n .blank (cells.map f) = resizeList n .blank (cells.map g) ↔
      ∀ c ∈ cells.take n, f c = g c := by
  simp only [resizeList, List.length_map, List.append_left_inj, ← List.map_take, List.map_inj_left]

/-- A screen that shows the grid under one conversion shows it under another exactly if the
two agree on its cells. -/
theorem Shows.iff {f g : RenderCell → Cell} {grid : RenderGrid} {s : Screen}
    (h : Shows f grid s) :
    Shows g grid s ↔ ∀ row ∈ grid.rows, ∀ c ∈ row.cells.take grid.cols, f c = g c := by
  have hcells : s.cells = (grid.rows.map fun row => resizeList grid.cols .blank (row.cells.map g)) ↔
      ∀ row ∈ grid.rows, ∀ c ∈ row.cells.take grid.cols, f c = g c := by
    rw [h.cells, List.map_inj_left]
    exact forall₂_congr fun _ _ => resizeList_map_inj
  exact ⟨fun hg => hcells.mp hg.cells, fun hc => ⟨h.rows, h.cols, hcells.mpr hc, h.rowWraps⟩⟩

theorem graphemeStr_take_eq {codepoints : List Char} :
    graphemeStr (codepoints.take maxCodepoints) = graphemeStr codepoints ↔
      codepoints.length ≤ maxCodepoints := by
  cases codepoints with
  | nil => simp [graphemeStr]
  | cons c cs =>
    have htake : (c :: cs).take maxCodepoints ≠ [] := by simp [maxCodepoints]
    rw [graphemeStr, graphemeStr, if_neg (by simpa using htake), if_neg (by simp)]
    refine ⟨fun h => ?_, List.take_of_length_le⟩
    have hlen := congrArg List.length h
    rw [List.length_take] at hlen
    omega

/-- Converting with one palette gives the cell as it is under another. -/
theorem convertCell_eq_directCell {palette palette' : Palette} {grid : RenderGrid}
    {cell : RenderCell} : convertCell palette grid cell = directCell palette' grid cell ↔
      cell.codepoints.length ≤ maxCodepoints ∧
        cellAttrs palette grid cell = cellAttrs palette' grid cell := by
  rw [convertCell, directCell, Cell.mk.injEq, graphemeStr_take_eq]

/-! ### Runs -/

namespace Terminal

/-- The cache is the grid under the palette of the last conversion, unless a call since then
has asked for the next one. -/
def Cached (t : Terminal) : Prop :=
  t.screenDirty = false → Shows (convertCell t.converted t.grid) t.grid t.cache

variable {t : Terminal}

theorem shows_syncScreen (h : t.Cached) :
    Shows (convertCell t.syncScreen.converted t.grid) t.grid t.syncScreen.cache := by
  unfold syncScreen
  split_ifs with hs
  · exact shows_syncRows t.cache
  · simp only [needsSync, Bool.or_eq_true, not_or, Bool.not_eq_true] at hs
    exact h hs.2

theorem grid_syncScreen : t.syncScreen.grid = t.grid := by
  unfold syncScreen
  split_ifs <;> rfl

theorem Cached.step (h : t.Cached) (i : Step) : (t.step i).Cached := by
  cases i with
  | feed bytes grid dirty =>
    simp only [Terminal.step, Terminal.feed]
    split_ifs
    · exact h
    · intro hs
      simp at hs
  | resize rows cols grid dirty => intro hs; simp [Terminal.step, Terminal.resize] at hs
  | scrollViewport grid dirty => intro hs; simp [Terminal.step, Terminal.scrollViewport] at hs
  | reset grid dirty => intro hs; simp [Terminal.step, Terminal.reset] at hs
  | setAnsiPalette palette => exact h
  | screen =>
    intro _
    have hshows := shows_syncScreen h
    rwa [← grid_syncScreen (t := t)] at hshows

theorem converted_syncScreen :
    t.syncScreen.converted = if t.needsSync then t.ansiPalette else t.converted := by
  unfold syncScreen
  split_ifs <;> rfl

theorem exact_iff (h : t.Cached) (i : Step) : t.Exact i ↔ t.Convertible i := by
  refine imp_congr_right fun _ => ?_
  have hshows := shows_syncScreen h
  refine hshows.iff.trans (forall₂_congr fun row _ => forall₂_congr fun c _ => ?_)
  rw [convertCell_eq_directCell, converted_syncScreen]
  refine and_congr_right fun _ => ?_
  cases t.needsSync <;> simp

/-- The screens of a run are the grid as it is, exactly if at each of them no cell has more
code points than the buffer holds, and the palette was not changed since the last conversion
in a way that changes the color of a cell. -/
theorem screen_run (rows cols : ℕ) (palette : Palette) (grid : RenderGrid) (is : List Step) :
    Meets step Exact (new rows cols palette grid) is ↔
      Meets step Convertible (new rows cols palette grid) is := by
  have hnew : (new rows cols palette grid).Cached := by intro hs; simp [new] at hs
  constructor
  · exact meets_of_invariant (fun t i ht _ => ht.step i) (fun t i ht h => (exact_iff ht i).mp h) hnew
  · exact meets_of_invariant (fun t i ht _ => ht.step i) (fun t i ht h => (exact_iff ht i).mpr h) hnew

/-- One cell in the second color of the theme. -/
def redCell : RenderGrid where
  rows := [{ cells := [{
    codepoints := ['x']
    style := { fgColor := .palette 1, bgColor := .none, bold := false, italic := false,
               faint := false, inverse := false, strikethrough := false, underline := 0 }
    background := none }], wrap := false }]
  cols := 1
  foreground := ⟨255, 255, 255⟩
  background := ⟨0, 0, 0⟩

/-- The theme changes between two frames, and nothing else does. -/
theorem not_exact_setAnsiPalette : ¬ ∀ rows cols palette grid is,
    Meets step Exact (new rows cols palette grid) is := by
  intro h
  obtain ⟨-, -, hlast, -⟩ := h 1 1 (fun _ => ⟨200, 0, 0⟩) redCell
    [.screen, .setAnsiPalette fun _ => ⟨220, 50, 47⟩, .screen]
  exact absurd (hlast rfl).cells (by decide)

end Terminal

end Forgetty.Vt
