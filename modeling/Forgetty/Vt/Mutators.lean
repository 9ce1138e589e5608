import Forgetty.Vt.ExtractText

/-! The mutators of the screen. Those that leave its dimensions alone draw rows anew, each at a
generation that is higher than all from before. Those that change the dimensions take the
generations of the rows along. -/

namespace Forgetty.Screen

/-- The generation of a row. An index behind the last row panics in the source. -/
def rowGeneration (i : ℕ) (s : Screen) : ℕ := s.rowGenerations[i]?.getD 0

def rowDirtySince (i since : ℕ) (s : Screen) : Bool := since < s.rowGeneration i

def nextGeneration (s : Screen) : Screen := { s with generation := s.generation + 1 }

/-- A row gets its cells and the current generation. -/
def writeRow (i : ℕ) (cells : List Cell) (s : Screen) : Screen :=
  { s with
    cells := s.cells.set i cells
    rowGenerations := s.rowGenerations.set i s.generation }

/-- The loops that write one row after the other, each with what the screen is by then. -/
def redraw (cells : ℕ → Screen → List Cell) (is : List ℕ) (s : Screen) : Screen :=
  is.foldl (fun t i => t.writeRow i (cells i t)) s

/-- The inner loop of `clear`. -/
def clearedRow (i : ℕ) (s : Screen) : List Cell :=
  (List.range s.cols).foldl (fun row j => row.set j .blank) (s.row i)

def clear (s : Screen) : Screen := s.nextGeneration.redraw clearedRow (List.range s.rows)

/-- With the lines that are scrolled off at the top. A region that is not on the screen panics. -/
def scrollUp (n top bottom : ℕ) (s : Screen) : Screen × List (List Cell) :=
  let n := min n (bottom - top + 1)
  (s.nextGeneration.redraw
    (fun i t => if i + n ≤ bottom then t.row (i + n) else blankRow t.cols)
    (List.range' top (bottom + 1 - top)),
  (s.cells.drop top).take n)

/-- The rows are gone through from the bottom. -/
def scrollDown (n top bottom : ℕ) (s : Screen) : Screen :=
  let n := min n (bottom - top + 1)
  s.nextGeneration.redraw
    (fun i t => if top + n ≤ i then t.row (i - n) else blankRow t.cols)
    (List.range' top (bottom + 1 - top)).reverse

def markDirty (i : ℕ) (s : Screen) : Screen :=
  { s with
    generation := s.generation + 1
    rowGenerations := s.rowGenerations.set i (s.generation + 1) }

/-! ### The shape of a screen -/

/-- The grid has the dimensions of the screen, and every row a generation and a wrap flag. -/
structure Kept (s : Screen) : Prop extends Shaped s where
  generations : s.rowGenerations.length = s.rows
  wraps : s.rowWraps.length = s.rows

/-- No row is of a later generation than the screen. -/
structure Sound (s : Screen) : Prop extends Kept s where
  latest : ∀ g ∈ s.rowGenerations, g ≤ s.generation

/-- A later screen in the same dimensions: each row is as it was, or of a generation that the
earlier screen had not come to. -/
structure Redrawn (s t : Screen) : Prop where
  rows : t.rows = s.rows
  cols : t.cols = s.cols
  le : s.generation ≤ t.generation
  row : ∀ i < s.rows, t.row i = s.row i ∧ t.rowGeneration i = s.rowGeneration i ∨
    s.generation < t.rowGeneration i

section Rows

variable {s t : Screen} {i j : ℕ} {cells : List Cell}

theorem Sound.rowGeneration_le (h : s.Sound) (i : ℕ) : s.rowGeneration i ≤ s.generation := by
  rw [rowGeneration]
  cases hi : s.rowGenerations[i]? with
  | none => exact Nat.zero_le _
  | some g => exact h.latest g (List.mem_of_getElem? hi)

theorem rowGeneration_set {gens : List ℕ} {g : ℕ} (hgens : t.rowGenerations = gens.set i g)
    (hi : i < gens.length) : t.rowGeneration i = g := by
  rw [rowGeneration, hgens, List.getElem?_set_self hi, Option.getD_some]

theorem rowGeneration_set_of_ne {g : ℕ} (hgens : t.rowGenerations = s.rowGenerations.set i g)
    (hne : i ≠ j) : t.rowGeneration j = s.rowGeneration j := by
  rw [rowGeneration, hgens, List.getElem?_set_ne hne, rowGeneration]

theorem row_writeRow_of_ne (hne : i ≠ j) : (s.writeRow i cells).row j = s.row j := by
  rw [row, writeRow, List.getElem?_set_ne hne, row]

theorem Redrawn.refl (s : Screen) : Redrawn s s where
  rows := rfl
  cols := rfl
  le := Nat.le_refl _
  row _ _ := .inl ⟨rfl, rfl⟩

/-- One row is touched, and gets the next generation. -/
theorem redrawn_of_touched (h : s.Kept) (hrows : t.rows = s.rows) (hcols : t.cols = s.cols)
    (hgeneration : t.generation = s.generation + 1)
    (hgens : t.rowGenerations = s.rowGenerations.set i (s.generation + 1))
    (hrow : ∀ j, i ≠ j → t.row j = s.row j) : Redrawn s t where
  rows := hrows
  cols := hcols
  le := hgeneration ▸ Nat.le_succ _
  row j hj := by
    by_cases hne : i = j
    · subst hne
      rw [rowGeneration_set hgens (h.generations ▸ hj)]
      exact .inr (Nat.lt_succ_self _)
    · exact .inl ⟨hrow j hne, rowGeneration_set_of_ne hgens hne⟩

/-- The generations after one was set to the current one. -/
theorem latest_set {g : ℕ} (h : s.Sound) (hg : s.generation ≤ g) :
    ∀ g' ∈ s.rowGenerations.set i g, g' ≤ g := by
  intro g' hg'
  rcases List.mem_or_eq_of_mem_set hg' with hmem | rfl
  · exact Nat.le_trans (h.latest g' hmem) hg
  · exact Nat.le_refl g'

theorem Sound.nextGeneration (h : s.Sound) : s.nextGeneration.Sound where
  rows := h.rows
  cols := h.cols
  generations := h.generations
  wraps := h.wraps
  latest g hg := Nat.le_trans (h.latest g hg) (Nat.le_succ _)

theorem Sound.writeRow (h : s.Sound) (hcells : cells.length = s.cols) :
    (s.writeRow i cells).Sound where
  rows := (List.length_set ..).trans h.rows
  cols row hrow := by
    rcases List.mem_or_eq_of_mem_set hrow with hmem | rfl
    · exact h.cols row hmem
    · exact hcells
  generations := (List.length_set ..).trans h.generations
  wraps := h.wraps
  latest := latest_set h (Nat.le_refl _)

end Rows

/-! ### What the mutators do -/

section Redraw

variable {s t : Screen} {cells : ℕ → Screen → List Cell}

/-- Between two rounds: the screen is sound and a redrawn one, of a later generation. -/
structure Drawing (s t : Screen) : Prop where
  sound : t.Sound
  redrawn : Redrawn s t
  lt : s.generation < t.generation

theorem drawing_nextGeneration (h : s.Sound) : Drawing s s.nextGeneration where
  sound := h.nextGeneration
  redrawn := ⟨rfl, rfl, Nat.le_succ _, fun _ _ => .inl ⟨rfl, rfl⟩⟩
  lt := Nat.lt_succ_self _

theorem Drawing.writeRow (h : Drawing s t) {i : ℕ} {row : List Cell}
    (hrow : row.length = t.cols) : Drawing s (t.writeRow i row) where
  sound := h.sound.writeRow hrow
  redrawn := by
    refine ⟨h.redrawn.rows, h.redrawn.cols, h.redrawn.le, fun j hj => ?_⟩
    by_cases hne : i = j
    · subst hne
      have hi : i < t.rowGenerations.length := by
        rw [h.sound.generations, h.redrawn.rows]
        exact hj
      rw [@rowGeneration_set (t.writeRow i row) i t.rowGenerations t.generation rfl hi]
      exact .inr h.lt
    · rw [row_writeRow_of_ne hne, @rowGeneration_set_of_ne t (t.writeRow i row) i j _ rfl hne]
      exact h.redrawn.row j hj
  lt := h.lt

/-- The loops draw rows that fit. -/
theorem drawing_redraw (h : s.Sound) {is : List ℕ}
    (hcells : ∀ i ∈ is, ∀ t, Drawing s t → (cells i t).length = t.cols) :
    Drawing s (s.nextGeneration.redraw cells is) := by
  have hstart := drawing_nextGeneration h
  generalize s.nextGeneration = t at hstart
  unfold redraw
  induction is generalizing t with
  | nil => exact hstart
  | cons i is ih =>
    rw [List.foldl_cons]
    refine ih (fun j hj => hcells j (List.mem_cons_of_mem i hj)) _ (hstart.writeRow ?_)
    exact hcells i List.mem_cons_self t hstart

theorem length_clearedRow (i : ℕ) (s : Screen) : (s.clearedRow i).length = (s.row i).length := by
  unfold clearedRow
  generalize s.row i = row
  induction List.range s.cols generalizing row with
  | nil => rfl
  | cons j js ih => rw [List.foldl_cons, ih, List.length_set]

theorem drawing_clear (h : s.Sound) : Drawing s s.clear := by
  refine drawing_redraw h fun i hi t ht => ?_
  rw [length_clearedRow]
  exact ht.sound.length_row (ht.redrawn.rows ▸ List.mem_range.mp hi)

theorem length_row_or_blank (h : Drawing s t) {i : ℕ} {p : Prop} [Decidable p]
    (hp : p → i < s.rows) : (if p then t.row i else blankRow t.cols).length = t.cols := by
  split_ifs with hin
  · exact h.sound.length_row (h.redrawn.rows ▸ hp hin)
  · exact List.length_replicate

theorem drawing_scrollUp (h : s.Sound) (n : ℕ) {top bottom : ℕ} (hbottom : bottom < s.rows) :
    Drawing s (s.scrollUp n top bottom).1 :=
  drawing_redraw h fun _ _ _ ht => length_row_or_blank ht fun hle => Nat.lt_of_le_of_lt hle hbottom

theorem drawing_scrollDown (h : s.Sound) (n : ℕ) {top bottom : ℕ} (hbottom : bottom < s.rows) :
    Drawing s (s.scrollDown n top bottom) := by
  refine drawing_redraw h fun i hi t ht => length_row_or_blank ht fun _ => ?_
  rw [List.mem_reverse, List.mem_range'_1] at hi
  omega

end Redraw

section Touch

variable {s : Screen}

theorem row_modify_of_ne {t : Screen} {i j : ℕ} {f : List Cell → List Cell}
    (hcells : t.cells = s.cells.modify i f) (hne : i ≠ j) : t.row j = s.row j := by
  rw [row, hcells, List.getElem?_modify_ne f s.cells hne, row]

theorem sound_setCell (h : s.Sound) (i j : ℕ) (cell : Cell) : (s.setCell i j cell).Sound where
  toShaped := h.toShaped.setCell i j cell
  generations := (List.length_set ..).trans h.generations
  wraps := h.wraps
  latest := latest_set h (Nat.le_succ _)

theorem redrawn_setCell (h : s.Kept) (i j : ℕ) (cell : Cell) : Redrawn s (s.setCell i j cell) :=
  redrawn_of_touched h rfl rfl rfl rfl fun _ hne => row_modify_of_ne rfl hne

theorem sound_markDirty (h : s.Sound) (i : ℕ) : (s.markDirty i).Sound where
  rows := h.rows
  cols := h.cols
  generations := (List.length_set ..).trans h.generations
  wraps := h.wraps
  latest := latest_set h (Nat.le_succ _)

theorem redrawn_markDirty (h : s.Kept) (i : ℕ) : Redrawn s (s.markDirty i) :=
  redrawn_of_touched h rfl rfl rfl rfl fun _ _ => rfl

/-- The generations move exactly if the cell becomes another one. -/
theorem updateCellInPlace_cases (i j : ℕ) (grapheme : Text) (attrs : CellAttributes)
    (s : Screen) : s.updateCellInPlace i j grapheme attrs = s ∨
      (s.updateCellInPlace i j grapheme attrs).generation = s.generation + 1 ∧
      (s.updateCellInPlace i j grapheme attrs).rowGenerations =
        s.rowGenerations.set i (s.generation + 1) := by
  unfold updateCellInPlace
  split
  · exact .inl rfl
  · split
    · exact .inl rfl
    · split_ifs
      · exact .inl rfl
      · exact .inr ⟨rfl, rfl⟩

theorem sound_updateCellInPlace (h : s.Sound) (i j : ℕ) (grapheme : Text)
    (attrs : CellAttributes) : (s.updateCellInPlace i j grapheme attrs).Sound := by
  rcases updateCellInPlace_cases i j grapheme attrs s with hsame | ⟨hgeneration, hgens⟩
  · rwa [hsame]
  · constructor
    case toKept =>
      refine ⟨h.toShaped.updateCellInPlace i j grapheme attrs, ?_, ?_⟩
      · rw [hgens, rows_updateCellInPlace, List.length_set, h.generations]
      · rw [rowWraps_updateCellInPlace, rows_updateCellInPlace, h.wraps]
    case latest =>
      rw [hgens, hgeneration]
      exact latest_set h (Nat.le_succ _)

theorem redrawn_updateCellInPlace (h : s.Kept) (i j : ℕ) (grapheme : Text)
    (attrs : CellAttributes) : Redrawn s (s.updateCellInPlace i j grapheme attrs) := by
  rcases updateCellInPlace_cases i j grapheme attrs s with hsame | ⟨hgeneration, hgens⟩
  · rw [hsame]
    exact .refl s
  · exact redrawn_of_touched h (rows_updateCellInPlace ..) (cols_updateCellInPlace ..) hgeneration
      hgens fun _ hne => row_modify_of_ne (cells_updateCellInPlace ..) hne

end Touch

section Dimensions

variable {s : Screen} {rows cols : ℕ}

theorem getElem?_resizeList {α : Type*} {n i : ℕ} (h : i < n) (a : α) (l : List α) :
    (resizeList n a l)[i]? = some (l[i]?.getD a) := by
  rw [resizeList, List.getElem?_append, List.length_take, List.getElem?_take_of_lt h]
  split_ifs with hi
  · have hl : i < l.length := by omega
    rw [List.getElem?_eq_getElem hl, Option.getD_some]
  · have hl : l[i]? = none := List.getElem?_eq_none (by omega)
    rw [hl, Option.getD_none, List.getElem?_replicate, if_pos (by omega)]

theorem resizeList_length {α : Type*} (a : α) (l : List α) : resizeList l.length a l = l := by
  rw [resizeList, List.take_length, Nat.sub_self, List.replicate_zero, List.append_nil]

/-- The rows that stay are cut off or filled up, those that are new are blank. -/
theorem row_ensureCapacity {i : ℕ} (h : i < rows) : (s.ensureCapacity rows cols).row i =
    if i < s.cells.length then resizeList cols .blank (s.row i) else blankRow cols := by
  rw [row, ensureCapacity, getElem?_resizeList h, Option.getD_some, List.getElem?_map, row]
  split_ifs with hi
  · rw [List.getElem?_eq_getElem hi]
    rfl
  · rw [List.getElem?_eq_none (Nat.not_lt.mp hi)]
    rfl

theorem rowGeneration_ensureCapacity {i : ℕ} (h : i < rows) :
    (s.ensureCapacity rows cols).rowGeneration i = s.rowGeneration i := by
  rw [rowGeneration, ensureCapacity, getElem?_resizeList h, Option.getD_some, rowGeneration]

theorem sound_ensureCapacity (h : s.Sound) (rows cols : ℕ) : (s.ensureCapacity rows cols).Sound where
  toShaped := shaped_ensureCapacity rows cols s
  generations := length_resizeList ..
  wraps := length_resizeList ..
  latest g hg := by
    rcases mem_resizeList hg with hg | rfl
    · exact h.latest g hg
    · exact Nat.zero_le _

/-- In the dimensions that it has, the screen stays as it is. -/
theorem ensureCapacity_self (h : s.Kept) : s.ensureCapacity s.rows s.cols = s := by
  have hcols : s.cells.map (resizeList s.cols .blank) = s.cells := by
    rw [← List.map_id s.cells, List.map_map]
    refine List.map_congr_left fun row hrow => ?_
    rw [Function.comp, id, ← h.cols row hrow, resizeList_length]
  have hcells := resizeList_length (blankRow s.cols) s.cells
  have hgens := resizeList_length 0 s.rowGenerations
  have hwraps := resizeList_length false s.rowWraps
  rw [h.rows] at hcells
  rw [h.generations] at hgens
  rw [h.wraps] at hwraps
  rw [ensureCapacity, hcols, hcells, hgens, hwraps]

end Dimensions

end Forgetty.Screen
