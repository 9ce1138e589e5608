import Forgetty.Gtk.Clipboard
import Forgetty.Lib.Sift
import Forgetty.Vt.ExtractText

/-! The code blocks of a screen. A bordered one is traced along its box-drawing characters from its
top-left corner, and it is kept unless it is in one that was found before. One with a background of
its own is a run of cells that comes again in the rows below, and it is kept unless it touches a
block that was found before. -/

namespace Forgetty

open Lib

structure CodeBlock where
  topRow : ℕ
  bottomRow : ℕ
  leftCol : ℕ
  rightCol : ℕ
  hasBorder : Bool
  deriving DecidableEq, Repr

def CodeBlock.contains (row col : ℕ) (b : CodeBlock) : Bool :=
  b.topRow ≤ row && row ≤ b.bottomRow && b.leftCol ≤ col && col ≤ b.rightCol

namespace CodeBlocks

/-! ### Borders -/

def isHorizontalBorder (c : Char) : Bool := c ∈ ['\u2500', '\u2501', '\u2550']

def isVerticalBorder (c : Char) : Bool := c ∈ ['\u2502', '\u2503', '\u2551']

def isTopLeftCorner (c : Char) : Bool :=
  c ∈ ['\u250c', '\u250d', '\u250e', '\u250f', '\u256d', '\u2552', '\u2553', '\u2554']

def isTopRightCorner (c : Char) : Bool :=
  c ∈ ['\u2510', '\u2511', '\u2512', '\u2513', '\u256e', '\u2555', '\u2556', '\u2557']

def isBottomLeftCorner (c : Char) : Bool :=
  c ∈ ['\u2514', '\u2515', '\u2516', '\u2517', '\u2570', '\u2558', '\u2559', '\u255a']

def isBottomRightCorner (c : Char) : Bool :=
  c ∈ ['\u2518', '\u2519', '\u251a', '\u251b', '\u256f', '\u255b', '\u255c', '\u255d']

/-- The first character of a cell, or a null character. -/
def charOrNull (cell : Cell) : Char := cell.grapheme.headD '\x00'

/-- An index behind the last row or column panics in the source, except in `first_char`. -/
def charAt (screen : Screen) (row col : ℕ) : Char := ((screen.cell row col).map charOrNull).getD '\x00'

def firstChar (screen : Screen) (row col : ℕ) : Char :=
  if screen.rows ≤ row ∨ screen.cols ≤ col then '\x00' else charAt screen row col

/-- The first top-right corner to the right, along box-drawing characters. -/
def findRightCol (screen : Screen) (row col : ℕ) : Option ℕ :=
  let chars := (((screen.row row).take screen.cols).drop (col + 1)).map charOrNull
  (scanFor isTopRightCorner (fun c => isHorizontalBorder c || isBoxDrawing c) chars).map
    (col + 1 + ·)

def validBottom (screen : Screen) (bottom col rightCol : ℕ) : Bool :=
  (List.range' (col + 1) (rightCol - (col + 1))).all fun bc =>
    isHorizontalBorder (firstChar screen bottom bc) || isBoxDrawing (firstChar screen bottom bc)

/-- The first row below with both bottom corners, along box-drawing characters on both sides. -/
def findBottomRow (screen : Screen) (row col rightCol : ℕ) : Option ℕ :=
  let corners br := isBottomLeftCorner (firstChar screen br col) &&
    isBottomRightCorner (firstChar screen br rightCol)
  let borders br :=
    (isVerticalBorder (firstChar screen br col) || isBoxDrawing (firstChar screen br col)) &&
      (isVerticalBorder (firstChar screen br rightCol) ||
        isBoxDrawing (firstChar screen br rightCol))
  match scanFor corners borders (List.range' (row + 1) (screen.rows - (row + 1))) with
  | none => none
  | some n =>
    let br := row + 1 + n
    if validBottom screen br col rightCol then some br else none

/-- The block with its top-left corner in a cell. -/
def candidateAt (screen : Screen) (row col : ℕ) : Option CodeBlock :=
  if ¬isTopLeftCorner (charAt screen row col) then none
  else
    match findRightCol screen row col with
    | none => none
    | some rightCol =>
      if rightCol - col < 4 then none
      else
        match findBottomRow screen row col rightCol with
        | none => none
        | some bottomRow =>
          if bottomRow - row < 2 then none
          else
            some
              { topRow := row
                bottomRow := bottomRow
                leftCol := col
                rightCol := rightCol
                hasBorder := true }

def nests (existing candidate : CodeBlock) : Bool :=
  existing.topRow ≤ candidate.topRow && candidate.bottomRow ≤ existing.bottomRow &&
    existing.leftCol ≤ candidate.leftCol && candidate.rightCol ≤ existing.rightCol

def detectBorderBlocks (screen : Screen) : List CodeBlock :=
  (List.range screen.rows).foldl (fun blocks row =>
    (List.range screen.cols).foldl (fun blocks col =>
      match candidateAt screen row col with
      | none => blocks
      | some candidate => keepUnless nests blocks candidate) blocks) []

/-! ### Backgrounds -/

structure BgSpan where
  left : ℕ
  right : ℕ
  color : Color
  deriving DecidableEq, Repr

/-- The run of cells of one background up to now, and the longest one before it. -/
structure Runs where
  bestSpan : Option BgSpan
  curStart : ℕ
  curColor : Color
  curLen : ℕ

def Runs.new : Runs where
  bestSpan := none
  curStart := 0
  curColor := .default
  curLen := 0

/-- The run is over. -/
def Runs.save (r : Runs) : Runs :=
  if r.curColor ≠ .default ∧ 10 ≤ r.curLen ∧
      r.bestSpan.all fun s => s.right - s.left + 1 < r.curLen then
    { r with
      bestSpan := some
        { left := r.curStart, right := r.curStart + r.curLen - 1, color := r.curColor } }
  else r

def Runs.scan (r : Runs) (col : ℕ) (bg : Color) : Runs :=
  if bg ≠ .default ∧ bg = r.curColor then { r with curLen := r.curLen + 1 }
  else if bg ≠ .default then { r.save with curStart := col, curColor := bg, curLen := 1 }
  else { r.save with curColor := .default, curLen := 0 }

/-- The longest run of cells with the same background, the first one of several. -/
def rowSpan (screen : Screen) (row : ℕ) : Option BgSpan :=
  let cells := (screen.row row).take (min screen.cols (screen.row row).length)
  (cells.zipIdx.foldl (fun r (cell, col) => Runs.scan r col cell.attrs.bg) Runs.new).save.bestSpan

/-- How far the span comes again in the rows below. -/
def extendDown (span : BgSpan) : List (Option BgSpan) → ℕ → ℕ
  | some next :: rest, bottom =>
    if next.color = span.color ∧ next.left = span.left ∧ next.right = span.right then
      extendDown span rest (bottom + 1)
    else bottom
  | _, bottom => bottom

def overlaps (existing candidate : CodeBlock) : Bool :=
  candidate.topRow ≤ existing.bottomRow && existing.topRow ≤ candidate.bottomRow &&
    candidate.leftCol ≤ existing.rightCol && existing.leftCol ≤ candidate.rightCol

theorem le_extendDown (span : BgSpan) (rest : List (Option BgSpan)) (bottom : ℕ) :
    bottom ≤ extendDown span rest bottom := by
  fun_induction extendDown span rest bottom with
  | case1 => omega
  | case2 => omega
  | case3 => omega

/-- The loop goes on in a row below. -/
theorem rows_lt {rowSpans : List (Option BgSpan)} {row bottom : ℕ} {span : Option BgSpan}
    (h : rowSpans[row]? = some span) (hle : row ≤ bottom) :
    rowSpans.length - (bottom + 1) < rowSpans.length - row := by
  have hrow := (List.getElem?_eq_some_iff.mp h).1
  omega

/-- The loop over the rows. -/
def groupRows (rowSpans : List (Option BgSpan)) (row : ℕ) (blocks : List CodeBlock) : List CodeBlock :=
  match h : rowSpans[row]? with
  | none => blocks
  | some none => groupRows rowSpans (row + 1) blocks
  | some (some span) =>
    let blockBottom := extendDown span (rowSpans.drop (row + 1)) row
    if span.right - span.left < 9 then groupRows rowSpans (blockBottom + 1) blocks
    else
      groupRows rowSpans (blockBottom + 1) (keepUnless overlaps blocks
        { topRow := row
          bottomRow := blockBottom
          leftCol := span.left
          rightCol := span.right
          hasBorder := false })
termination_by rowSpans.length - row
decreasing_by
  · exact rows_lt h (Nat.le_refl row)
  · exact rows_lt h (le_extendDown span _ row)
  · exact rows_lt h (le_extendDown span _ row)

def detectColorBlocks (screen : Screen) (blocks : List CodeBlock) : List CodeBlock :=
  groupRows ((List.range screen.rows).map (rowSpan screen)) 0 blocks

def detectCodeBlocks (screen : Screen) : List CodeBlock :=
  detectColorBlocks screen (detectBorderBlocks screen)

/-! ### The text of a block -/

/-- Blank lines at both ends are left out. -/
def trimBlankLines (text : Text) : Text :=
  let lines := Clipboard.lines [] text
  let shown (line : Text) : Bool := !line.all isWhitespace
  let start := (lines.findIdx? shown).getD lines.length
  let stop := ((lines.reverse.findIdx? shown).map fun i => lines.length - 1 - i + 1).getD start
  if stop ≤ start then [] else ['\n'].intercalate ((lines.take stop).drop start)

/-- The rows of the text and the first column and the one behind the last column of it. -/
def contentRange (block : CodeBlock) : ℕ × ℕ × ℕ × ℕ :=
  if block.hasBorder then
    (block.topRow + 1, block.bottomRow, block.leftCol + 1, block.rightCol + 0)
  else (block.topRow, block.bottomRow + 1, block.leftCol + 0, block.rightCol + 1)

def extractContent (screen : Screen) (block : CodeBlock) : Text :=
  let (rowStart, rowEnd, startCol, endCol) := contentRange block
  let rows := (List.range' rowStart (rowEnd - rowStart)).takeWhile (· < screen.rows)
  let lines := rows.map fun row =>
    let cells := screen.row row
    pushGraphemes ((cells.take (min endCol cells.length)).drop startCol)
  trimBlankLines (Clipboard.smartCopyPipeline (['\n'].intercalate lines))

/-! ### What is to hold -/

/-- Every cell of a block is one of the other. -/
def Within (a b : CodeBlock) : Prop :=
  ∀ row col, a.contains row col = true → b.contains row col = true

/-- No cell is in both. -/
def Apart (a b : CodeBlock) : Prop :=
  ∀ row col, ¬(a.contains row col = true ∧ b.contains row col = true)

structure Inside (screen : Screen) (b : CodeBlock) : Prop where
  height : if b.hasBorder then b.topRow < b.bottomRow else b.topRow ≤ b.bottomRow
  width : b.leftCol < b.rightCol
  bottom_lt : b.bottomRow < screen.rows
  right_lt : b.rightCol < screen.cols

/-- A rectangle with a border. It ends at the first top-right corner of its top row and at the first
row with both bottom corners. -/
structure Bordered (screen : Screen) (b : CodeBlock) : Prop where
  bottom_lt : b.bottomRow < screen.rows
  right_lt : b.rightCol < screen.cols
  width : b.leftCol + 4 ≤ b.rightCol
  height : b.topRow + 2 ≤ b.bottomRow
  topLeft : isTopLeftCorner (firstChar screen b.topRow b.leftCol) = true
  topRight : isTopRightCorner (firstChar screen b.topRow b.rightCol) = true
  top : ∀ col, b.leftCol < col → col < b.rightCol →
    isTopRightCorner (firstChar screen b.topRow col) = false ∧
      isBoxDrawing (firstChar screen b.topRow col) = true
  bottomLeft : isBottomLeftCorner (firstChar screen b.bottomRow b.leftCol) = true
  bottomRight : isBottomRightCorner (firstChar screen b.bottomRow b.rightCol) = true
  bottom : ∀ col, b.leftCol < col → col < b.rightCol →
    isBoxDrawing (firstChar screen b.bottomRow col) = true
  sides : ∀ row, b.topRow < row → row < b.bottomRow →
    ¬(isBottomLeftCorner (firstChar screen row b.leftCol) = true ∧
      isBottomRightCorner (firstChar screen row b.rightCol) = true) ∧
    isBoxDrawing (firstChar screen row b.leftCol) = true ∧
    isBoxDrawing (firstChar screen row b.rightCol) = true

/-- The cells within the border, or all cells of a block without one. -/
def IsContent (b : CodeBlock) (row col : ℕ) : Prop :=
  if b.hasBorder then
    (b.topRow < row ∧ row < b.bottomRow) ∧ b.leftCol < col ∧ col < b.rightCol
  else b.contains row col = true

/-- The text of a cell. -/
def graphemeAt (screen : Screen) (row col : ℕ) : Option Text :=
  (screen.cell row col).map (·.grapheme)

/-- The blocks of a screen. -/
structure Detects (screen : Screen) (blocks : List CodeBlock) : Prop where
  inside : ∀ b ∈ blocks, Inside screen b
  unnested : blocks.Pairwise fun a b => ¬Within a b ∧ ¬Within b a
  apart : blocks.Pairwise fun a b => a.hasBorder = false ∨ b.hasBorder = false → Apart a b
  complete : ∀ b, Bordered screen b → ∃ b' ∈ blocks, Within b b'
  content : ∀ b ∈ blocks, ∀ screen' : Screen, screen'.Shaped → screen'.rows = screen.rows →
    (∀ row col, IsContent b row col → graphemeAt screen' row col = graphemeAt screen row col) →
    extractContent screen' b = extractContent screen b

/-! ### Rectangles -/

section Rectangles

variable {screen : Screen} {a b : CodeBlock} {row col : ℕ}

theorem contains_iff : b.contains row col = true ↔
    (b.topRow ≤ row ∧ row ≤ b.bottomRow) ∧ b.leftCol ≤ col ∧ col ≤ b.rightCol := by
  simp only [CodeBlock.contains, Bool.and_eq_true, decide_eq_true_eq]
  omega

theorem nests_iff : nests b a = true ↔
    (b.topRow ≤ a.topRow ∧ a.bottomRow ≤ b.bottomRow) ∧
      b.leftCol ≤ a.leftCol ∧ a.rightCol ≤ b.rightCol := by
  simp only [nests, Bool.and_eq_true, decide_eq_true_eq]
  omega

theorem within_of_nests (h : nests b a = true) : Within a b := by
  rw [nests_iff] at h
  intro row col hin
  rw [contains_iff] at hin ⊢
  omega

/-- A rectangle that is not empty is in another one exactly if its corners are. -/
theorem within_iff (hrows : a.topRow ≤ a.bottomRow) (hcols : a.leftCol ≤ a.rightCol) :
    Within a b ↔ nests b a = true := by
  refine ⟨fun h => ?_, within_of_nests⟩
  have htop := contains_iff.mp (h a.topRow a.leftCol (contains_iff.mpr (by omega)))
  have hbottom := contains_iff.mp (h a.bottomRow a.rightCol (contains_iff.mpr (by omega)))
  rw [nests_iff]
  omega

theorem apart_of_not_overlaps (h : overlaps a b = false) : Apart a b := by
  rintro row col ⟨ha, hb⟩
  rw [contains_iff] at ha hb
  simp only [overlaps, Bool.and_eq_false_iff, decide_eq_false_iff_not] at h
  omega

theorem Inside.top_le (h : Inside screen b) : b.topRow ≤ b.bottomRow := by
  have hheight := h.height
  split_ifs at hheight <;> omega

/-- Blocks with nothing in common are not in one another. -/
theorem not_within_of_apart (ha : Inside screen a) (h : Apart a b) : ¬Within a b := by
  intro hwithin
  have hcorner : a.contains a.topRow a.leftCol = true := by
    have hrows := ha.top_le
    have hcols := ha.width
    rw [contains_iff]
    omega
  exact h a.topRow a.leftCol ⟨hcorner, hwithin _ _ hcorner⟩

theorem Apart.symm (h : Apart a b) : Apart b a := fun row col hin => h row col hin.symm

end Rectangles

/-! ### The border -/

section Border

variable {screen : Screen} {row col rightCol br : ℕ} {b : CodeBlock}

theorem horizontal_or_box (c : Char) : (isHorizontalBorder c || isBoxDrawing c) = isBoxDrawing c := by
  have hall : ['\u2500', '\u2501', '\u2550'].all isBoxDrawing = true := by decide
  rw [Bool.or_eq_right_iff_imp]
  exact fun h => List.all_eq_true.mp hall c (of_decide_eq_true h)

theorem vertical_or_box (c : Char) : (isVerticalBorder c || isBoxDrawing c) = isBoxDrawing c := by
  have hall : ['\u2502', '\u2503', '\u2551'].all isBoxDrawing = true := by decide
  rw [Bool.or_eq_right_iff_imp]
  exact fun h => List.all_eq_true.mp hall c (of_decide_eq_true h)

theorem charAt_eq (hrow : row < screen.rows) (hcol : col < screen.cols) :
    charAt screen row col = firstChar screen row col := by
  rw [firstChar, if_neg (by omega)]

/-- The characters to the right of a cell. -/
theorem charsRight_getElem? (h : screen.Shaped) (hrow : row < screen.rows) (i : ℕ) :
    ((((screen.row row).take screen.cols).drop (col + 1)).map charOrNull)[i]? =
      if col + 1 + i < screen.cols then some (firstChar screen row (col + 1 + i)) else none := by
  rw [List.getElem?_map, List.getElem?_drop, List.getElem?_take]
  split_ifs with hcol
  · have hlt : col + 1 + i < (screen.row row).length := by rwa [h.length_row hrow]
    rw [← charAt_eq hrow hcol, charAt, Screen.cell, List.getElem?_eq_getElem hlt]
    rfl
  · rfl

theorem findRightCol_iff (h : screen.Shaped) (hrow : row < screen.rows) :
    findRightCol screen row col = some rightCol ↔
      (col < rightCol ∧ rightCol < screen.cols) ∧
        isTopRightCorner (firstChar screen row rightCol) = true ∧
        ∀ c, col < c → c < rightCol → isTopRightCorner (firstChar screen row c) = false ∧
          isBoxDrawing (firstChar screen row c) = true := by
  unfold findRightCol
  simp only [Option.map_eq_some_iff, scanFor_eq_some_iff, charsRight_getElem? h hrow,
    horizontal_or_box]
  constructor
  · rintro ⟨n, ⟨⟨c, hc, hcorner⟩, hbefore⟩, rfl⟩
    split_ifs at hc with hlt
    obtain rfl := Option.some.inj hc
    refine ⟨⟨by omega, hlt⟩, hcorner, fun c hcol hc => ?_⟩
    obtain ⟨m, rfl⟩ := Nat.exists_eq_add_of_lt hcol
    have hm := hbefore m (by omega) (firstChar screen row (col + 1 + m)) (if_pos (by omega))
    rwa [Nat.add_right_comm] at hm
  · rintro ⟨⟨hlt, hcols⟩, hcorner, hbefore⟩
    obtain ⟨n, rfl⟩ := Nat.exists_eq_add_of_lt hlt
    rw [Nat.add_right_comm] at hcols hcorner hbefore ⊢
    refine ⟨n, ⟨⟨_, if_pos hcols, hcorner⟩, fun m hm c hc => ?_⟩, rfl⟩
    split_ifs at hc
    obtain rfl := Option.some.inj hc
    exact hbefore (col + 1 + m) (by omega) (by omega)

theorem validBottom_iff : validBottom screen br col rightCol = true ↔
    ∀ c, col < c → c < rightCol → isBoxDrawing (firstChar screen br c) = true := by
  unfold validBottom
  simp only [List.all_eq_true, List.mem_range'_1, horizontal_or_box]
  constructor
  · exact fun h c hcol hc => h c (by omega)
  · exact fun h c hc => h c (by omega) (by omega)

theorem rowsBelow_getElem? {i q : ℕ} :
    (List.range' (row + 1) (screen.rows - (row + 1)))[i]? = some q ↔
      q = row + 1 + i ∧ q < screen.rows := by
  rw [List.getElem?_eq_some_iff]
  simp only [List.length_range', List.getElem_range', Nat.one_mul]
  constructor
  · rintro ⟨hlt, rfl⟩
    omega
  · rintro ⟨rfl, hlt⟩
    exact ⟨by omega, rfl⟩

/-- The scan ends at the first row with both corners. -/
theorem scanBottom_iff {n : ℕ} :
    scanFor
        (fun br => isBottomLeftCorner (firstChar screen br col) &&
          isBottomRightCorner (firstChar screen br rightCol))
        (fun br => isBoxDrawing (firstChar screen br col) && isBoxDrawing (firstChar screen br rightCol))
        (List.range' (row + 1) (screen.rows - (row + 1))) = some n ↔
      (row + 1 + n < screen.rows ∧
        isBottomLeftCorner (firstChar screen (row + 1 + n) col) = true ∧
        isBottomRightCorner (firstChar screen (row + 1 + n) rightCol) = true) ∧
      ∀ q, row < q → q < row + 1 + n →
        ¬(isBottomLeftCorner (firstChar screen q col) = true ∧
          isBottomRightCorner (firstChar screen q rightCol) = true) ∧
        isBoxDrawing (firstChar screen q col) = true ∧
        isBoxDrawing (firstChar screen q rightCol) = true := by
  rw [scanFor_eq_some_iff]
  simp only [rowsBelow_getElem?, ← Bool.and_eq_true, ← Bool.not_eq_true]
  constructor
  · rintro ⟨⟨q, ⟨rfl, hlt⟩, hcorners⟩, hbefore⟩
    refine ⟨⟨hlt, hcorners⟩, fun q hrow hq => ?_⟩
    exact hbefore (q - (row + 1)) (by omega) q ⟨by omega, by omega⟩
  · rintro ⟨⟨hlt, hcorners⟩, hbefore⟩
    refine ⟨⟨row + 1 + n, ⟨rfl, hlt⟩, hcorners⟩, fun m hm q hq => ?_⟩
    exact hbefore q (by omega) (by omega)

theorem findBottomRow_iff : findBottomRow screen row col rightCol = some br ↔
    (row < br ∧ br < screen.rows) ∧
      (isBottomLeftCorner (firstChar screen br col) = true ∧
        isBottomRightCorner (firstChar screen br rightCol) = true) ∧
      (∀ c, col < c → c < rightCol → isBoxDrawing (firstChar screen br c) = true) ∧
      ∀ q, row < q → q < br →
        ¬(isBottomLeftCorner (firstChar screen q col) = true ∧
          isBottomRightCorner (firstChar screen q rightCol) = true) ∧
        isBoxDrawing (firstChar screen q col) = true ∧
        isBoxDrawing (firstChar screen q rightCol) = true := by
  unfold findBottomRow
  simp only [vertical_or_box]
  constructor
  · intro h
    split at h
    · cases h
    · rename_i n hscan
      split_ifs at h with hvalid
      obtain rfl := Option.some.inj h
      obtain ⟨⟨hlt, hcorners⟩, hbefore⟩ := scanBottom_iff.mp hscan
      exact ⟨⟨by omega, hlt⟩, hcorners, validBottom_iff.mp hvalid, hbefore⟩
  · rintro ⟨⟨hrow, hlt⟩, hcorners, hvalid, hbefore⟩
    obtain ⟨n, rfl⟩ := Nat.exists_eq_add_of_lt hrow
    rw [Nat.add_right_comm] at hlt hcorners hvalid hbefore ⊢
    rw [scanBottom_iff.mpr ⟨⟨hlt, hcorners⟩, hbefore⟩]
    exact if_pos (validBottom_iff.mpr hvalid)

/-- A candidate is a rectangle with a border. -/
theorem candidateAt_iff (h : screen.Shaped) (hrow : row < screen.rows) (hcol : col < screen.cols) :
    candidateAt screen row col = some b ↔
      (b.topRow = row ∧ b.leftCol = col ∧ b.hasBorder = true) ∧ Bordered screen b := by
  rw [candidateAt, charAt_eq hrow hcol]
  constructor
  · intro hb
    split_ifs at hb with hcorner
    split at hb
    · cases hb
    · rename_i rightCol hright
      split_ifs at hb with hwidth
      split at hb
      · cases hb
      · rename_i bottomRow hbottom
        split_ifs at hb with hheight
        obtain rfl := Option.some.inj hb
        obtain ⟨⟨hlt, hcols⟩, htopRight, htop⟩ := (findRightCol_iff h hrow).mp hright
        obtain ⟨⟨hbelow, hrows⟩, hcorners, hvalid, hsides⟩ := findBottomRow_iff.mp hbottom
        exact ⟨⟨rfl, rfl, rfl⟩,
          { bottom_lt := hrows
            right_lt := hcols
            width := by
              show col + 4 ≤ rightCol
              omega
            height := by
              show row + 2 ≤ bottomRow
              omega
            topLeft := hcorner
            topRight := htopRight
            top := htop
            bottomLeft := hcorners.1
            bottomRight := hcorners.2
            bottom := hvalid
            sides := hsides }⟩
  · rintro ⟨⟨rfl, rfl, hborder⟩, hb⟩
    have hwidth := hb.width
    have hheight := hb.height
    have hright : findRightCol screen b.topRow b.leftCol = some b.rightCol :=
      (findRightCol_iff h hrow).mpr ⟨⟨by omega, hb.right_lt⟩, hb.topRight, hb.top⟩
    have hbottom : findBottomRow screen b.topRow b.leftCol b.rightCol = some b.bottomRow :=
      findBottomRow_iff.mpr ⟨⟨by omega, hb.bottom_lt⟩, ⟨hb.bottomLeft, hb.bottomRight⟩, hb.bottom,
        hb.sides⟩
    rw [if_neg (not_not_intro hb.topLeft), hright]
    simp only [hbottom]
    rw [if_neg (by omega), if_neg (by omega), ← hborder]

/-- The candidates in the order in which they are found. -/
def candidates (screen : Screen) : List CodeBlock :=
  (List.range screen.rows).flatMap fun row => (List.range screen.cols).filterMap (candidateAt screen row)

theorem detectBorderBlocks_eq (screen : Screen) :
    detectBorderBlocks screen = sift nests [] (candidates screen) := by
  rw [sift, candidates, List.foldl_flatMap, detectBorderBlocks]
  congr 1
  funext blocks row
  rw [List.foldl_filterMap]
  congr 1
  funext blocks col
  cases candidateAt screen row col <;> rfl

theorem mem_candidates_iff (h : screen.Shaped) :
    b ∈ candidates screen ↔ b.hasBorder = true ∧ Bordered screen b := by
  simp only [candidates, List.mem_flatMap, List.mem_filterMap, List.mem_range]
  constructor
  · rintro ⟨row, hrow, col, hcol, hb⟩
    obtain ⟨⟨-, -, hborder⟩, hbordered⟩ := (candidateAt_iff h hrow hcol).mp hb
    exact ⟨hborder, hbordered⟩
  · rintro ⟨hborder, hb⟩
    have hwidth := hb.width
    have hheight := hb.height
    have hbottom := hb.bottom_lt
    have hright := hb.right_lt
    have hrow : b.topRow < screen.rows := by omega
    have hcol : b.leftCol < screen.cols := by omega
    exact ⟨b.topRow, hrow, b.leftCol, hcol,
      (candidateAt_iff h hrow hcol).mpr ⟨⟨rfl, rfl, hborder⟩, hb⟩⟩

/-- They are found row by row and from left to right. -/
theorem pairwise_candidates (h : screen.Shaped) : (candidates screen).Pairwise fun a b =>
    a.topRow < b.topRow ∨ a.topRow = b.topRow ∧ a.leftCol < b.leftCol := by
  have hat : ∀ {row col : ℕ} {b : CodeBlock}, row ∈ List.range screen.rows →
      col ∈ List.range screen.cols → candidateAt screen row col = some b →
        b.topRow = row ∧ b.leftCol = col := by
    intro row col b hrow hcol hb
    have hiff := candidateAt_iff (b := b) h (List.mem_range.mp hrow) (List.mem_range.mp hcol)
    exact ⟨(hiff.mp hb).1.1, (hiff.mp hb).1.2.1⟩
  rw [candidates, List.pairwise_flatMap]
  constructor
  · intro row hrow
    rw [List.pairwise_filterMap]
    refine List.pairwise_lt_range.imp_of_mem fun hcol hcol' hlt a ha b hb => ?_
    obtain ⟨hatop, haleft⟩ := hat hrow hcol ha
    obtain ⟨hbtop, hbleft⟩ := hat hrow hcol' hb
    omega
  · refine List.pairwise_lt_range.imp_of_mem fun hrow hrow' hlt a ha b hb => ?_
    obtain ⟨col, hcol, ha⟩ := List.mem_filterMap.mp ha
    obtain ⟨col', hcol', hb⟩ := List.mem_filterMap.mp hb
    obtain ⟨hatop, -⟩ := hat hrow hcol ha
    obtain ⟨hbtop, -⟩ := hat hrow' hcol' hb
    omega

theorem Bordered.inside (hb : Bordered screen b) (hborder : b.hasBorder = true) : Inside screen b := by
  have hwidth := hb.width
  have hheight := hb.height
  constructor
  · rw [if_pos hborder]
    omega
  · omega
  · exact hb.bottom_lt
  · exact hb.right_lt

end Border

/-- How two blocks lie that are both kept. -/
def Placed (a b : CodeBlock) : Prop :=
  (¬Within a b ∧ ¬Within b a) ∧ (a.hasBorder = false ∨ b.hasBorder = false → Apart a b)

section Kept

variable {screen : Screen}

theorem mem_detectBorderBlocks (h : screen.Shaped) {b : CodeBlock}
    (hb : b ∈ detectBorderBlocks screen) : b.hasBorder = true ∧ Bordered screen b := by
  rw [detectBorderBlocks_eq] at hb
  refine forall_sift (P := fun b => b.hasBorder = true ∧ Bordered screen b) ?_ ?_ b hb
  · exact fun b hb => absurd hb List.not_mem_nil
  · exact fun b hb => (mem_candidates_iff h).mp hb

/-- What is found later is in no block kept before, and contains none since it begins behind. -/
theorem pairwise_detectBorderBlocks (h : screen.Shaped) :
    (detectBorderBlocks screen).Pairwise Placed := by
  rw [detectBorderBlocks_eq]
  apply pairwise_sift
  · exact List.Pairwise.nil
  · exact fun b hb => absurd hb List.not_mem_nil
  · refine (pairwise_candidates h).imp_of_mem fun ha hb horder hfree => ?_
    obtain ⟨haborder, ha⟩ := (mem_candidates_iff h).mp ha
    obtain ⟨hbborder, hb⟩ := (mem_candidates_iff h).mp hb
    have haw := ha.width
    have hah := ha.height
    have hbw := hb.width
    have hbh := hb.height
    refine ⟨⟨fun hwithin => ?_, fun hwithin => ?_⟩, ?_⟩
    · have hnest := nests_iff.mp ((within_iff (by omega) (by omega)).mp hwithin)
      omega
    · rw [(within_iff (by omega) (by omega)).mp hwithin] at hfree
      cases hfree
    · rintro (hcolour | hcolour)
      · cases haborder.symm.trans hcolour
      · cases hbborder.symm.trans hcolour

theorem exists_within_border (h : screen.Shaped) {b : CodeBlock} (hb : Bordered screen b) :
    ∃ b' ∈ detectBorderBlocks screen, Within b b' := by
  rw [detectBorderBlocks_eq]
  have hmem : { b with hasBorder := true } ∈ candidates screen :=
    (mem_candidates_iff h).mpr ⟨rfl, { hb with }⟩
  have hrefl : ∀ b, nests b b = true := fun b => nests_iff.mpr (by omega)
  obtain ⟨b', hb', hnest⟩ := @exists_covers_of_mem _ nests [] _ _ hrefl hmem
  exact ⟨b', hb', within_of_nests hnest⟩

end Kept

/-! ### Backgrounds of their own -/

section Colour

variable {screen : Screen}

/-- The runs are among the cells gone through, and the best one is wide enough. -/
structure Runs.Bounded (r : Runs) (n : ℕ) : Prop where
  current : r.curStart + r.curLen ≤ n
  best : ∀ s, r.bestSpan = some s → s.left + 9 ≤ s.right ∧ s.right < n

theorem Runs.Bounded.save {r : Runs} {n : ℕ} (h : r.Bounded n) : r.save.Bounded n := by
  have hcurrent := h.current
  unfold Runs.save
  split_ifs with hlonger
  · refine ⟨hcurrent, fun s hs => ?_⟩
    obtain rfl := Option.some.inj hs
    obtain ⟨-, hlong, -⟩ := hlonger
    constructor
    · show r.curStart + 9 ≤ r.curStart + r.curLen - 1
      omega
    · show r.curStart + r.curLen - 1 < n
      omega
  · exact h

theorem Runs.save_current (r : Runs) : r.save.curStart = r.curStart := by
  unfold Runs.save
  split_ifs <;> rfl

theorem Runs.Bounded.scan {r : Runs} {n : ℕ} (h : r.Bounded n) (bg : Color) :
    (r.scan n bg).Bounded (n + 1) := by
  have hcurrent := h.current
  have hbest : ∀ s, r.save.bestSpan = some s → s.left + 9 ≤ s.right ∧ s.right < n + 1 := by
    intro s hs
    have hs := h.save.best s hs
    omega
  unfold Runs.scan
  split_ifs with hsame hother
  · constructor
    · show r.curStart + (r.curLen + 1) ≤ n + 1
      omega
    · intro s hs
      have hs := h.best s hs
      omega
  · exact ⟨Nat.le_refl _, hbest⟩
  · constructor
    · show r.save.curStart + 0 ≤ n + 1
      rw [r.save_current]
      omega
    · exact hbest

theorem bounded_scan (cells : List Cell) :
    (cells.zipIdx.foldl (fun r (cell, col) => Runs.scan r col cell.attrs.bg) Runs.new).Bounded
      cells.length := by
  induction cells using List.reverseRecOn with
  | nil => exact ⟨Nat.le_refl 0, fun s hs => by cases hs⟩
  | append_singleton cells cell ih =>
    rw [List.zipIdx_append, List.foldl_append, List.length_append, Nat.zero_add]
    exact ih.scan cell.attrs.bg

theorem rowSpan_bounded {row : ℕ} {s : BgSpan} (hs : rowSpan screen row = some s) :
    s.left + 9 ≤ s.right ∧ s.right < screen.cols := by
  have hbest := (bounded_scan _).save.best s hs
  rw [List.length_take] at hbest
  omega

theorem extendDown_lt (span : BgSpan) (rest : List (Option BgSpan)) (bottom : ℕ) :
    extendDown span rest bottom < bottom + rest.length + 1 := by
  fun_induction extendDown span rest bottom with
  | case1 =>
    rw [List.length_cons]
    omega
  | case2 =>
    rw [List.length_cons]
    omega
  | case3 => omega

/-- All the blocks are in the screen and lie as they should. -/
structure Sound (screen : Screen) (blocks : List CodeBlock) : Prop where
  inside : ∀ b ∈ blocks, Inside screen b
  placed : blocks.Pairwise Placed

/-- A block that touches none of those there is apart from all of them. -/
theorem Sound.keepColour {blocks : List CodeBlock} (h : Sound screen blocks) {b : CodeBlock}
    (hb : Inside screen b) : Sound screen (keepUnless overlaps blocks b) where
  inside := forall_keepUnless h.inside hb
  placed := by
    apply pairwise_keepUnless h.placed
    intro b' hb' hfree
    have hapart := apart_of_not_overlaps hfree
    exact ⟨⟨not_within_of_apart (h.inside b' hb') hapart, not_within_of_apart hb hapart.symm⟩,
      fun _ => hapart⟩

/-- The loop keeps the blocks that are there and adds blocks that are apart from them. -/
theorem groupRows_sound {rowSpans : List (Option BgSpan)} {row : ℕ} {blocks : List CodeBlock}
    (hrows : rowSpans.length = screen.rows)
    (hspans : ∀ (row : ℕ) s, rowSpans[row]? = some (some s) →
      s.left + 9 ≤ s.right ∧ s.right < screen.cols)
    (h : Sound screen blocks) :
    Sound screen (groupRows rowSpans row blocks) ∧
      ∀ b ∈ blocks, b ∈ groupRows rowSpans row blocks := by
  fun_induction groupRows rowSpans row blocks with
  | case1 row blocks hend => exact ⟨h, fun b hb => hb⟩
  | case2 row blocks hnone ih => exact ih h
  | case3 row blocks span hspan blockBottom hnarrow ih => exact ih h
  | case4 row blocks span hspan blockBottom hwide ih =>
    have hrow := (List.getElem?_eq_some_iff.mp hspan).1
    obtain ⟨hleft, hright⟩ := hspans row span hspan
    have hdown := extendDown_lt span (rowSpans.drop (row + 1)) row
    have hup := le_extendDown span (rowSpans.drop (row + 1)) row
    rw [List.length_drop] at hdown
    have hinside : Inside screen
        { topRow := row
          bottomRow := blockBottom
          leftCol := span.left
          rightCol := span.right
          hasBorder := false } := by
      constructor
      · exact hup
      · show span.left < span.right
        omega
      · show extendDown span (rowSpans.drop (row + 1)) row < screen.rows
        omega
      · exact hright
    obtain ⟨hsound, hkept⟩ := ih (h.keepColour hinside)
    exact ⟨hsound, fun b hb => hkept b (mem_keepUnless _ hb)⟩

theorem detectColorBlocks_sound {blocks : List CodeBlock} (h : Sound screen blocks) :
    Sound screen (detectColorBlocks screen blocks) ∧
      ∀ b ∈ blocks, b ∈ detectColorBlocks screen blocks := by
  apply groupRows_sound
  · rw [List.length_map, List.length_range]
  · intro row s hs
    rw [List.getElem?_map, Option.map_eq_some_iff] at hs
    obtain ⟨row', -, hs⟩ := hs
    exact rowSpan_bounded hs
  · exact h

end Colour

/-! ### The text of a block -/

section Content

variable {screen screen' : Screen} {b : CodeBlock}

/-- Some columns of two rows with the same text there. -/
theorem pushGraphemes_congr {row startCol endCol : ℕ}
    (h : ∀ col, startCol ≤ col → col < endCol → graphemeAt screen' row col = graphemeAt screen row col) :
    pushGraphemes (((screen'.row row).take (min endCol (screen'.row row).length)).drop startCol) =
      pushGraphemes (((screen.row row).take (min endCol (screen.row row).length)).drop startCol) := by
  have htexts : (((screen'.row row).take endCol).drop startCol).map (·.grapheme) =
      (((screen.row row).take endCol).drop startCol).map (·.grapheme) := by
    apply List.ext_getElem?
    intro i
    simp only [List.getElem?_map, List.getElem?_drop, List.getElem?_take]
    split_ifs with hi
    · exact h (startCol + i) (by omega) hi
    · rfl
  rw [← List.take_eq_take_min, ← List.take_eq_take_min]
  rw [pushGraphemes, pushGraphemes, List.flatMap_def, List.flatMap_def, htexts]

theorem isContent_of_range {rowStart rowEnd startCol endCol row col : ℕ}
    (hrange : contentRange b = (rowStart, rowEnd, startCol, endCol))
    (hrow : rowStart ≤ row ∧ row < rowEnd) (hcol : startCol ≤ col ∧ col < endCol) :
    IsContent b row col := by
  unfold contentRange at hrange
  unfold IsContent
  split_ifs at hrange ⊢
  · cases hrange
    omega
  · cases hrange
    rw [contains_iff]
    omega

theorem extractContent_congr (hrows : screen'.rows = screen.rows)
    (h : ∀ row col, IsContent b row col → graphemeAt screen' row col = graphemeAt screen row col) :
    extractContent screen' b = extractContent screen b := by
  rcases hrange : contentRange b with ⟨rowStart, rowEnd, startCol, endCol⟩
  unfold extractContent
  simp only [hrange, hrows]
  congr 3
  apply List.map_congr_left
  intro row hrow
  have hin := List.mem_range'_1.mp ((List.takeWhile_sublist _).subset hrow)
  apply pushGraphemes_congr
  intro col hstart hend
  exact h row col (isContent_of_range hrange (by omega) ⟨hstart, hend⟩)

end Content

/-- The blocks of every screen. -/
theorem detectCodeBlocks_detects {screen : Screen} (h : screen.Shaped) :
    Detects screen (detectCodeBlocks screen) := by
  have hborder : Sound screen (detectBorderBlocks screen) := by
    refine ⟨fun b hb => ?_, pairwise_detectBorderBlocks h⟩
    obtain ⟨hborder, hbordered⟩ := mem_detectBorderBlocks h hb
    exact hbordered.inside hborder
  obtain ⟨hsound, hkept⟩ := detectColorBlocks_sound hborder
  constructor
  · exact hsound.inside
  · exact hsound.placed.imp fun hplaced => hplaced.1
  · exact hsound.placed.imp fun hplaced => hplaced.2
  · intro b hb
    obtain ⟨b', hb', hwithin⟩ := exists_within_border h hb
    exact ⟨b', hkept b' hb', hwithin⟩
  · intro b _ screen' _ hrows htext
    exact extractContent_congr hrows htext

/-- A screen with one block. -/
def boxScreen : Screen :=
  { Screen.new 3 5 with
    cells := [['\u250c', '\u2500', '\u2500', '\u2500', '\u2510'],
      ['\u2502', 'a', 'b', 'c', '\u2502'],
      ['\u2514', '\u2500', '\u2500', '\u2500', '\u2518']].map
        (·.map fun c => { grapheme := [c], attrs := {} }) }

theorem detectCodeBlocks_detects_box : Detects boxScreen (detectCodeBlocks boxScreen) :=
  detectCodeBlocks_detects ⟨by decide, by decide⟩

example : detectBorderBlocks boxScreen =
    [{ topRow := 0, bottomRow := 2, leftCol := 0, rightCol := 4, hasBorder := true }] := by
  decide

end CodeBlocks

end Forgetty
