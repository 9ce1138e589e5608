import Forgetty.Gtk.CopiedText
import Forgetty.Gtk.ScrollLock

/-! A selection while output comes. It has the numbers of its rows, which count from the oldest
row of the terminal, and output leaves it as it is. When the terminal drops its oldest rows, the
other rows get smaller numbers and the selection does not. -/

namespace Forgetty

open Lib Vt

namespace CopySelection

structure SelectedPane where
  pane : ScrollLock.ScrolledPane
  selection : Option Selection

/-- A chunk of output. The library says how the terminal looks after it was fed, and how many of
the oldest rows are gone. -/
structure Chunk where
  evicted : ℕ
  fed : Scrollback

namespace SelectedPane

/-- The data handler. The selection is kept. -/
def output (s : SelectedPane) (chunk : Chunk) : SelectedPane :=
  { s with pane := s.pane.output chunk.fed }

/-- The text that is copied, if the copy ends within the rounds. -/
def copy (rounds : ℕ) (s : SelectedPane) : Option (Option Text) :=
  match s.selection with
  | none => some none
  | some sel => (copySelection sel rounds s.pane.terminal).map Prod.snd

/-! ### What is to hold -/

/-- The copy ends, with the text. -/
def Copies (text : Option Text) (s : SelectedPane) : Prop :=
  ∃ rounds, s.copy rounds = some text

end SelectedPane

/-- The rows of an interval are still there, behind the evicted ones no more. -/
structure Kept (first last evicted : ℕ) (t t' : Scrollback) : Prop where
  evicted_le : evicted ≤ first
  rows : ∀ r, first ≤ r → r ≤ last → t'.rows[r - evicted]? = t.rows[r]?
  cols : t'.cols = t.cols

/-- Every chunk leaves the rows of the interval in the terminal. -/
def KeptBy (first last : ℕ) (s : SelectedPane) : List Chunk → Prop
  | [] => True
  | chunk :: chunks =>
    Kept first last chunk.evicted s.pane.terminal chunk.fed ∧
      KeptBy (first - chunk.evicted) (last - chunk.evicted) (s.output chunk) chunks

/-- How many rows are evicted while the chunks are fed. -/
def evictedBy (chunks : List Chunk) : ℕ := (chunks.map (·.evicted)).sum

/-- The selection some rows further up. -/
def movedUp (evicted : ℕ) (sel : Selection) : Selection :=
  { sel with
    start := (sel.start.1 - evicted, sel.start.2)
    stop := (sel.stop.1 - evicted, sel.stop.2) }

/-! ### The selection moved with its rows -/

variable {sel : Selection} {evicted : ℕ}

theorem movedUp_zero (sel : Selection) : movedUp 0 sel = sel := rfl

theorem ordered_movedUp (h : evicted ≤ sel.startRow) : (movedUp evicted sel).ordered =
    ((sel.startRow - evicted, sel.startCol), (sel.endRow - evicted, sel.endCol)) := by
  have hle := sel.startRow_le_endRow
  unfold Selection.startRow Selection.endRow Selection.startCol Selection.endCol at *
  by_cases hord : sel.start.1 < sel.stop.1 ∨ (sel.start.1 = sel.stop.1 ∧ sel.start.2 ≤ sel.stop.2)
  · have hsel : sel.ordered = (sel.start, sel.stop) := if_pos hord
    rw [hsel] at h hle ⊢
    dsimp only at h hle
    exact if_pos (by simp only [movedUp]; omega)
  · have hsel : sel.ordered = (sel.stop, sel.start) := if_neg hord
    rw [hsel] at h hle ⊢
    dsimp only at h hle
    exact if_neg (by simp only [movedUp]; omega)

theorem startRow_movedUp (h : evicted ≤ sel.startRow) :
    (movedUp evicted sel).startRow = sel.startRow - evicted := by
  rw [Selection.startRow, ordered_movedUp h]

theorem endRow_movedUp (h : evicted ≤ sel.startRow) :
    (movedUp evicted sel).endRow = sel.endRow - evicted := by
  rw [Selection.endRow, ordered_movedUp h]

theorem startCol_movedUp (h : evicted ≤ sel.startRow) :
    (movedUp evicted sel).startCol = sel.startCol := by
  rw [Selection.startCol, ordered_movedUp h]

theorem endCol_movedUp (h : evicted ≤ sel.startRow) :
    (movedUp evicted sel).endCol = sel.endCol := by
  rw [Selection.endCol, ordered_movedUp h]

theorem columns_movedUp {absRow : ℕ} (h : evicted ≤ sel.startRow) (hrow : sel.startRow ≤ absRow)
    (numCols : ℕ) : columns (movedUp evicted sel) numCols (absRow - evicted) =
      columns sel numCols absRow := by
  have hle := sel.startRow_le_endRow
  have hmode : (movedUp evicted sel).mode = sel.mode := rfl
  have hstart : absRow - evicted = sel.startRow - evicted ↔ absRow = sel.startRow := by omega
  have hend : absRow - evicted = sel.endRow - evicted ↔ absRow = sel.endRow := by omega
  unfold columns
  rw [hmode, startRow_movedUp h, endRow_movedUp h, startCol_movedUp h, endCol_movedUp h]
  simp only [hstart, hend]

/-- What of a copied row becomes text. -/
def content (row : CopiedRow) : Text × Bool := (row.line, row.isWrapped)

theorem joinLines_congr {lines lines' : List CopiedRow}
    (h : lines.map content = lines'.map content) (continued : Bool) :
    joinLines continued lines = joinLines continued lines' := by
  induction lines generalizing lines' continued with
  | nil =>
    obtain rfl := List.map_eq_nil_iff.mp h.symm
    rfl
  | cons row rows ih =>
    cases lines' with
    | nil => cases h
    | cons row' rows' =>
      rw [List.map_cons, List.map_cons, List.cons.injEq] at h
      obtain ⟨hrow, hrows⟩ := h
      obtain ⟨hline, hwrapped⟩ := Prod.mk.inj hrow
      have hempty : rows.isEmpty = rows'.isEmpty := by
        rw [← List.isEmpty_map (f := content), hrows, List.isEmpty_map]
      rw [joinLines_cons, joinLines_cons, hline, hwrapped, ih hrows, ih hrows, hempty]

theorem clipboardText_congr {lines lines' : List CopiedRow}
    (h : lines.map content = lines'.map content) :
    clipboardText lines = clipboardText lines' := by
  rw [clipboardText, clipboardText, joinLines_congr h]

variable {t t' : Scrollback}

theorem isWrapped_movedUp {absRow : ℕ} (h : evicted ≤ sel.startRow) (hrow : sel.startRow ≤ absRow)
    (numCols : ℕ) (cells : List Cell) (flag : Bool) :
    isWrapped (movedUp evicted sel) numCols (absRow - evicted) cells flag =
      isWrapped sel numCols absRow cells flag := by
  have hend : absRow - evicted < sel.endRow - evicted ↔ absRow < sel.endRow := by omega
  unfold isWrapped
  rw [endRow_movedUp h]
  simp only [hend]

/-- A row that is kept has the same text in the selection that was moved with it. -/
theorem content_copiedRow_movedUp (hkept : Kept sel.startRow sel.endRow evicted t t') {absRow : ℕ}
    (hstart : sel.startRow ≤ absRow) (hend : absRow ≤ sel.endRow) :
    content (copiedRow (movedUp evicted sel) t' (absRow - evicted)) =
      content (copiedRow sel t absRow) := by
  have hle := hkept.evicted_le
  unfold content copiedRow readRow selectedLine
  dsimp only
  rw [hkept.rows absRow hstart hend, hkept.cols, columns_movedUp hle hstart,
    isWrapped_movedUp hle hstart]

theorem endRow_lt_of_kept (hkept : Kept sel.startRow sel.endRow evicted t t')
    (her : sel.endRow < t.rows.length) : sel.endRow - evicted < t'.rows.length := by
  have hrow := hkept.rows sel.endRow sel.startRow_le_endRow (Nat.le_refl _)
  rw [List.getElem?_eq_getElem her] at hrow
  exact (List.getElem?_eq_some_iff.mp hrow).1

/-- The selection that was moved with its rows has the text that was selected. -/
theorem clipboardText_movedUp (hkept : Kept sel.startRow sel.endRow evicted t t')
    (her : sel.endRow < t.rows.length) :
    clipboardText (selectedRows (movedUp evicted sel) t') =
      clipboardText (selectedRows sel t) := by
  have hle := hkept.evicted_le
  have hse := sel.startRow_le_endRow
  have her' := endRow_lt_of_kept hkept her
  have hcount : sel.endRow - evicted + 1 - (sel.startRow - evicted) =
      sel.endRow + 1 - sel.startRow := by omega
  refine clipboardText_congr ?_
  rw [selectedRows, selectedRows, startRow_movedUp hle, endRow_movedUp hle, hcount,
    ← List.map_sub_range' hle, List.map_map, List.map_map, List.map_map]
  refine List.map_congr_left fun r hr => ?_
  rw [List.mem_range'_1] at hr
  have hrow : r ≤ sel.endRow := by omega
  calc content (selectedRow (movedUp evicted sel) t' (r - evicted))
      = content (copiedRow (movedUp evicted sel) t' (r - evicted)) := by
        rw [copiedRow_eq]
        · rwa [endRow_movedUp hle]
        · rw [startRow_movedUp hle]
          omega
        · rw [endRow_movedUp hle]
          omega
    _ = content (copiedRow sel t r) := content_copiedRow_movedUp hkept hr.1 hrow
    _ = content (selectedRow sel t r) := by rw [copiedRow_eq her hr.1 hrow]

/-! ### Runs -/

theorem Kept.refl (first last : ℕ) (t : Scrollback) : Kept first last 0 t t :=
  ⟨Nat.zero_le first, fun _ _ _ => rfl, rfl⟩

theorem Kept.trans {first last e e' : ℕ} {u : Scrollback} (h : Kept first last e t t')
    (h' : Kept (first - e) (last - e) e' t' u) : Kept first last (e + e') t u where
  evicted_le := by
    have := h.evicted_le
    have := h'.evicted_le
    omega
  rows r hfirst hlast := by
    rw [← h.rows r hfirst hlast, ← h'.rows (r - e) (by omega) (by omega), Nat.sub_sub]
  cols := h'.cols.trans h.cols

/-- After the data handler the terminal has the rows it was fed. -/
theorem rows_output (p : ScrollLock.ScrolledPane) (fed : Scrollback) :
    (p.output fed).terminal.rows = fed.rows := by
  unfold ScrollLock.ScrolledPane.output
  dsimp only
  split_ifs <;> rfl

theorem cols_output (p : ScrollLock.ScrolledPane) (fed : Scrollback) :
    (p.output fed).terminal.cols = fed.cols := by
  unfold ScrollLock.ScrolledPane.output
  dsimp only
  split_ifs <;> rfl

theorem Kept.output {first last e : ℕ} {p : ScrollLock.ScrolledPane} {fed : Scrollback}
    (h : Kept first last e p.terminal fed) :
    Kept first last e p.terminal (p.output fed).terminal :=
  ⟨h.evicted_le, by rw [rows_output]; exact h.rows, by rw [cols_output]; exact h.cols⟩

/-- What every chunk keeps the run keeps. -/
theorem KeptBy.kept {first last : ℕ} {s : SelectedPane} {chunks : List Chunk}
    (h : KeptBy first last s chunks) : Kept first last (evictedBy chunks) s.pane.terminal
      (run SelectedPane.output s chunks).pane.terminal := by
  induction chunks generalizing first last s with
  | nil => exact Kept.refl first last _
  | cons chunk chunks ih => exact h.1.output.trans (ih h.2)

theorem KeptBy.take {first last : ℕ} {s : SelectedPane} {chunks : List Chunk}
    (h : KeptBy first last s chunks) (n : ℕ) : KeptBy first last s (chunks.take n) := by
  induction chunks generalizing first last s n with
  | nil => simpa using h
  | cons chunk chunks ih =>
    cases n with
    | zero => trivial
    | succ n => exact ⟨h.1, ih h.2 n⟩

theorem selection_run (s : SelectedPane) (chunks : List Chunk) :
    (run SelectedPane.output s chunks).selection = s.selection := by
  induction chunks generalizing s with
  | nil => rfl
  | cons chunk chunks ih => exact ih (s.output chunk)

/-- The copy ends if the rows of the selection exist, with their text. -/
theorem copies_iff {s : SelectedPane} (hsel : s.selection = some sel) (text : Option Text) :
    s.Copies text ↔ sel.endRow < s.pane.terminal.rows.length ∧
      clipboardText (selectedRows sel s.pane.terminal) = text := by
  unfold SelectedPane.Copies SelectedPane.copy
  rw [hsel]
  dsimp only
  constructor
  · rintro ⟨rounds, h⟩
    obtain ⟨⟨u, copied⟩, hcopy, rfl⟩ := Option.map_eq_some_iff.mp h
    by_cases her : sel.endRow < s.pane.terminal.rows.length
    · exact ⟨her, (copySelection_eq her hcopy).symm⟩
    · rw [copySelection, copyRows,
        readPages_eq_none (Nat.not_lt.mp her) sel.startRow_le_endRow] at hcopy
      cases hcopy
  · rintro ⟨her, rfl⟩
    obtain ⟨rounds, u, hcopy⟩ := copySelection_some her
    exact ⟨rounds, by rw [hcopy]; rfl⟩

/-- While the selected rows stay in the terminal, the selection keeps its text for as long as no
row is evicted. At any time the copy has the text if the rows that have the numbers of the
selection by then have the text of those that were moved up. -/
theorem copies_kept (p : ScrollLock.ScrolledPane) {sel : Selection}
    (her : sel.endRow < p.terminal.rows.length) (chunks : List Chunk)
    (hkept : KeptBy sel.startRow sel.endRow { pane := p, selection := some sel } chunks) :
    ((∀ chunk ∈ chunks, chunk.evicted = 0) →
      Along SelectedPane.output (·.Copies (clipboardText (selectedRows sel p.terminal)))
        { pane := p, selection := some sel } chunks) ∧
    ∀ s, s = run SelectedPane.output { pane := p, selection := some sel } chunks →
      (s.Copies (clipboardText (selectedRows sel p.terminal)) ↔
        sel.endRow < s.pane.terminal.rows.length ∧
          clipboardText (selectedRows sel s.pane.terminal) =
            clipboardText (selectedRows (movedUp (evictedBy chunks) sel) s.pane.terminal)) := by
  refine ⟨fun hevicted => ?_, fun s hs => ?_⟩
  · rw [along_iff]
    intro n
    have hnone : evictedBy (chunks.take n) = 0 := by
      refine List.sum_eq_zero fun evicted hmem => ?_
      obtain ⟨chunk, hchunk, rfl⟩ := List.mem_map.mp hmem
      exact hevicted chunk (List.mem_of_mem_take hchunk)
    have hprefix := (hkept.take n).kept
    rw [hnone] at hprefix
    have hrow := endRow_lt_of_kept hprefix her
    have htext := clipboardText_movedUp hprefix her
    rw [movedUp_zero] at htext
    rw [Nat.sub_zero] at hrow
    exact (copies_iff (selection_run _ _) _).mpr ⟨hrow, htext⟩
  · have htext := clipboardText_movedUp hkept.kept her
    rw [← hs] at htext
    have hsel : s.selection = some sel := by rw [hs, selection_run]
    rw [htext]
    exact copies_iff hsel _

/-- A page of one row at the last of some rows of one letter. -/
def letterRows (text : Text) (h : 0 < text.length ∧ text.length < 2 ^ 63) : Scrollback where
  rows := text.map fun c => { cells := letters [c], wrapped := false }
  cols := 1
  offset := text.length - 1
  len := 1
  len_pos := Nat.one_pos
  len_le := by
    rw [List.length_map]
    exact h.1
  offset_le := by rw [List.length_map]
  rows_lt := by
    rw [List.length_map]
    exact h.2
  length_cells row hrow := by
    obtain ⟨c, -, rfl⟩ := List.mem_map.mp hrow
    rfl
  grapheme_ne_nil row hrow := by
    obtain ⟨c, -, rfl⟩ := List.mem_map.mp hrow
    simp [letters]

def ab : ScrollLock.ScrolledPane where
  terminal := letterRows ['a', 'b'] (by decide)
  scrollLock := false

def secondRow : Selection := { start := (1, 0), stop := (1, 0), mode := .normal }

/-- A row comes below the two. -/
def appended : Chunk where
  evicted := 0
  fed := letterRows ['a', 'b', 'c'] (by decide)

/-- A row comes below the two, and the first is evicted. -/
def rolled : Chunk where
  evicted := 1
  fed := letterRows ['b', 'c'] (by decide)

theorem kept_rolled : Kept secondRow.startRow secondRow.endRow 1 ab.terminal rolled.fed where
  evicted_le := Nat.le_refl _
  rows r hfirst hlast := by
    obtain rfl : r = 1 := Nat.le_antisymm hlast hfirst
    rfl
  cols := rfl

theorem kept_appended :
    Kept secondRow.startRow secondRow.endRow 0 ab.terminal appended.fed where
  evicted_le := Nat.zero_le _
  rows r hfirst hlast := by
    obtain rfl : r = 1 := Nat.le_antisymm hlast hfirst
    rfl
  cols := rfl

/-- The letter of the second row is copied before and after a row came. -/
theorem copies_kept_appended :
    Along SelectedPane.output (·.Copies (clipboardText (selectedRows secondRow ab.terminal)))
      { pane := ab, selection := some secondRow } [appended] :=
  (copies_kept ab (by decide) [appended] ⟨kept_appended, trivial⟩).1 (by simp [appended])

/-- After the first row is evicted, the letter of the row below the selected one is copied. -/
theorem not_copies_rolled : ¬ ∀ p sel chunks, sel.endRow < p.terminal.rows.length →
    KeptBy sel.startRow sel.endRow { pane := p, selection := some sel } chunks →
      Along SelectedPane.output (·.Copies (clipboardText (selectedRows sel p.terminal)))
        { pane := p, selection := some sel } chunks := by
  intro h
  have hcopies := (h ab secondRow [rolled] (by decide) ⟨kept_rolled, trivial⟩).last
  have htext := ((copies_iff rfl _).mp hcopies).2
  exact absurd htext (by decide)

end CopySelection

end Forgetty
